import PhraseGrammar.Proofs.Cursor
import PhraseGrammar.Proofs.Semicolons

/-!
# PhraseGrammar.Proofs.Ahead

What a cursor reads is what the reader of lists reads from the tokens ahead of it.

* `Cursor.ahead`: the cursor with some tokens still ahead. Each operation on it is an operation on
  these tokens.
* `Ended`: the end of the text has a kind of its own, so that a cursor stops there at the latest.
* `symbolTurn_…`, `bodyTurn_…`, `itemTurn_…`: what one turn of a loop does.
* `loop_symbolTurn`, `loop_bodyTurn`, `loop_itemTurn`: what the whole loop does, by induction on the
  tokens ahead.

The reader of lists carries the token that was read last; the cursor goes back to it
(`loop_bodyTurn`).
-/

namespace PhraseGrammar.Notation

theorem suffix_of_cons {all ts : List Token} {t : Token} (h : t :: ts <:+ all) : ts <:+ all :=
  (List.suffix_cons t ts).trans h

namespace Cursor

/-- The cursor over some tokens and the end of the text behind them, with `ts` still ahead. -/
def ahead (eof : Token) (all ts : List Token) : Cursor := ⟨all ++ [eof], all.length - ts.length⟩

variable {eof t : Token} {all ts : List Token} {kind : TokenKind}

theorem peek_ahead (h : ts <:+ all) : (ahead eof all ts).peek = pure (Notation.peek eof ts) := by
  obtain ⟨done, rfl⟩ := h
  have htoken : (done ++ ts ++ [eof])[(done ++ ts).length - ts.length]? =
      some (Notation.peek eof ts) := by
    rw [List.length_append, Nat.add_sub_cancel, List.append_assoc,
      List.getElem?_append_right (Nat.le_refl _), Nat.sub_self]
    cases ts <;> rfl
  unfold peek ahead
  rw [htoken]
  rfl

theorem next_ahead (h : t :: ts <:+ all) :
    (ahead eof all (t :: ts)).next = pure (ahead eof all ts) := by
  obtain ⟨done, rfl⟩ := h
  have hindex : (done ++ t :: ts).length - (t :: ts).length + 1 =
      (done ++ t :: ts).length - ts.length := by
    simp only [List.length_append, List.length_cons]
    omega
  have hinside : (done ++ t :: ts).length - ts.length < (done ++ t :: ts ++ [eof]).length := by
    simp only [List.length_append, List.length_cons]
    omega
  simp only [next, ahead, hindex, if_pos hinside]

theorem previous_ahead (h : t :: ts <:+ all) : (ahead eof all ts).previous = pure t := by
  obtain ⟨done, rfl⟩ := h
  have hindex : (done ++ t :: ts).length - ts.length = done.length + 1 := by
    simp only [List.length_append, List.length_cons]
    omega
  have htoken : (done ++ t :: ts ++ [eof])[done.length]? = some t := by simp
  simp only [previous, ahead, hindex, htoken]
  rfl

theorem take_ahead (h : t :: ts <:+ all) (hkind : t.kind = kind) :
    (ahead eof all (t :: ts)).take kind = pure (t, ahead eof all ts) := by
  have ht : Notation.peek eof (t :: ts) = t := rfl
  simp only [take, peek_ahead h, pure_bind, ht, if_pos hkind, next_ahead h]

theorem take_ahead_of_ne (h : ts <:+ all) (hkind : (Notation.peek eof ts).kind ≠ kind) :
    (ahead eof all ts).take kind =
      .refuse ((Notation.peek eof ts).fault (.expected kind (Notation.peek eof ts).kind)) := by
  simp only [take, peek_ahead h, pure_bind, if_neg hkind]

theorem take?_ahead (h : t :: ts <:+ all) (hkind : t.kind = kind) :
    (ahead eof all (t :: ts)).take? kind = pure (some t, ahead eof all ts) := by
  have ht : Notation.peek eof (t :: ts) = t := rfl
  simp only [take?, peek_ahead h, pure_bind, ht, if_pos hkind, take_ahead h hkind]

theorem take?_ahead_of_ne (h : ts <:+ all) (hkind : (Notation.peek eof ts).kind ≠ kind) :
    (ahead eof all ts).take? kind = pure (none, ahead eof all ts) := by
  simp only [take?, peek_ahead h, pure_bind, if_neg hkind]

end Cursor

variable {all : List Token} {eof t : Token} {ts : List Token}

/-! ## Symbols -/

section

variable [Host] {stops : List TokenKind} {symbols : List Symbol} {last : Option Token}

open Cursor

theorem symbolTurn_stop (h : ts <:+ all) (hstop : (peek eof ts).kind ∈ stops) :
    symbolTurn stops ⟨symbols, last, ahead eof all ts⟩ =
      pure (.leave ⟨symbols, last, ahead eof all ts⟩) := by
  simp only [symbolTurn, peek_ahead h, pure_bind, if_pos hstop]

theorem symbolTurn_symbol (h : t :: ts <:+ all) (hstop : t.kind ∉ stops)
    (hkind : t.kind.isSymbol = true) {s : Symbol} (hs : t.symbol = .ok s) :
    symbolTurn stops ⟨symbols, last, ahead eof all (t :: ts)⟩ =
      pure (.again ⟨symbols ++ [s], some t, ahead eof all ts⟩) := by
  have ht : peek eof (t :: ts) = t := rfl
  simp only [symbolTurn, peek_ahead h, pure_bind, ht, if_neg hstop, if_pos hkind, take_ahead h rfl,
    hs, Run.ofExcept]

theorem symbolTurn_literal (h : t :: ts <:+ all) (hstop : t.kind ∉ stops)
    (hkind : t.kind.isSymbol = true) {fault : Fault} (hs : t.symbol = .error fault) :
    symbolTurn stops ⟨symbols, last, ahead eof all (t :: ts)⟩ = .refuse fault := by
  have ht : peek eof (t :: ts) = t := rfl
  simp only [symbolTurn, peek_ahead h, pure_bind, ht, if_neg hstop, if_pos hkind, take_ahead h rfl,
    hs, Run.ofExcept, Run.refuse_bind]

theorem symbolTurn_percent (h : t :: ts <:+ all) (hstop : t.kind ∉ stops)
    (hkind : t.kind = .percent) :
    symbolTurn stops ⟨symbols, last, ahead eof all (t :: ts)⟩ = (do
      let (word, c) ← (ahead eof all ts).take .ident
      if word.lexeme ≠ emptyWord then Run.refuse (word.fault (.unknownInRule word.lexeme))
      else return .again ⟨symbols ++ [.epsilon], some word, c⟩) := by
  have ht : peek eof (t :: ts) = t := rfl
  have hsymbol : ¬t.kind.isSymbol = true := by
    rw [hkind]
    decide
  simp only [symbolTurn, peek_ahead h, pure_bind, ht, if_neg hstop, if_neg hsymbol, if_pos hkind,
    take_ahead h hkind]

theorem symbolTurn_noWord (h : t :: ts <:+ all) (hstop : t.kind ∉ stops)
    (hkind : t.kind = .percent) (hword : (peek eof ts).kind ≠ .ident) :
    symbolTurn stops ⟨symbols, last, ahead eof all (t :: ts)⟩ =
      .refuse ((peek eof ts).fault (.expected .ident (peek eof ts).kind)) := by
  rw [symbolTurn_percent h hstop hkind, take_ahead_of_ne (suffix_of_cons h) hword, Run.refuse_bind]

theorem symbolTurn_otherWord {word : Token} (h : t :: word :: ts <:+ all) (hstop : t.kind ∉ stops)
    (hkind : t.kind = .percent) (hword : word.kind = .ident) (hempty : word.lexeme ≠ emptyWord) :
    symbolTurn stops ⟨symbols, last, ahead eof all (t :: word :: ts)⟩ =
      .refuse (word.fault (.unknownInRule word.lexeme)) := by
  simp only [symbolTurn_percent h hstop hkind, take_ahead (suffix_of_cons h) hword, pure_bind,
    if_pos hempty]

theorem symbolTurn_emptyWord {word : Token} (h : t :: word :: ts <:+ all) (hstop : t.kind ∉ stops)
    (hkind : t.kind = .percent) (hword : word.kind = .ident) (hempty : word.lexeme = emptyWord) :
    symbolTurn stops ⟨symbols, last, ahead eof all (t :: word :: ts)⟩ =
      pure (.again ⟨symbols ++ [.epsilon], some word, ahead eof all ts⟩) := by
  have hempty : ¬word.lexeme ≠ emptyWord := not_not_intro hempty
  simp only [symbolTurn_percent h hstop hkind, take_ahead (suffix_of_cons h) hword, pure_bind,
    if_neg hempty]

theorem symbolTurn_unexpected (h : t :: ts <:+ all) (hstop : t.kind ∉ stops)
    (hsymbol : ¬t.kind.isSymbol = true) (hkind : t.kind ≠ .percent) :
    symbolTurn stops ⟨symbols, last, ahead eof all (t :: ts)⟩ =
      .refuse (t.fault (.unexpected t.kind)) := by
  have ht : peek eof (t :: ts) = t := rfl
  simp only [symbolTurn, peek_ahead h, pure_bind, ht, if_neg hstop, if_neg hsymbol, if_neg hkind]

end

/-- The kinds that stop the cursor are those that end the symbols, and the end of the text. -/
def Stops (stops : List TokenKind) (ends : TokenKind → Bool) : Prop :=
  ∀ k, k ∈ stops ↔ ends k = true ∨ k = .eof

theorem stops_argumentStops : Stops argumentStops endsArguments := by
  intro k
  cases k <;> decide

theorem stops_headStops : Stops headStops endsHead := by
  intro k
  cases k <;> decide

theorem stops_bodyStops : Stops bodyStops endsBody := by
  intro k
  cases k <;> decide

/-- The end of the text is the only token of its kind. -/
structure Ended (eof : Token) (all : List Token) : Prop where
  eof : eof.kind = .eof
  inner : ∀ t ∈ all, t.kind ≠ .eof

theorem Ended.peek_nil_ne (h : Ended eof all) (kind : TokenKind) (hkind : .eof ≠ kind) :
    (peek eof []).kind ≠ kind := by
  intro hbad
  exact hkind (h.eof.symm.trans hbad)

theorem Ended.not_stop {stops : List TokenKind} {ends : TokenKind → Bool} (h : Ended eof all)
    (hstops : Stops stops ends) (hts : t :: ts <:+ all) (hends : ¬ends t.kind = true) :
    t.kind ∉ stops := by
  intro hstop
  rcases (hstops t.kind).1 hstop with hbad | hbad
  · exact hends hbad
  · exact h.inner t (hts.subset List.mem_cons_self) hbad

section

variable [Host] {stops : List TokenKind} {ends : TokenKind → Bool} {limit : Nat}

open Cursor

/-- The loop over symbols reads what the reader of lists reads. -/
theorem loop_symbolTurn (hended : Ended eof all) (hstops : Stops stops ends)
    (hlimit : ts.length < limit) (h : ts <:+ all) (symbols : List Symbol) (last : Option Token) :
    Run.loop (symbolTurn stops) limit ⟨symbols, last, ahead eof all ts⟩ =
      .ofExcept ((readSymbols eof ends ts).map fun r =>
        ⟨symbols ++ r.symbols, r.last.or last, ahead eof all r.rest⟩) := by
  fun_induction readSymbols eof ends ts generalizing limit symbols last with
  | case1 =>
    have hstop : (peek eof []).kind ∈ stops := (hstops _).2 (.inr hended.eof)
    rw [Run.loop_leave hlimit (symbolTurn_stop h hstop)]
    simp
  | case2 t ts hends =>
    have hstop : (peek eof (t :: ts)).kind ∈ stops := (hstops _).2 (.inl hends)
    rw [Run.loop_leave hlimit (symbolTurn_stop h hstop)]
    simp
  | case3 t ts hends hkind e he =>
    have hstop := hended.not_stop hstops h hends
    exact Run.loop_refuse hlimit (symbolTurn_literal h hstop hkind he)
  | case4 t ts hends hkind s hs e he ih =>
    have hstop := hended.not_stop hstops h hends
    rw [Run.loop_again hlimit (symbolTurn_symbol h hstop hkind hs),
      ih (Nat.lt_sub_of_add_lt hlimit) (suffix_of_cons h), he]
    rfl
  | case5 t ts hends hkind s hs r hr ih =>
    have hstop := hended.not_stop hstops h hends
    rw [Run.loop_again hlimit (symbolTurn_symbol h hstop hkind hs),
      ih (Nat.lt_sub_of_add_lt hlimit) (suffix_of_cons h), hr]
    cases hlast : r.last <;> simp [Symbols.cons, hlast]
  | case6 t hends _ hkind =>
    have hstop := hended.not_stop hstops h hends
    have hword := hended.peek_nil_ne .ident (by decide)
    rw [Run.loop_refuse hlimit (symbolTurn_noWord h hstop hkind hword), ← hended.eof]
    rfl
  | case7 t hends _ hkind word ts hident =>
    have hstop := hended.not_stop hstops h hends
    exact Run.loop_refuse hlimit (symbolTurn_noWord h hstop hkind hident)
  | case8 t hends _ hkind word ts hident hempty =>
    have hstop := hended.not_stop hstops h hends
    have hword := Decidable.not_not.1 hident
    exact Run.loop_refuse hlimit (symbolTurn_otherWord h hstop hkind hword hempty)
  | case9 t hends _ hkind word ts hident hempty e he ih =>
    have hstop := hended.not_stop hstops h hends
    have hrest : ts.length < limit - 1 := by
      simp only [List.length_cons] at hlimit
      omega
    have hword := Decidable.not_not.1 hident
    have hlexeme := Decidable.not_not.1 hempty
    rw [Run.loop_again hlimit (symbolTurn_emptyWord h hstop hkind hword hlexeme),
      ih hrest (suffix_of_cons (suffix_of_cons h)), he]
    rfl
  | case10 t hends _ hkind word ts hident hempty r hr ih =>
    have hstop := hended.not_stop hstops h hends
    have hrest : ts.length < limit - 1 := by
      simp only [List.length_cons] at hlimit
      omega
    have hword := Decidable.not_not.1 hident
    have hlexeme := Decidable.not_not.1 hempty
    rw [Run.loop_again hlimit (symbolTurn_emptyWord h hstop hkind hword hlexeme),
      ih hrest (suffix_of_cons (suffix_of_cons h)), hr]
    cases hlast : r.last <;> simp [Symbols.cons, hlast]
  | case11 t ts hends hsymbol hkind =>
    have hstop := hended.not_stop hstops h hends
    exact Run.loop_refuse hlimit (symbolTurn_unexpected h hstop hsymbol hkind)

theorem symbolsUntil_ahead (hended : Ended eof all) (hstops : Stops stops ends)
    (hlimit : all.length < limit) (h : ts <:+ all) :
    (ahead eof all ts).symbolsUntil limit stops =
      .ofExcept ((readSymbols eof ends ts).map fun r =>
        ⟨r.symbols, r.last, ahead eof all r.rest⟩) := by
  rw [symbolsUntil, loop_symbolTurn hended hstops (Nat.lt_of_le_of_lt h.length_le hlimit) h]
  simp

theorem readSymbols_suffix {ends : TokenKind → Bool} {r : Symbols}
    (h : readSymbols eof ends ts = .ok r) (hts : ts <:+ all) : r.rest <:+ all := by
  obtain ⟨taken, rfl, -⟩ := readSymbols_sound h
  exact (List.suffix_append taken r.rest).trans hts

end

/-! ## Statements -/

section

variable {percent word : Token} {statement : Statement} {anchor limit : Nat} {body : Symbols}
  {bodies : List Word} {last : Option Token}

open Cursor

theorem semicolon_ahead (hended : Ended eof all) (h : ts <:+ all) :
    (ahead eof all ts).semicolon statement anchor =
      .ofExcept ((readSemicolon eof statement anchor ts).map (ahead eof all)) := by
  unfold semicolon
  cases ts with
  | nil =>
    have hnil := hended.peek_nil_ne .semicolon (by decide)
    simp only [take?_ahead_of_ne h hnil, pure_bind, peek_ahead h]
    rfl
  | cons t ts =>
    by_cases hkind : t.kind = .semicolon
    · simp only [take?_ahead h hkind, pure_bind]
      simp [readSemicolon, hkind]
    · have hpeek : (peek eof (t :: ts)).kind ≠ .semicolon := hkind
      simp only [take?_ahead_of_ne h hpeek, pure_bind, peek_ahead h]
      simp [readSemicolon, hkind, peek]

theorem itemAt_eq (d : Directive) (arguments : List Symbol) :
    d.itemAt percent word arguments = .ofExcept (d.item percent word arguments) := by
  unfold Directive.itemAt Directive.item
  cases d with
  | head => cases arguments <;> rfl
  | terminals | nonterminals => rfl
  | _ =>
    match arguments with
    | [] => rfl
    | [s] => rfl
    | _ :: _ :: _ => rfl

theorem arrow_ahead (h : t :: ts <:+ all) (hkind : t.kind = .colon ∨ t.kind = .arrow) :
    (ahead eof all (t :: ts)).arrow = pure (ahead eof all ts) := by
  unfold arrow
  by_cases hcolon : t.kind = .colon
  · simp [take?_ahead h hcolon]
  · have harrow := hkind.resolve_left hcolon
    have hpeek : (peek eof (t :: ts)).kind ≠ .colon := hcolon
    simp [take?_ahead_of_ne h hpeek, take?_ahead h harrow]

theorem arrow_ahead_of_ne (h : ts <:+ all) (hcolon : (peek eof ts).kind ≠ .colon)
    (harrow : (peek eof ts).kind ≠ .arrow) :
    (ahead eof all ts).arrow = .refuse ((peek eof ts).fault .noArrow) := by
  unfold arrow
  simp [take?_ahead_of_ne h hcolon, take?_ahead_of_ne h harrow, peek_ahead h]

theorem finish_ahead {previous : Token} (h : last = none → previous :: ts <:+ all) :
    (⟨bodies, last, ahead eof all ts⟩ : Alternatives).finish =
      pure (bodies, last.getD previous, ahead eof all ts) := by
  unfold Alternatives.finish
  cases last with
  | none => simp only [previous_ahead (h rfl), pure_bind, Option.getD_none]
  | some t => rfl

variable [Host]

theorem directive_ahead (hended : Ended eof all) (hlimit : all.length < limit)
    (h : percent :: ts <:+ all) (hpercent : percent.kind = .percent) :
    (ahead eof all (percent :: ts)).directive limit =
      .ofExcept ((readDirective eof percent ts).map fun r => (r.1, ahead eof all r.2)) := by
  unfold directive
  simp only [take_ahead h hpercent, pure_bind]
  have hts := suffix_of_cons h
  cases ts with
  | nil =>
    have hword := hended.peek_nil_ne .ident (by decide)
    rw [take_ahead_of_ne hts hword, Run.refuse_bind]
    simp [readDirective, peek, hended.eof]
  | cons word ts =>
    by_cases hident : word.kind = .ident
    · simp only [take_ahead hts hident, pure_bind, readDirective, hident, ne_eq, not_true_eq_false,
        if_false]
      cases Directive.ofWord? word.lexeme with
      | none => rfl
      | some d =>
        have hrest := suffix_of_cons hts
        simp only [symbolsUntil_ahead hended stops_argumentStops hlimit hrest]
        cases harguments : readSymbols eof endsArguments ts with
        | error e => rfl
        | ok arguments =>
          have hafter := readSymbols_suffix harguments hrest
          simp only [Run.ofExcept_map_ok, pure_bind, semicolon_ahead hended hafter]
          cases readSemicolon eof _ _ arguments.rest with
          | error e => rfl
          | ok rest =>
            simp only [Run.ofExcept_map_ok, pure_bind, itemAt_eq]
            cases d.item percent word arguments.symbols with
            | error e => rfl
            | ok item => rfl
    · have hword : (peek eof (word :: ts)).kind ≠ .ident := hident
      rw [take_ahead_of_ne hts hword, Run.refuse_bind]
      simp [readDirective, peek, hident]

theorem bodyTurn_error (hended : Ended eof all) (hlimit : all.length < limit) (h : ts <:+ all)
    {fault : Fault} (hbody : readSymbols eof endsBody ts = .error fault) :
    bodyTurn limit ⟨bodies, last, ahead eof all ts⟩ = .refuse fault := by
  simp only [bodyTurn, symbolsUntil_ahead hended stops_bodyStops hlimit h, hbody,
    Run.ofExcept_map_error, Run.refuse_bind]

theorem bodyTurn_bar (hended : Ended eof all) (hlimit : all.length < limit) (h : ts <:+ all)
    (hbody : readSymbols eof endsBody ts = .ok body) {rest : List Token}
    (hrest : body.rest = t :: rest) (hbar : t.kind = .bar) :
    bodyTurn limit ⟨bodies, last, ahead eof all ts⟩ =
      pure (.again ⟨bodies ++ [body.symbols], body.last.or last, ahead eof all rest⟩) := by
  have hafter := readSymbols_suffix hbody h
  rw [hrest] at hafter
  simp only [bodyTurn, symbolsUntil_ahead hended stops_bodyStops hlimit h, hbody,
    Run.ofExcept_map_ok, pure_bind, hrest, take?_ahead hafter hbar]
  rfl

theorem bodyTurn_leave (hended : Ended eof all) (hlimit : all.length < limit) (h : ts <:+ all)
    (hbody : readSymbols eof endsBody ts = .ok body) (hbar : (peek eof body.rest).kind ≠ .bar) :
    bodyTurn limit ⟨bodies, last, ahead eof all ts⟩ =
      pure (.leave ⟨bodies ++ [body.symbols], body.last.or last, ahead eof all body.rest⟩) := by
  have hafter := readSymbols_suffix hbody h
  simp only [bodyTurn, symbolsUntil_ahead hended stops_bodyStops hlimit h, hbody,
    Run.ofExcept_map_ok, pure_bind, take?_ahead_of_ne hafter hbar]
  rfl

/-- Without a symbol nothing has been read. -/
theorem rest_of_last (hbody : readSymbols eof endsBody ts = .ok body) (hlast : body.last = none) :
    body.rest = ts := by
  obtain ⟨taken, rfl, htaken, -⟩ := readSymbols_last hbody
  rw [hlast, eq_comm, List.getLast?_eq_none_iff] at htaken
  rw [htaken, List.nil_append]

/-- While no body has a symbol, the token before the cursor is the arrow or the bar that was read
last: the reader of lists carries it along, and the cursor goes back to it. -/
theorem loop_bodyTurn (hended : Ended eof all) (hlimit : all.length < limit) {turns fuel : Nat}
    (hturns : ts.length < turns) (hfuel : ts.length ≤ fuel) {previous : Token}
    (h : previous :: ts <:+ all) (bodies : List Word) (last : Option Token) :
    (Run.loop (bodyTurn limit) turns ⟨bodies, last, ahead eof all ts⟩ >>=
        Alternatives.finish) =
      .ofExcept ((readBodies eof fuel previous last ts).map fun r =>
        (bodies ++ r.bodies, r.anchor, ahead eof all r.rest)) := by
  induction fuel generalizing ts turns previous bodies last with
  | zero =>
    obtain rfl := List.length_eq_zero_iff.1 (Nat.le_zero.1 hfuel)
    have hbar := hended.peek_nil_ne .bar (by decide)
    rw [Run.loop_leave hturns (bodyTurn_leave hended hlimit (suffix_of_cons h) rfl hbar), pure_bind,
      finish_ahead fun _ => h]
    rfl
  | succ fuel ih =>
    have hts := suffix_of_cons h
    unfold readBodies
    cases hbody : readSymbols eof endsBody ts with
    | error e =>
      rw [Run.loop_refuse hturns (bodyTurn_error hended hlimit hts hbody), Run.refuse_bind]
      rfl
    | ok body =>
      have hafter := readSymbols_suffix hbody hts
      have hprevious : body.last.or last = none → previous :: body.rest <:+ all := by
        intro hnone
        rw [rest_of_last hbody (Option.or_eq_none_iff.1 hnone).1]
        exact h
      simp only
      cases hrest : body.rest with
      | nil =>
        have hbar : (peek eof body.rest).kind ≠ .bar := by
          rw [hrest]
          exact hended.peek_nil_ne .bar (by decide)
        rw [Run.loop_leave hturns (bodyTurn_leave hended hlimit hts hbody hbar), pure_bind,
          finish_ahead hprevious, hrest]
        rfl
      | cons t rest =>
        simp only
        split
        · rename_i hbar
          have hlength : rest.length + 1 ≤ ts.length := by
            obtain ⟨taken, rfl, -⟩ := readSymbols_sound hbody
            simp only [hrest, List.length_append, List.length_cons]
            omega
          rw [hrest] at hafter
          rw [Run.loop_again hturns (bodyTurn_bar hended hlimit hts hbody hrest hbar),
            ih (by omega) (by omega) hafter]
          cases readBodies eof fuel t (body.last.or last) rest with
          | error e => rfl
          | ok more => simp
        · rename_i hbar
          have hpeek : (peek eof body.rest).kind ≠ .bar := by
            rw [hrest]
            exact hbar
          rw [Run.loop_leave hturns (bodyTurn_leave hended hlimit hts hbody hpeek), pure_bind,
            finish_ahead hprevious, hrest]
          rfl

theorem readBodies_suffix {fuel : Nat} {previous : Token} {last : Option Token} {r : BodyList}
    (h : readBodies eof fuel previous last ts = .ok r) (hts : ts <:+ all) : r.rest <:+ all := by
  obtain ⟨taken, rfl, -⟩ := readBodies_sound h
  exact (List.suffix_append taken r.rest).trans hts

theorem rule_ahead (hended : Ended eof all) (hlimit : all.length < limit) (h : ts <:+ all) :
    (ahead eof all ts).rule limit =
      .ofExcept ((readRule eof ts).map fun r => (r.1, ahead eof all r.2)) := by
  unfold rule readRule
  simp only [peek_ahead h, pure_bind, symbolsUntil_ahead hended stops_headStops hlimit h]
  cases hhead : readSymbols eof endsHead ts with
  | error e => rfl
  | ok head =>
    simp only [Run.ofExcept_map_ok, pure_bind]
    split
    · rfl
    have hafter := readSymbols_suffix hhead h
    cases hrest : head.rest with
    | nil =>
      have hnil : ([] : List Token) <:+ all := List.nil_suffix
      have hcolon := hended.peek_nil_ne .colon (by decide)
      have harrow := hended.peek_nil_ne .arrow (by decide)
      rw [arrow_ahead_of_ne hnil hcolon harrow]
      rfl
    | cons arrow rest =>
      rw [hrest] at hafter
      simp only
      split
      · rename_i hkind
        have hcolon : (peek eof (arrow :: rest)).kind ≠ .colon := hkind.1
        rw [arrow_ahead_of_ne hafter hcolon hkind.2]
        rfl
      rename_i hkind
      have harrow : arrow.kind = .colon ∨ arrow.kind = .arrow :=
        Decidable.or_iff_not_not_and_not.2 hkind
      rw [arrow_ahead hafter harrow, pure_bind]
      have hturns : rest.length < limit :=
        Nat.lt_of_le_of_lt (suffix_of_cons hafter).length_le hlimit
      have hbodies := loop_bodyTurn hended hlimit hturns (Nat.le_refl _) hafter [] none
      rw [← bind_assoc, hbodies]
      cases hread : readBodies eof rest.length arrow none rest with
      | error e => rfl
      | ok bodies =>
        have hend := readBodies_suffix hread (suffix_of_cons hafter)
        simp only [Run.ofExcept_map_ok, pure_bind, semicolon_ahead hended hend, List.nil_append]
        cases readSemicolon eof .rule bodies.anchor.stop bodies.rest with
        | error e => rfl
        | ok rest => rfl

theorem itemTurn_nil (hended : Ended eof all) (d : Declarations) :
    itemTurn limit ⟨d, ahead eof all []⟩ = pure (.leave ⟨d, ahead eof all []⟩) := by
  have hpeek : (peek eof []).kind = .eof := hended.eof
  simp only [itemTurn, peek_ahead List.nil_suffix, pure_bind, if_pos hpeek]

theorem itemTurn_cons (hended : Ended eof all) (hlimit : all.length < limit)
    (h : t :: ts <:+ all) (d : Declarations) :
    itemTurn limit ⟨d, ahead eof all (t :: ts)⟩ =
      .ofExcept ((readItem eof t ts).map fun r => .again ⟨d.add r.1, ahead eof all r.2⟩) := by
  have hpeek : peek eof (t :: ts) = t := rfl
  have hkind : ¬t.kind = .eof := hended.inner t (h.subset List.mem_cons_self)
  simp only [itemTurn, peek_ahead h, pure_bind, hpeek, if_neg hkind]
  unfold readItem
  split
  · rename_i hpercent
    rw [directive_ahead hended hlimit h hpercent]
    cases readDirective eof t ts with
    | error e => rfl
    | ok r => rfl
  · rw [rule_ahead hended hlimit h]
    cases readRule eof (t :: ts) with
    | error e => rfl
    | ok r => rfl

theorem Phrase.ne_nil {xs : List Sign} {item : Item} (h : Phrase xs item) : xs ≠ [] := by
  cases h <;> exact List.cons_ne_nil _ _

/-- A statement takes at least one token. -/
theorem readItem_shorter {item : Item} {rest : List Token}
    (h : readItem eof t ts = .ok (item, rest)) :
    rest <:+ t :: ts ∧ rest.length < (t :: ts).length := by
  obtain ⟨taken, htaken, -, hphrase⟩ := readItem_sound h
  have hpos : 0 < taken.length := by
    rw [← List.length_map Token.sign]
    exact List.length_pos_iff.2 hphrase.ne_nil
  rw [htaken, List.length_append]
  exact ⟨List.suffix_append taken rest, by omega⟩

theorem loop_itemTurn (hended : Ended eof all) (hlimit : all.length < limit) {turns fuel : Nat}
    (hturns : ts.length < turns) (hfuel : ts.length ≤ fuel) (h : ts <:+ all) (d : Declarations) :
    Run.loop (itemTurn limit) turns ⟨d, ahead eof all ts⟩ =
      .ofExcept ((readItems eof fuel ts).map fun items =>
        ⟨items.foldl Declarations.add d, ahead eof all []⟩) := by
  induction fuel generalizing ts turns d with
  | zero =>
    obtain rfl := List.length_eq_zero_iff.1 (Nat.le_zero.1 hfuel)
    exact Run.loop_leave hturns (itemTurn_nil hended d)
  | succ fuel ih =>
    cases ts with
    | nil => exact Run.loop_leave hturns (itemTurn_nil hended d)
    | cons t ts =>
      have hturn := itemTurn_cons hended hlimit h d
      simp only [readItems]
      cases hitem : readItem eof t ts with
      | error e =>
        rw [hitem] at hturn
        exact Run.loop_refuse hturns hturn
      | ok r =>
        obtain ⟨item, rest⟩ := r
        rw [hitem] at hturn
        obtain ⟨hsuffix, hshorter⟩ := readItem_shorter hitem
        simp only [List.length_cons] at hshorter hfuel hturns
        rw [Run.loop_again hturns hturn, ih (by omega) (by omega) (hsuffix.trans h)]
        simp only
        cases readItems eof fuel rest with
        | error e => rfl
        | ok items => rfl

end

end PhraseGrammar.Notation
