import PhraseGrammar.Proofs.Carets

/-!
# PhraseGrammar.Proofs.Semicolons

Where a semicolon is said to be missing.

* `lastSymbol?`, `anchor?`: the token behind which the message points, told from the tokens before
  the one that is found instead of the semicolon.
* `EndsBare`: the tokens end with an alternative that has no symbols, and an earlier one has some.
  Then, and only then, the message does not point behind the last of them.
* `Unfinished`: a statement that goes on to a token that is found instead of its semicolon.

The readers are followed with the tokens that are read before theirs, `done`. `readBodies_anchor` is
the loop of a rule: the token that it keeps is `lastSymbol?` of all that was read.
-/

namespace PhraseGrammar.Notation

/-- The last token that is no bar, if it is a symbol. -/
def lastSymbol? (ts : List Token) : Option Token :=
  (ts.reverse.find? fun t => t.kind != .bar).filter fun t => t.kind.isSymbol

/-- The token behind which a semicolon is said to be missing: bars at the end are passed over if a
symbol stands before them. -/
def anchor? (ts : List Token) : Option Token := (lastSymbol? ts).or ts.getLast?

/-- There are bars at the end, and a symbol stands before them. -/
def EndsBare (ts : List Token) : Prop :=
  (∃ bar, ts.getLast? = some bar ∧ bar.kind = .bar) ∧ lastSymbol? ts ≠ none

/-- A statement goes on to a token that is found instead of its semicolon, and `last` is the token
behind which the semicolon is said to be missing. -/
structure Unfinished (eof : Token) (statement : Statement) (before : List Token)
    (found last : Token) : Prop where
  anchor : anchor? before = some last
  directive : ∀ name, statement = .directive name → before.getLast? = some last
  found : found = eof ∨ statement = .rule ∧ (found.kind = .colon ∨ found.kind = .arrow)

def ReadsTo (eof : Token) (tokens : List Token) (statement : Statement) (found : Token)
    (anchor : Nat) : Prop :=
  ∃ before after last, tokens ++ [eof] = before ++ found :: after ∧ anchor = last.stop ∧
    Unfinished eof statement before found last

variable {eof : Token} {ts : List Token} {statement : Statement} {found last : Token}
  {anchor : Nat}

/-! ## Anchors -/

theorem lastSymbol?_concat_bar (ts : List Token) {bar : Token} (h : bar.kind = .bar) :
    lastSymbol? (ts ++ [bar]) = lastSymbol? ts := by
  simp [lastSymbol?, h]

theorem lastSymbol?_concat (ts : List Token) {t : Token} (h : t.kind ≠ .bar) :
    lastSymbol? (ts ++ [t]) = (some t).filter fun t => t.kind.isSymbol := by
  simp [lastSymbol?, h]

theorem lastSymbol?_concat_symbol (ts : List Token) {t : Token} (h : t.kind.isSymbol = true) :
    lastSymbol? (ts ++ [t]) = some t := by
  have hbar : t.kind ≠ .bar := by
    intro hbar
    rw [hbar] at h
    cases h
  rw [lastSymbol?_concat ts hbar, Option.filter_some, if_pos h]

theorem lastSymbol?_concat_arrow (ts : List Token) {arrow : Token}
    (h : arrow.kind = .colon ∨ arrow.kind = .arrow) : lastSymbol? (ts ++ [arrow]) = none := by
  rcases h with h | h <;> simp [lastSymbol?, h, TokenKind.isSymbol]

theorem lastSymbol?_append (done : List Token)
    (h : ∀ t ∈ ts.getLast?, t.kind.isSymbol = true) :
    lastSymbol? (done ++ ts) = ts.getLast?.or (lastSymbol? done) := by
  cases hlast : ts.getLast? with
  | none =>
    rw [List.getLast?_eq_none_iff.1 hlast, List.append_nil]
    rfl
  | some t =>
    obtain ⟨init, rfl⟩ := List.getLast?_eq_some_iff.1 hlast
    rw [← List.append_assoc, lastSymbol?_concat_symbol _ (h t hlast)]
    rfl

theorem lastSymbol?_mem {t : Token} (h : lastSymbol? ts = some t) :
    t ∈ ts ∧ t.kind.isSymbol = true := by
  obtain ⟨hfind, hsymbol⟩ := Option.filter_eq_some_iff.1 h
  exact ⟨List.mem_reverse.1 (List.mem_of_find?_eq_some hfind), hsymbol⟩

theorem anchor?_mem (h : anchor? ts = some last) : last ∈ ts := by
  rcases Option.or_eq_some_iff.1 h with hsymbol | ⟨-, hlast⟩
  · exact (lastSymbol?_mem hsymbol).1
  · exact List.mem_of_getLast? hlast

/-- The message points behind the last of the tokens unless they end bare. -/
theorem anchor?_eq_getLast?_iff (h : anchor? ts = some last) :
    ts.getLast? = some last ↔ ¬EndsBare ts := by
  constructor
  · rintro hlast ⟨⟨bar, hbar, hkind⟩, hsymbol⟩
    obtain ⟨t, ht⟩ := Option.ne_none_iff_exists'.1 hsymbol
    obtain rfl : bar = last := Option.some.inj (hbar.symm.trans hlast)
    rw [anchor?, ht] at h
    obtain rfl : t = bar := Option.some.inj h
    have hbad := (lastSymbol?_mem ht).2
    rw [hkind] at hbad
    cases hbad
  · intro hbare
    obtain ⟨t, hlast⟩ : ∃ t, ts.getLast? = some t :=
      Option.ne_none_iff_exists'.1 fun hnone =>
        List.ne_nil_of_mem (anchor?_mem h) (List.getLast?_eq_none_iff.1 hnone)
    by_cases hkind : t.kind = .bar
    · have hnone : lastSymbol? ts = none := by
        by_contra hsome
        exact hbare ⟨⟨t, hlast, hkind⟩, hsome⟩
      rw [anchor?, hnone] at h
      exact h
    · obtain ⟨init, rfl⟩ := List.getLast?_eq_some_iff.1 hlast
      rw [anchor?, lastSymbol?_concat init hkind, hlast, Option.filter_some] at h
      rw [hlast, ← h]
      split <;> rfl

theorem anchor?_append {done : List Token} {previous : Token}
    (hprevious : done.getLast? = some previous)
    (hsymbol : ∀ t ∈ ts.getLast?, t.kind.isSymbol = true) :
    anchor? (done ++ ts) = some ((ts.getLast?.or (lastSymbol? done)).getD previous) := by
  rw [anchor?, lastSymbol?_append done hsymbol]
  cases hlast : ts.getLast? with
  | some t => rfl
  | none =>
    rw [List.getLast?_eq_none_iff.1 hlast, List.append_nil, hprevious]
    cases lastSymbol? done <;> rfl

/-! ## Symbols -/

theorem Token.isSymbol_of_ident {t : Token} (h : t.kind = .ident) : t.kind.isSymbol = true := by
  rw [h]
  rfl

theorem isSymbol_getLast?_cons {t : Token} (ht : t.kind.isSymbol = true)
    (h : ∀ u ∈ ts.getLast?, u.kind.isSymbol = true) :
    ∀ u ∈ (t :: ts).getLast?, u.kind.isSymbol = true := by
  rw [List.getLast?_cons]
  cases hlast : ts.getLast? with
  | none =>
    rintro u ⟨⟩
    exact ht
  | some last =>
    rintro _ ⟨⟩
    exact h _ hlast

section

variable [Host]

theorem readSymbols_last {ends : TokenKind → Bool} {r : Symbols}
    (h : readSymbols eof ends ts = .ok r) :
    ∃ taken, ts = taken ++ r.rest ∧ r.last = taken.getLast? ∧
      (∀ t ∈ taken.getLast?, t.kind.isSymbol = true) ∧
      ∀ t ∈ r.rest.head?, ends t.kind = true := by
  fun_induction readSymbols eof ends ts generalizing r with
  | case1 => cases h; exact ⟨[], rfl, rfl, by simp, by simp⟩
  | case2 t rest hends => cases h; exact ⟨[], rfl, rfl, by simp, head?_ends hends⟩
  | case3 => cases h
  | case4 => cases h
  | case5 t rest _ hkind s _ ss hss ih =>
    cases h
    obtain ⟨taken, hrest, hlast, hsymbol, hends⟩ := ih hss
    refine ⟨t :: taken, by rw [hrest]; rfl, ?_, isSymbol_getLast?_cons hkind hsymbol, hends⟩
    rw [List.getLast?_cons, ← hlast]
    rfl
  | case6 => cases h
  | case7 => cases h
  | case8 => cases h
  | case9 => cases h
  | case10 t _ _ _ word rest hident _ ss hss ih =>
    cases h
    obtain ⟨taken, hrest, hlast, hsymbol, hends⟩ := ih hss
    have hword := Token.isSymbol_of_ident (Decidable.not_not.1 hident)
    refine ⟨t :: word :: taken, by rw [hrest]; rfl, ?_, ?_, hends⟩
    · rw [List.getLast?_cons_cons, List.getLast?_cons, ← hlast]
      rfl
    · rw [List.getLast?_cons_cons]
      exact isSymbol_getLast?_cons hword hsymbol
  | case11 => cases h

theorem readSymbols_ne_missing (eof : Token) (ends : TokenKind → Bool) (ts : List Token) :
    readSymbols eof ends ts ≠ .error (.missingSemicolon statement found anchor) := by
  fun_induction readSymbols eof ends ts with
  | case3 t rest _ _ e he =>
    rintro ⟨⟩
    obtain ⟨_, hliteral, -⟩ := Token.literal_of_symbol he
    cases hliteral
  | case4 t rest _ _ s _ e he ih =>
    rintro ⟨⟩
    exact ih he
  | case9 t _ _ _ word rest _ _ e he ih =>
    rintro ⟨⟩
    exact ih he
  | _ =>
    intro h
    cases h

end

/-! ## Statements -/

theorem readsTo_of_readSemicolon {done : List Token} {wanted : Statement}
    (h : readSemicolon eof wanted last.stop ts =
      .error (.missingSemicolon statement found anchor))
    (hanchor : anchor? done = some last)
    (hdirective : ∀ name, wanted = .directive name → done.getLast? = some last)
    (hends : ∀ t ∈ ts.head?, t.kind = .semicolon ∨
      wanted = .rule ∧ (t.kind = .colon ∨ t.kind = .arrow)) :
    ReadsTo eof (done ++ ts) statement found anchor := by
  unfold readSemicolon at h
  split at h
  · cases h
    exact ⟨done, [], last, by rw [List.append_nil], rfl, hanchor, hdirective, .inl rfl⟩
  · rename_i t rest
    split at h
    · cases h
    · rename_i hkind
      cases h
      refine ⟨done, rest ++ [eof], last, ?_, rfl, hanchor, hdirective, .inr ?_⟩
      · rw [List.append_assoc, List.cons_append]
      · exact (hends _ rfl).resolve_left hkind

theorem Directive.item_ne_missing (percent word : Token) (d : Directive)
    (arguments : List Symbol) :
    d.item percent word arguments ≠ .error (.missingSemicolon statement found anchor) := by
  intro h
  cases d with
  | terminals | nonterminals => cases h
  | head | name | id | start =>
    simp only [item] at h
    split at h <;> cases h
  | type =>
    simp only [item] at h
    split at h
    · simp only [itemOfValue] at h
      split at h <;> cases h
    · cases h

section

variable [Host]

theorem readDirective_missing {percent : Token}
    (h : readDirective eof percent ts = .error (.missingSemicolon statement found anchor)) :
    ∃ word rest arguments, ts = word :: rest ∧ word.kind = .ident ∧
      readSymbols eof endsArguments rest = .ok arguments ∧
      readSemicolon eof (.directive word.lexeme) (arguments.last.getD word).stop arguments.rest =
        .error (.missingSemicolon statement found anchor) := by
  unfold readDirective at h
  split at h
  · cases h
  rename_i word rest
  split at h
  · cases h
  rename_i hident
  split at h
  · cases h
  split at h
  · rename_i e he
    cases h
    exact absurd he (readSymbols_ne_missing _ _ _)
  rename_i arguments harguments
  simp only at h
  split at h
  · rename_i e he
    cases h
    exact ⟨word, rest, arguments, rfl, Decidable.not_not.1 hident, harguments, he⟩
  split at h
  · rename_i e he
    cases h
    exact absurd he (Directive.item_ne_missing _ _ _ _)
  · cases h

theorem readsTo_of_readDirective {done : List Token} {percent : Token}
    (h : readDirective eof percent ts = .error (.missingSemicolon statement found anchor)) :
    ReadsTo eof (done ++ percent :: ts) statement found anchor := by
  obtain ⟨word, rest, arguments, rfl, hident, harguments, hsemicolon⟩ := readDirective_missing h
  obtain ⟨taken, rfl, hlast, hsymbol, hends⟩ := readSymbols_last harguments
  have hgetLast : (word :: taken).getLast? = some (arguments.last.getD word) := by
    rw [List.getLast?_cons, hlast]
  have hsymbols := isSymbol_getLast?_cons (Token.isSymbol_of_ident hident) hsymbol
  have hanchor : anchor? (done ++ [percent] ++ word :: taken) =
      some (arguments.last.getD word) := by
    rw [anchor?, lastSymbol?_append _ hsymbols, hgetLast]
    rfl
  have hreads := readsTo_of_readSemicolon hsemicolon hanchor (fun _ _ => ?_) fun t ht => .inl ?_
  · simpa using hreads
  · rw [List.getLast?_append, hgetLast]
    rfl
  · exact beq_iff_eq.1 (hends t ht)

/-- Bodies are read up to a token that may not follow them; what they keep is the anchor of all that
was taken since the arrow. -/
theorem readBodies_anchor {fuel : Nat} {done : List Token} {previous : Token}
    {kept : Option Token} {r : BodyList} (hfuel : ts.length ≤ fuel)
    (hprevious : done.getLast? = some previous) (hkept : kept = lastSymbol? done)
    (h : readBodies eof fuel previous kept ts = .ok r) :
    ∃ taken, ts = taken ++ r.rest ∧ anchor? (done ++ taken) = some r.anchor ∧
      ∀ t ∈ r.rest.head?, endsHead t.kind = true := by
  induction fuel generalizing done previous kept ts r with
  | zero =>
    obtain rfl := List.length_eq_zero_iff.1 (Nat.le_zero.1 hfuel)
    cases h
    refine ⟨[], rfl, ?_, by simp⟩
    rw [hkept]
    exact anchor?_append hprevious (by simp)
  | succ fuel ih =>
    unfold readBodies at h
    split at h
    · cases h
    rename_i body hbody
    obtain ⟨taken, rfl, hlast, hsymbol, hends⟩ := readSymbols_last hbody
    have hanchor := anchor?_append hprevious hsymbol
    rw [← hlast, ← hkept] at hanchor
    simp only at h
    cases hafter : body.rest with
    | nil =>
      rw [hafter] at h
      cases h
      exact ⟨taken, rfl, hanchor, by simp⟩
    | cons t rest =>
      rw [hafter] at h hends hfuel
      simp only at h
      split at h
      · rename_i hbar
        split at h
        · cases h
        rename_i more hmore
        cases h
        have hlength : rest.length ≤ fuel := by
          simp only [List.length_append, List.length_cons] at hfuel
          omega
        have hdone : (done ++ taken ++ [t]).getLast? = some t := List.getLast?_concat
        have hmoreKept : body.last.or kept = lastSymbol? (done ++ taken ++ [t]) := by
          rw [lastSymbol?_concat_bar _ hbar, lastSymbol?_append done hsymbol, hlast, hkept]
        obtain ⟨others, hothers, hanchor, hends⟩ := ih hlength hdone hmoreKept hmore
        refine ⟨taken ++ t :: others, ?_, ?_, hends⟩
        · rw [hothers]
          simp
        · simpa using hanchor
      · rename_i hbar
        cases h
        refine ⟨taken, rfl, hanchor, ?_⟩
        intro u hu
        cases hu
        have hend := hends t rfl
        rw [endsBody, Bool.or_eq_true] at hend
        exact hend.resolve_left fun hbad => hbar (beq_iff_eq.1 hbad)

theorem readBodies_ne_missing (eof : Token) (fuel : Nat) (previous : Token) (kept : Option Token)
    (ts : List Token) : readBodies eof fuel previous kept ts ≠
      .error (.missingSemicolon statement found anchor) := by
  induction fuel generalizing previous kept ts with
  | zero =>
    intro h
    unfold readBodies at h
    split at h
    · rename_i e he
      cases h
      exact readSymbols_ne_missing _ _ _ he
    · cases h
  | succ fuel ih =>
    intro h
    unfold readBodies at h
    split at h
    · rename_i e he
      cases h
      exact readSymbols_ne_missing _ _ _ he
    rename_i body _
    simp only at h
    cases hafter : body.rest with
    | nil =>
      rw [hafter] at h
      cases h
    | cons t rest =>
      rw [hafter] at h
      simp only at h
      split at h
      · split at h
        · rename_i e he
          cases h
          exact ih _ _ _ he
        · cases h
      · cases h

theorem readRule_missing
    (h : readRule eof ts = .error (.missingSemicolon statement found anchor)) :
    ∃ head arrow rest bodies, readSymbols eof endsHead ts = .ok head ∧
      head.rest = arrow :: rest ∧ (arrow.kind = .colon ∨ arrow.kind = .arrow) ∧
      readBodies eof rest.length arrow none rest = .ok bodies ∧
      readSemicolon eof .rule bodies.anchor.stop bodies.rest =
        .error (.missingSemicolon statement found anchor) := by
  unfold readRule at h
  split at h
  · rename_i e he
    cases h
    exact absurd he (readSymbols_ne_missing _ _ _)
  rename_i head hhead
  split at h
  · cases h
  cases hafter : head.rest with
  | nil =>
    rw [hafter] at h
    cases h
  | cons arrow rest =>
    rw [hafter] at h
    simp only at h
    split at h
    · cases h
    rename_i harrow
    split at h
    · rename_i e he
      cases h
      exact absurd he (readBodies_ne_missing _ _ _ _ _)
    rename_i bodies hbodies
    split at h
    · rename_i e he
      cases h
      exact ⟨head, arrow, rest, bodies, hhead, hafter, Decidable.or_iff_not_not_and_not.2 harrow,
        hbodies, he⟩
    · cases h

theorem readsTo_of_readRule {done : List Token}
    (h : readRule eof ts = .error (.missingSemicolon statement found anchor)) :
    ReadsTo eof (done ++ ts) statement found anchor := by
  obtain ⟨head, arrow, rest, bodies, hhead, hrest, harrow, hbodies, hsemicolon⟩ :=
    readRule_missing h
  obtain ⟨taken, rfl, -⟩ := readSymbols_last hhead
  have hdone : (done ++ taken ++ [arrow]).getLast? = some arrow := List.getLast?_concat
  have hkept : none = lastSymbol? (done ++ taken ++ [arrow]) :=
    (lastSymbol?_concat_arrow _ harrow).symm
  obtain ⟨others, rfl, hanchor, hends⟩ := readBodies_anchor (Nat.le_refl _) hdone hkept hbodies
  rw [hrest]
  have hreads := readsTo_of_readSemicolon hsemicolon hanchor (by simp) fun t ht => ?_
  · simpa using hreads
  · have hend := hends t ht
    simp only [endsHead, Bool.or_eq_true, beq_iff_eq] at hend
    exact hend.elim (fun hhead => .inr ⟨rfl, hhead⟩) .inl

theorem readsTo_of_readItem {done : List Token} {t : Token}
    (h : readItem eof t ts = .error (.missingSemicolon statement found anchor)) :
    ReadsTo eof (done ++ t :: ts) statement found anchor := by
  unfold readItem at h
  split at h
  · exact readsTo_of_readDirective h
  · exact readsTo_of_readRule h

theorem readsTo_of_readItems {done : List Token} {fuel : Nat}
    (h : readItems eof fuel ts = .error (.missingSemicolon statement found anchor)) :
    ReadsTo eof (done ++ ts) statement found anchor := by
  induction fuel generalizing done ts with
  | zero =>
    cases ts with
    | nil => cases h
    | cons t ts => cases h
  | succ fuel ih =>
    cases ts with
    | nil => cases h
    | cons t ts =>
      simp only [readItems] at h
      split at h
      · rename_i e he
        cases h
        exact readsTo_of_readItem he
      · rename_i item rest hitem
        obtain ⟨taken, hrest, -⟩ := readItem_sound hitem
        rw [hrest, ← List.append_assoc]
        split at h
        · rename_i e he
          cases h
          exact ih he
        · cases h

end

/-! ## Messages -/

variable {source : List Char}

/-- A token may hold line ends, but it does not end with one. -/
theorem Shape.ending {kind : TokenKind} {cs : List Char} (h : Shape (some kind) cs) :
    ∃ init c, cs = init ++ [c] ∧ c ≠ '\n' := by
  have hne := h.ne_nil
  cases h with
  | arrow => exact ⟨['-'], '>', rfl, by decide⟩
  | doubleQuoted => exact ⟨_ :: _, '"', rfl, by decide⟩
  | singleQuoted => exact ⟨_ :: _, '\'', rfl, by decide⟩
  | percent | arrowSign | colon | semicolon | bar | epsilon => exact ⟨[], _, rfl, by decide⟩
  | ident hident _ =>
    refine ⟨cs.dropLast, cs.getLast hne, (List.dropLast_concat_getLast hne).symm, ?_⟩
    intro hline
    exact absurd (not_control_of_isIdent hident (hline ▸ List.getLast_mem hne)) (by decide)

/-- The mark behind a token stands on the line of its last character, in the next column. -/
theorem Scan.Exact.pictures_behind {s : Scan} (h : s.Exact source) {t : Token}
    (ht : t ∈ s.tokens) :
    ∃ place : Position, place.In source ∧ place.offset + 1 = t.stop ∧
      Pictures source place.line (place.column + 1) (caret source t.stop) := by
  obtain ⟨init, c, hlexeme, hc⟩ := (h.tokens.longest t ht).shape.ending
  have hdrop : source.drop t.position.offset = t.lexeme ++ source.drop t.stop := by
    rw [h.tokens.lexeme t ht, extract_append_drop source (Nat.le_of_lt (h.tokens.nonempty t ht))]
  rw [hlexeme, List.append_assoc] at hdrop
  have hplace := (h.tokens.position t ht).advance hdrop
  have hstop : (t.position.advance init).offset + 1 = t.stop := by
    rw [Position.offset_advance, Token.stop, hlexeme, List.length_append]
    rfl
  refine ⟨t.position.advance init, hplace, hstop, ?_⟩
  have hlast : source.drop (t.position.advance init).offset = [c] ++ source.drop t.stop := by
    rw [Position.offset_advance]
    exact drop_of_drop hdrop
  have hbehind := hplace.advance hlast
  rw [Position.advance_of_notMem _ (by simpa using Ne.symm hc)] at hbehind
  have hpictures := hbehind.pictures
  rw [List.length_singleton, hstop] at hpictures
  exact hpictures

theorem Fault.message_missingSemicolon (text : List Char) (statement : Statement) (found : Token)
    (anchor : Nat) :
    Fault.message text (.missingSemicolon statement found anchor) =
      "Missing ';' after " ++ statement.text ++ " (semicolon is mandatory).\n" ++
        "- Found: " ++ found.kind.name ++ " at " ++ toString found.position.line ++ ":" ++
          toString found.position.column ++ "\n" ++
        "- Example: " ++ statement.sample ++ "\n\n" ++ caret text anchor := by
  unfold Fault.message Position.text
  simp only [Text.ofString_append, List.append_assoc]

section

variable [Host]

theorem readsTo_of_parse {source : String} {givenId : Option Text} {freshId : Text}
    {e : ParseError} (h : parse source givenId freshId = .error e)
    (hfault : e.fault = .missingSemicolon statement found anchor) :
    ∃ s, scan source.toList = .ok s ∧ ReadsTo s.eof s.tokens statement found anchor := by
  rcases (fault_of_parse h).2 with hdeclarations | hstart
  · rw [hfault] at hdeclarations
    rcases error_of_declarations hdeclarations with ⟨_, -, hscan⟩ | ⟨s, hscan, hread⟩
    · cases hscan
    · have hreads : ReadsTo s.eof ([] ++ s.tokens) statement found anchor :=
        readsTo_of_readItems hread
      exact ⟨s, hscan, hreads⟩
  · rw [hfault] at hstart
    cases hstart

end

/-- A message names the token that is found instead of a semicolon, and marks the column behind the
last character of another token, on the line of that character. -/
def PointsBehind (source : List Char) (statement : Statement) (found last : Token)
    (message : Text) : Prop :=
  ∃ (place : Position) (picture : String), place.In source ∧ place.offset + 1 = last.stop ∧
    Pictures source place.line (place.column + 1) picture ∧
    message = "Missing ';' after " ++ statement.text ++ " (semicolon is mandatory).\n" ++
      "- Found: " ++ found.kind.name ++ " at " ++ toString found.position.line ++ ":" ++
        toString found.position.column ++ "\n" ++
      "- Example: " ++ statement.sample ++ "\n\n" ++ picture

section

variable [Host]

/-- **Missing semicolons.** The message names the token at which the statement breaks off and points
behind the token before it, on the line where that one ends, unless the last alternatives of a rule
have no symbols and an earlier one has: then it points behind the last symbol, before all the bars.
-/
theorem points_behind_of_parse {source : String} {givenId : Option Text} {freshId : Text}
    {e : ParseError} (h : parse source givenId freshId = .error e)
    (hfault : e.fault = .missingSemicolon statement found anchor) :
    ∃ s before after last, scan source.toList = .ok s ∧
      s.tokens ++ [s.eof] = before ++ found :: after ∧
      Unfinished s.eof statement before found last ∧
      (before.getLast? = some last ↔ ¬EndsBare before) ∧
      found.position.In source.toList ∧
      PointsBehind source.toList statement found last e.message := by
  obtain ⟨s, hscan, before, after, last, hsplit, rfl, hunfinished⟩ := readsTo_of_parse h hfault
  have hexact := exact_of_scan_ok hscan
  have hfound : found ∈ s.tokens ++ [s.eof] := by
    rw [hsplit]
    exact List.mem_append_right before List.mem_cons_self
  have hlast : last ∈ s.tokens := by
    have hinit := congrArg List.dropLast hsplit
    rw [List.dropLast_concat, List.dropLast_append_cons] at hinit
    rw [hinit]
    exact List.mem_append_left _ (anchor?_mem hunfinished.anchor)
  obtain ⟨place, hplace, hstop, hpictures⟩ := hexact.pictures_behind hlast
  refine ⟨s, before, after, last, hscan, hsplit, hunfinished,
    anchor?_eq_getLast?_iff hunfinished.anchor, hexact.position hfound, place, _, hplace, hstop,
    hpictures, ?_⟩
  rw [ParseError.message, hfault, (fault_of_parse h).1]
  exact Fault.message_missingSemicolon source.toList statement found last.stop

end

section

open scoped Host

/-- The last symbol goes over a line end, and a comment stands between it and what is found. -/
def secondColonText : String := "A : 'x\\\ny' /* z */\n: b ;"

def secondColon : Token := ⟨.colon, [':'], ⟨19, 3, 1⟩⟩

theorem points_behind_secondColon :
    ∃ e last, parse secondColonText none = .error e ∧
      e.fault = .missingSemicolon .rule secondColon 10 ∧
      PointsBehind secondColonText.toList .rule secondColon last e.message := by
  have hparse : parse secondColonText none =
      .error ⟨secondColonText.toList, .missingSemicolon .rule secondColon 10⟩ :=
    eq_error_of_error? (by decide +kernel)
  obtain ⟨_, _, _, last, -, -, -, -, -, hpoints⟩ := points_behind_of_parse hparse rfl
  exact ⟨_, last, hparse, rfl, hpoints⟩

def bareAlternativeText : String := "A : a |"

/-- The mark does not always stand behind the token before the one that is found. -/
theorem not_points_behind_last :
    ¬∀ (source : String) (e : ParseError) (statement : Statement) (found : Token) (anchor : Nat)
      (s : Scan) (before after : List Token) (last : Token),
      parse source none = .error e → e.fault = .missingSemicolon statement found anchor →
      scan source.toList = .ok s → s.tokens ++ [s.eof] = before ++ last :: found :: after →
      PointsBehind source.toList statement found last e.message := by
  intro hall
  have hparse : parse bareAlternativeText none =
      .error ⟨bareAlternativeText.toList, .missingSemicolon .rule ⟨.eof, [], ⟨7, 1, 8⟩⟩ 5⟩ :=
    eq_error_of_error? (by decide +kernel)
  have hscan : scan bareAlternativeText.toList = .ok
      ⟨[⟨.ident, ['A'], ⟨0, 1, 1⟩⟩, ⟨.colon, [':'], ⟨2, 1, 3⟩⟩, ⟨.ident, ['a'], ⟨4, 1, 5⟩⟩,
        ⟨.bar, ['|'], ⟨6, 1, 7⟩⟩], ⟨7, 1, 8⟩⟩ :=
    eq_ok_of_toOption (by decide +kernel)
  obtain ⟨⟨offset, line, column⟩, picture, hplace, hstop, ⟨-, -, text, htext, rfl⟩, hmessage⟩ :=
    hall _ _ _ _ _ _ [_, _, _] [] _ hparse rfl hscan rfl
  obtain rfl : offset = 6 := Nat.succ.inj hstop
  obtain rfl : line = 1 := hplace.line
  obtain rfl : column = 7 := hplace.column
  obtain rfl : bareAlternativeText.toList = text := Option.some.inj htext
  revert hmessage
  decide +kernel

end

end PhraseGrammar.Notation
