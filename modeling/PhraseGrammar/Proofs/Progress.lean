import PhraseGrammar.Proofs.Ahead
import PhraseGrammar.Proofs.Scanning

/-!
# PhraseGrammar.Proofs.Progress

The reader with a cursor comes to an end, and what it asks for is there.

* `loop_scanTurn`: the loop over the text finds what the scanner finds.
* `startAt_eq`: the first symbol of the first head is there when it is asked for.
* `parseWithCursor_eq`: the reader with a cursor and the reader of lists give the same.
* `Progresses`: a turn of a loop takes something, or leaves the loop, or refuses.

`safelyRead` puts together how the reading of a text goes and how it may end.
-/

namespace PhraseGrammar.Notation

/-! ## Texts -/

section

variable {source : List Char}

theorem scanTurn_nil {s : Scanning} (h : source.drop s.position.offset = []) :
    scanTurn source s = pure (.leave s) := by
  simp only [scanTurn, h]

theorem scanTurn_none {s : Scanning} {c : Char} {rest : List Char}
    (h : source.drop s.position.offset = c :: rest) (hnone : Lexeme.first? c rest = none) :
    scanTurn source s = .refuse (.scan ⟨c, s.position⟩) := by
  have hchar : source[s.position.offset]? = some c := by
    rw [← List.head?_drop, h]
    rfl
  simp only [scanTurn, h, hnone, hchar]
  rfl

theorem scanTurn_some {s : Scanning} {c : Char} {rest : List Char} {l : Lexeme}
    (h : source.drop s.position.offset = c :: rest) (hl : Lexeme.first? c rest = some l) :
    scanTurn source s =
      pure (.again ⟨s.tokens ++ l.tokensAt s.position, s.position.advance l.chars⟩) := by
  simp only [scanTurn, h, hl]

/-- The loop over the text finds what the scanner finds. -/
theorem loop_scanTurn {turns fuel : Nat} {cs : List Char} {p : Position}
    (hcs : source.drop p.offset = cs) (hturns : cs.length < turns) (hfuel : cs.length ≤ fuel)
    (ts : List Token) :
    Run.loop (scanTurn source) turns ⟨ts, p⟩ =
      .ofExcept (((scanFrom p fuel cs).mapError Fault.scan).map fun s =>
        ⟨ts ++ s.tokens, s.ending⟩) := by
  induction fuel generalizing turns cs p ts with
  | zero =>
    obtain rfl := List.length_eq_zero_iff.1 (Nat.le_zero.1 hfuel)
    rw [Run.loop_leave hturns (scanTurn_nil hcs)]
    simp [scanFrom, Except.mapError]
  | succ fuel ih =>
    cases cs with
    | nil =>
      rw [Run.loop_leave hturns (scanTurn_nil hcs)]
      simp [scanFrom, Except.mapError]
    | cons c rest =>
      simp only [scanFrom]
      cases hl : Lexeme.first? c rest with
      | none => exact Run.loop_refuse hturns (scanTurn_none hcs hl)
      | some l =>
        have hshorter := Lexeme.length_rest_of_first? hl
        have hcount := hturns
        rw [List.length_cons] at hfuel hcount
        rw [Run.loop_again hturns (scanTurn_some hcs hl),
          ih (stretch_of_first? hcs hl).2 (by omega) (by omega)]
        simp only
        cases scanFrom (p.advance l.chars) fuel l.rest with
        | error e => rfl
        | ok s => cases hkind : l.kind <;> simp [Except.mapError, Lexeme.tokensAt, hkind]

end

section

variable {source : String} {givenId : Option Text} {freshId : Text}

theorem startAt_eq {d : Declarations} (hheads : ∀ r ∈ d.rules, r.1 ≠ []) :
    d.startAt = .ofExcept (match d.startSymbol? with
      | some s => .ok s
      | none => .error .noStart) := by
  unfold Declarations.startAt Declarations.startSymbol?
  cases d.start with
  | some s => rfl
  | none =>
    cases hrules : d.rules with
    | nil => rfl
    | cons r rules =>
      have hhead := hheads r (hrules ▸ List.mem_cons_self)
      obtain ⟨s, word, hword⟩ := List.exists_cons_of_ne_nil hhead
      simp [Run.require, hword]

theorem startAt_bind {d : Declarations} (hheads : ∀ r ∈ d.rules, r.1 ≠ []) :
    (d.startAt >>= fun start =>
      Run.ofExcept ({ d with start := some start }.grammar givenId freshId)) =
      .ofExcept (d.grammar givenId freshId) := by
  rw [startAt_eq hheads]
  cases hstart : d.startSymbol? with
  | none => simp [Declarations.grammar, hstart]
  | some s =>
    have hgrammar : { d with start := some s }.grammar givenId freshId =
        d.grammar givenId freshId := by
      have hstart' : { d with start := some s }.startSymbol? = some s := rfl
      simp only [Declarations.grammar, hstart, hstart']
      rfl
    simp only [Run.ofExcept_ok, pure_bind, hgrammar]

theorem Scan.Exact.ended {source : List Char} {s : Scan} (h : s.Exact source) :
    Ended s.eof s.tokens := ⟨h.eof.1, h.noEof⟩

theorem Scans.length_le {cs : List Char} {signs : List Sign} (h : Scans cs signs) :
    signs.length ≤ cs.length := by
  induction h with
  | nil => exact Nat.le_refl _
  | skip hl _ _ ih | sign hl _ _ ih =>
    have hshorter := Lexeme.length_rest_of_first? hl
    simp only [List.length_cons]
    omega

theorem length_tokens_le {cs : List Char} {s : Scan} (h : scan cs = .ok s) :
    s.tokens.length ≤ cs.length := by
  have hle := (scans_of_scanFrom h).length_le
  rwa [List.length_map] at hle

variable [Host]

theorem head_ne_nil_of_readItems {eof : Token} {fuel : Nat} {ts : List Token} {items : List Item}
    (h : readItems eof fuel ts = .ok items) :
    ∀ r ∈ (Declarations.ofItems items).rules, r.1 ≠ [] := by
  intro r hr
  rw [Declarations.ofItems_eq] at hr
  exact (readItems_sound h).2.head_ne_nil (Item.mem_rules.1 hr)

/-- The reader with a cursor gives what the reader of lists gives. -/
theorem parseWithCursor_eq {limit : Nat} (hlimit : source.toList.length < limit)
    (givenId : Option Text) (freshId : Text) :
    parseWithCursor limit source givenId freshId =
      .ofExcept ((parse source givenId freshId).mapError ParseError.fault) := by
  unfold parseWithCursor parse declarations items
  have hscan : Run.loop (scanTurn source.toList) limit ⟨[], .start⟩ =
      .ofExcept (((scan source.toList).mapError Fault.scan).map fun s =>
        ⟨[] ++ s.tokens, s.ending⟩) := loop_scanTurn rfl hlimit (Nat.le_refl _) []
  rw [hscan]
  cases hs : scan source.toList with
  | error e => rfl
  | ok s =>
    have hended := (exact_of_scan_ok hs).ended
    have hturns := Nat.lt_of_le_of_lt (length_tokens_le hs) hlimit
    have hcursor : (⟨s.tokens ++ [s.eof], 0⟩ : Cursor) = .ahead s.eof s.tokens s.tokens := by
      rw [Cursor.ahead, Nat.sub_self]
    have hread := loop_itemTurn hended hturns hturns (Nat.le_refl _) (List.suffix_refl s.tokens)
      .none
    rw [← hcursor] at hread
    simp only [Except.mapError, Run.ofExcept_map_ok, pure_bind, List.nil_append]
    rw [show (⟨.eof, [], s.ending⟩ : Token) = s.eof from rfl, hread]
    cases hitems : readItems s.eof s.tokens.length s.tokens with
    | error e => rfl
    | ok its =>
      have hheads := head_ne_nil_of_readItems hitems
      simp only [Run.ofExcept_map_ok, pure_bind]
      refine (startAt_bind hheads).trans ?_
      cases (Declarations.ofItems its).grammar givenId freshId <;> rfl

end

/-! ## Turns -/

/-- How a turn of a loop may end that begins in a state: something is refused, or the loop is left,
or it goes on from a place further on. -/
inductive Progresses {σ : Type} (inside : σ → Prop) (place : σ → Nat) (s : σ) :
    Run (Turn σ) → Prop where
  | refused (fault : Fault) : Progresses inside place s (.refuse fault)
  | left {s' : σ} : inside s' → place s ≤ place s' → Progresses inside place s (pure (.leave s'))
  | moved {s' : σ} : inside s' → place s < place s' → Progresses inside place s (pure (.again s'))

namespace Cursor

/-- The cursor stands at a token of a scan, the end of the text included. -/
structure Over (s : Scan) (c : Cursor) : Prop where
  tokens : c.tokens = s.tokens ++ [s.eof]
  index : c.index ≤ s.tokens.length

theorem over_ahead (s : Scan) (ts : List Token) : (ahead s.eof s.tokens ts).Over s :=
  ⟨rfl, Nat.sub_le _ _⟩

theorem Over.eq_ahead {s : Scan} {c : Cursor} (h : c.Over s) :
    ∃ ts, ts <:+ s.tokens ∧ c = ahead s.eof s.tokens ts := by
  obtain ⟨tokens, index⟩ := c
  obtain ⟨rfl, hindex⟩ := h
  refine ⟨s.tokens.drop index, List.drop_suffix index s.tokens, ?_⟩
  rw [ahead, List.length_drop, Nat.sub_sub_self hindex]

theorem index_ahead_le {eof : Token} {all ts rest : List Token} (h : rest.length ≤ ts.length) :
    (ahead eof all ts).index ≤ (ahead eof all rest).index := Nat.sub_le_sub_left h _

theorem index_ahead_lt {eof : Token} {all ts rest : List Token} (h : ts <:+ all)
    (hlength : rest.length < ts.length) :
    (ahead eof all ts).index < (ahead eof all rest).index := by
  have hle := h.length_le
  simp only [ahead]
  omega

end Cursor

theorem scanTurn_progresses {source : List Char} {s : Scanning}
    (hs : s.position.offset ≤ source.length) :
    Progresses (fun s => s.position.offset ≤ source.length) (fun s => s.position.offset) s
      (scanTurn source s) := by
  cases hcs : source.drop s.position.offset with
  | nil =>
    rw [scanTurn_nil hcs]
    exact .left hs (Nat.le_refl _)
  | cons c rest =>
    cases hl : Lexeme.first? c rest with
    | none =>
      rw [scanTurn_none hcs hl]
      exact .refused _
    | some l =>
      rw [scanTurn_some hcs hl]
      have hpos := List.length_pos_iff.2 (Lexeme.chars_ne_nil_of_first? hl)
      have hlength := congrArg List.length hcs
      rw [← Lexeme.append_of_first? hl, List.length_drop, List.length_append] at hlength
      refine .moved ?_ ?_ <;> simp only [Position.offset_advance] <;> omega

section

variable [Host] {s : Scan} {limit : Nat}

theorem symbolTurn_progresses (hended : Ended s.eof s.tokens) {stops : List TokenKind}
    (hstops : .eof ∈ stops) {g : Gathering} (hg : g.cursor.Over s) :
    Progresses (fun g => g.cursor.Over s) (fun g => g.cursor.index) g (symbolTurn stops g) := by
  obtain ⟨symbols, last, c⟩ := g
  obtain ⟨ts, hts, rfl⟩ := hg.eq_ahead
  by_cases hstop : (peek s.eof ts).kind ∈ stops
  · rw [symbolTurn_stop hts hstop]
    exact .left hg (Nat.le_refl _)
  cases ts with
  | nil =>
    have hpeek : (peek s.eof []).kind = .eof := hended.eof
    exact absurd (hpeek ▸ hstops) hstop
  | cons t ts =>
    have hstop : t.kind ∉ stops := hstop
    by_cases hsymbol : t.kind.isSymbol = true
    · cases hs : t.symbol with
      | error fault =>
        rw [symbolTurn_literal hts hstop hsymbol hs]
        exact .refused fault
      | ok symbol =>
        rw [symbolTurn_symbol hts hstop hsymbol hs]
        exact .moved (Cursor.over_ahead s ts) (Cursor.index_ahead_lt hts (Nat.lt_succ_self _))
    by_cases hpercent : t.kind = .percent
    · by_cases hword : (peek s.eof ts).kind = .ident
      · cases ts with
        | nil => exact absurd hword (hended.peek_nil_ne .ident (by decide))
        | cons word ts =>
          by_cases hempty : word.lexeme = emptyWord
          · rw [symbolTurn_emptyWord hts hstop hpercent hword hempty]
            refine .moved (Cursor.over_ahead s ts) (Cursor.index_ahead_lt hts ?_)
            simp only [List.length_cons]
            omega
          · rw [symbolTurn_otherWord hts hstop hpercent hword hempty]
            exact .refused _
      · rw [symbolTurn_noWord hts hstop hpercent hword]
        exact .refused _
    · rw [symbolTurn_unexpected hts hstop hsymbol hpercent]
      exact .refused _

theorem bodyTurn_progresses (hended : Ended s.eof s.tokens) (hlimit : s.tokens.length < limit)
    {a : Alternatives} (ha : a.cursor.Over s) :
    Progresses (fun a => a.cursor.Over s) (fun a => a.cursor.index) a (bodyTurn limit a) := by
  obtain ⟨bodies, last, c⟩ := a
  obtain ⟨ts, hts, rfl⟩ := ha.eq_ahead
  cases hbody : readSymbols s.eof endsBody ts with
  | error fault =>
    rw [bodyTurn_error hended hlimit hts hbody]
    exact .refused fault
  | ok body =>
    have hle : body.rest.length ≤ ts.length := by
      obtain ⟨taken, rfl, -⟩ := readSymbols_sound hbody
      simp
    by_cases hbar : (peek s.eof body.rest).kind = .bar
    · cases hrest : body.rest with
      | nil =>
        rw [hrest] at hbar
        exact absurd hbar (hended.peek_nil_ne .bar (by decide))
      | cons t rest =>
        rw [hrest] at hbar hle
        rw [bodyTurn_bar hended hlimit hts hbody hrest hbar]
        exact .moved (Cursor.over_ahead s rest) (Cursor.index_ahead_lt hts hle)
    · rw [bodyTurn_leave hended hlimit hts hbody hbar]
      exact .left (Cursor.over_ahead s body.rest) (Cursor.index_ahead_le hle)

theorem itemTurn_progresses (hended : Ended s.eof s.tokens) (hlimit : s.tokens.length < limit)
    {r : Reading} (hr : r.cursor.Over s) :
    Progresses (fun r => r.cursor.Over s) (fun r => r.cursor.index) r (itemTurn limit r) := by
  obtain ⟨d, c⟩ := r
  obtain ⟨ts, hts, rfl⟩ := hr.eq_ahead
  cases ts with
  | nil =>
    rw [itemTurn_nil hended]
    exact .left hr (Nat.le_refl _)
  | cons t ts =>
    rw [itemTurn_cons hended hlimit hts]
    cases hitem : readItem s.eof t ts with
    | error fault => exact .refused fault
    | ok r =>
      obtain ⟨-, hshorter⟩ := readItem_shorter hitem
      exact .moved (Cursor.over_ahead s r.2) (Cursor.index_ahead_lt hts hshorter)

end

/-! ## Whole texts -/

theorem Stop.ofFault_eq {fault : Fault} (h : fault ≠ .literal .nul) :
    ofFault fault = .malformed fault := by
  unfold ofFault
  split
  · exact absurd rfl h
  · rfl

section

variable [Host]

/-- What holds of a text that is read with a cursor, where each loop may make `limit` turns. -/
structure SafelyRead (limit : Nat) (source : String) (givenId : Option Text) (freshId : Text) :
    Prop where
  /-- Every loop is left before the limit, and nothing that is asked for is missing. -/
  result : parseWithCursor limit source givenId freshId =
    .ofExcept ((parse source givenId freshId).mapError ParseError.fault)
  scanning : ∀ s : Scanning, s.position.offset ≤ source.toList.length →
    Progresses (fun s => s.position.offset ≤ source.toList.length) (fun s => s.position.offset) s
      (scanTurn source.toList s)
  symbols : ∀ s, scan source.toList = .ok s → ∀ stops, .eof ∈ stops →
    ∀ g : Gathering, g.cursor.Over s →
      Progresses (fun g => g.cursor.Over s) (fun g => g.cursor.index) g (symbolTurn stops g)
  bodies : ∀ s, scan source.toList = .ok s → ∀ a : Alternatives, a.cursor.Over s →
    Progresses (fun a => a.cursor.Over s) (fun a => a.cursor.index) a (bodyTurn limit a)
  statements : ∀ s, scan source.toList = .ok s → ∀ r : Reading, r.cursor.Over s →
    Progresses (fun r => r.cursor.Over s) (fun r => r.cursor.index) r (itemTurn limit r)
  outcome : (∃ g, parseWithCursor limit source givenId freshId = .ok g) ∨
    (∃ fault, parseWithCursor limit source givenId freshId = .error (.malformed fault)) ∨
    parseWithCursor limit source givenId freshId = .error .unreadable ∧
      ∃ s, scan source.toList = .ok s ∧
        ∃ t ∈ s.tokens, t.kind.isQuoted = true ∧ '\x00' ∈ t.lexeme

theorem outcome_of_limit {source : String} {limit : Nat} (hlimit : source.toList.length < limit)
    (givenId : Option Text) (freshId : Text) :
    (∃ g, parseWithCursor limit source givenId freshId = .ok g) ∨
      (∃ fault, parseWithCursor limit source givenId freshId = .error (.malformed fault)) ∨
      parseWithCursor limit source givenId freshId = .error .unreadable ∧
        ∃ s, scan source.toList = .ok s ∧
          ∃ t ∈ s.tokens, t.kind.isQuoted = true ∧ '\x00' ∈ t.lexeme := by
  rw [parseWithCursor_eq hlimit]
  cases hparse : parse source givenId freshId with
  | ok g => exact .inl ⟨g, rfl⟩
  | error e =>
    right
    by_cases hnul : e.fault = .literal .nul
    · have hdeclarations : declarations source.toList = .error (.literal .nul) := by
        rcases (fault_of_parse hparse).2 with hfault | hstart
        · rw [hfault, hnul]
        · cases hnul.symm.trans hstart
      refine .inr ⟨?_, nul_of_declarations hdeclarations⟩
      rw [Except.mapError, hnul]
      rfl
    · refine .inl ⟨e.fault, ?_⟩
      rw [Except.mapError, Run.ofExcept_error, Run.refuse, Stop.ofFault_eq hnul]
      rfl

/-- **Safety.** Every text is read to an end: no loop makes more turns than the text has characters,
and one to leave, since each turn takes something, or leaves the loop, or refuses the text. The
cursor does not pass the end of the text, and the token before it and the first symbol of the first
head are there when they are asked for. What comes out is a grammar, or a fault of the text, or a
nul in a quoted token. -/
theorem safelyRead (source : String) (givenId : Option Text) (freshId : Text) {limit : Nat}
    (hlimit : source.toList.length < limit) : SafelyRead limit source givenId freshId := by
  have hturns : ∀ {s : Scan}, scan source.toList = .ok s → s.tokens.length < limit :=
    fun hs => Nat.lt_of_le_of_lt (length_tokens_le hs) hlimit
  constructor
  case result => exact parseWithCursor_eq hlimit givenId freshId
  case scanning => exact fun _ hs => scanTurn_progresses hs
  case symbols =>
    intro s hs stops hstops g hg
    exact symbolTurn_progresses (exact_of_scan_ok hs).ended hstops hg
  case bodies =>
    intro s hs a ha
    exact bodyTurn_progresses (exact_of_scan_ok hs).ended (hturns hs) ha
  case statements =>
    intro s hs r hr
    exact itemTurn_progresses (exact_of_scan_ok hs).ended (hturns hs) hr
  case outcome => exact outcome_of_limit hlimit givenId freshId

end

section

open scoped Host

/-- A nul between quotes, in a text that is a rule otherwise. -/
def nulText : String := "A : '\x00' ;"

theorem safelyRead_nulText :
    nulText.toList.length < 10 ∧ SafelyRead 10 nulText none unnamedId ∧
      parseWithCursor 10 nulText none = .error .unreadable := by
  have hlimit : nulText.toList.length < 10 := by decide
  have hparse : parse nulText none = .error ⟨nulText.toList, .literal .nul⟩ :=
    eq_error_of_error? (by decide +kernel)
  have hread := safelyRead nulText none unnamedId hlimit
  refine ⟨hlimit, hread, ?_⟩
  rw [hread.result, hparse]
  rfl

end

end PhraseGrammar.Notation
