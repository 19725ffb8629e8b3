import PhraseGrammar.Proofs.Reading

/-!
# PhraseGrammar.Proofs.Blame

Where the faults of a grammar text come from.

* `Blames`: the fault is about a token of the text, or about its end.
* `readSymbols_blames`, …, `readItems_blames`: each reader blames a token that it was given.
* `blames_of_declarations`: a text that is cut into tokens and not read blames one of them.

`nul_of_declarations`: a text that is refused for a nul has a quoted token with a nul in it.
-/

namespace PhraseGrammar.Notation

def Among (eof : Token) (ts : List Token) (t : Token) : Prop := t ∈ ts ∨ t = eof

theorem among_cons {eof : Token} (t : Token) (ts : List Token) : Among eof (t :: ts) t :=
  .inl List.mem_cons_self

theorem among_peek (eof : Token) (ts : List Token) : Among eof ts (peek eof ts) := by
  cases ts with
  | nil => exact .inr rfl
  | cons t ts => exact among_cons t ts

/-- Declarations that make no grammar have no start symbol. -/
theorem Declarations.grammar_error {d : Declarations} {givenId : Option Text} {freshId : Text}
    {fault : Fault} (h : d.grammar givenId freshId = .error fault) : fault = .noStart := by
  unfold grammar at h
  split at h
  · cases h
    rfl
  · simp only at h
    split at h <;> cases h

section

variable [Host]

/-- The fault is about a token of the text, or about its end. -/
inductive Blames (eof : Token) (ts : List Token) : Fault → Prop where
  | literal {t : Token} {fault : Literal.Fault} :
      t ∈ ts → t.kind.isQuoted = true → Literal.decode t.lexeme = .error fault →
      Blames eof ts (.literal fault)
  | located {t : Token} (p : Problem) : Among eof ts t → Blames eof ts (t.fault p)
  | semicolon {found : Token} (statement : Statement) (anchor : Nat) :
      Among eof ts found → Blames eof ts (.missingSemicolon statement found anchor)

variable {eof : Token} {ts us : List Token} {fault : Fault}

theorem Blames.mono (hsub : ts ⊆ us) (h : Blames eof ts fault) : Blames eof us fault := by
  have hamong : ∀ t, Among eof ts t → Among eof us t :=
    fun t ht => ht.imp (fun hmem => hsub hmem) id
  cases h with
  | literal hmem hquoted hdecode => exact .literal (hsub hmem) hquoted hdecode
  | located p ht => exact .located p (hamong _ ht)
  | semicolon statement anchor ht => exact .semicolon statement anchor (hamong _ ht)

/-! ## Symbols -/

/-- Only a quoted token may have no symbol. -/
theorem Token.literal_of_symbol {t : Token} (h : t.symbol = .error fault) :
    ∃ e, fault = .literal e ∧ t.kind.isQuoted = true ∧ Literal.decode t.lexeme = .error e := by
  obtain ⟨kind, lexeme, position⟩ := t
  cases kind
  case doubleQuoted | singleQuoted =>
    simp only [Token.symbol] at h
    split at h
    · cases h
    · rename_i e he
      cases h
      exact ⟨e, rfl, rfl, he⟩
  all_goals cases h

theorem readSymbols_blames {ends : TokenKind → Bool}
    (h : readSymbols eof ends ts = .error fault) : Blames eof ts fault := by
  fun_induction readSymbols eof ends ts generalizing fault with
  | case1 => cases h
  | case2 => cases h
  | case3 t rest _ _ e he =>
    cases h
    obtain ⟨e, rfl, hquoted, hdecode⟩ := Token.literal_of_symbol he
    exact .literal List.mem_cons_self hquoted hdecode
  | case4 t rest _ _ s _ e he ih =>
    cases h
    exact (ih he).mono (List.subset_cons_self t rest)
  | case5 => cases h
  | case6 t =>
    cases h
    exact .located _ (.inr rfl)
  | case7 t _ _ _ word rest =>
    cases h
    exact .located _ (.inl (List.mem_cons_of_mem t List.mem_cons_self))
  | case8 t _ _ _ word rest =>
    cases h
    exact .located _ (.inl (List.mem_cons_of_mem t List.mem_cons_self))
  | case9 t _ _ _ word rest _ _ e he ih =>
    cases h
    have hrest : rest ⊆ t :: word :: rest :=
      List.Subset.trans (List.subset_cons_self word rest) (List.subset_cons_self t _)
    exact (ih he).mono hrest
  | case10 => cases h
  | case11 t rest =>
    cases h
    exact .located _ (among_cons t rest)

theorem readSymbols_rest {ends : TokenKind → Bool} {r : Symbols}
    (h : readSymbols eof ends ts = .ok r) : r.rest ⊆ ts := by
  obtain ⟨taken, hrest, -⟩ := readSymbols_sound h
  rw [hrest]
  exact List.subset_append_right taken r.rest

theorem readSemicolon_blames {statement : Statement} {anchor : Nat}
    (h : readSemicolon eof statement anchor ts = .error fault) : Blames eof ts fault := by
  unfold readSemicolon at h
  split at h
  · cases h
    exact .semicolon statement anchor (.inr rfl)
  · rename_i t rest
    split at h
    · cases h
    · cases h
      exact .semicolon statement anchor (among_cons t rest)

/-! ## Statements -/

theorem Directive.item_blames {percent word : Token} {d : Directive} {arguments : List Symbol}
    (h : d.item percent word arguments = .error fault) :
    Blames eof [percent, word] fault := by
  have hpercent : Among eof [percent, word] percent := among_cons percent [word]
  have hword : Among eof [percent, word] word :=
    .inl (List.mem_cons_of_mem percent List.mem_cons_self)
  cases d with
  | head =>
    simp only [Directive.item] at h
    split at h
    · cases h
      exact .located _ hword
    · cases h
  | terminals | nonterminals => cases h
  | name | id | start =>
    simp only [Directive.item] at h
    split at h
    · cases h
    · cases h
      exact .located _ hpercent
  | type =>
    simp only [Directive.item] at h
    split at h
    · simp only [Directive.itemOfValue] at h
      split at h
      · cases h
      · cases h
        exact .located _ hword
    · cases h
      exact .located _ hpercent

theorem readDirective_blames {percent : Token}
    (h : readDirective eof percent ts = .error fault) : Blames eof (percent :: ts) fault := by
  unfold readDirective at h
  split at h
  · cases h
    exact .located _ (.inr rfl)
  rename_i word rest
  have hword : Among eof (percent :: word :: rest) word :=
    .inl (List.mem_cons_of_mem percent List.mem_cons_self)
  have hrest : rest ⊆ percent :: word :: rest :=
    List.Subset.trans (List.subset_cons_self word rest) (List.subset_cons_self percent _)
  split at h
  · cases h
    exact .located _ hword
  split at h
  · cases h
    exact .located _ hword
  split at h
  · rename_i e he
    cases h
    exact (readSymbols_blames he).mono hrest
  rename_i arguments harguments
  simp only at h
  split at h
  · rename_i e he
    cases h
    exact (readSemicolon_blames he).mono (List.Subset.trans (readSymbols_rest harguments) hrest)
  split at h
  · rename_i e he
    cases h
    refine (Directive.item_blames he).mono ?_
    simp
  · cases h

theorem readBodies_blames {fuel : Nat} {previous : Token} {last : Option Token}
    (h : readBodies eof fuel previous last ts = .error fault) : Blames eof ts fault := by
  -- Each body leaves an end of the tokens, so what the later ones blame is among them.
  induction fuel generalizing previous last ts with
  | zero =>
    unfold readBodies at h
    split at h
    · rename_i e he
      cases h
      exact readSymbols_blames he
    · cases h
  | succ fuel ih =>
    unfold readBodies at h
    split at h
    · rename_i e he
      cases h
      exact readSymbols_blames he
    rename_i body hbody
    have hrest := readSymbols_rest hbody
    simp only at h
    cases hafter : body.rest with
    | nil =>
      rw [hafter] at h
      cases h
    | cons t rest =>
      rw [hafter] at h hrest
      simp only at h
      split at h
      · split at h
        · rename_i e he
          cases h
          exact (ih he).mono (List.Subset.trans (List.subset_cons_self t rest) hrest)
        · cases h
      · cases h

theorem readBodies_rest {fuel : Nat} {previous : Token} {last : Option Token} {r : BodyList}
    (h : readBodies eof fuel previous last ts = .ok r) : r.rest ⊆ ts := by
  obtain ⟨taken, hrest, -⟩ := readBodies_sound h
  rw [hrest]
  exact List.subset_append_right taken r.rest

theorem readRule_blames (h : readRule eof ts = .error fault) : Blames eof ts fault := by
  unfold readRule at h
  split at h
  · rename_i e he
    cases h
    exact readSymbols_blames he
  rename_i head hhead
  split at h
  · cases h
    exact .located _ (among_peek eof ts)
  have hafter := readSymbols_rest hhead
  cases hrest : head.rest with
  | nil =>
    rw [hrest] at h
    cases h
    exact .located _ (.inr rfl)
  | cons arrow rest =>
    rw [hrest] at h hafter
    have hbodies : rest ⊆ ts := List.Subset.trans (List.subset_cons_self arrow rest) hafter
    simp only at h
    split at h
    · cases h
      exact .located _ (.inl (hafter List.mem_cons_self))
    split at h
    · rename_i e he
      cases h
      exact (readBodies_blames he).mono hbodies
    rename_i bodies hread
    split at h
    · rename_i e he
      cases h
      exact (readSemicolon_blames he).mono (List.Subset.trans (readBodies_rest hread) hbodies)
    · cases h

theorem readItem_blames {t : Token} (h : readItem eof t ts = .error fault) :
    Blames eof (t :: ts) fault := by
  unfold readItem at h
  split at h
  · exact readDirective_blames h
  · exact readRule_blames h

theorem readItem_rest {t : Token} {item : Item} {rest : List Token}
    (h : readItem eof t ts = .ok (item, rest)) : rest ⊆ t :: ts := by
  obtain ⟨taken, hrest, -⟩ := readItem_sound h
  rw [hrest]
  exact List.subset_append_right taken rest

theorem readItems_blames {fuel : Nat} (h : readItems eof fuel ts = .error fault) :
    Blames eof ts fault := by
  induction fuel generalizing ts with
  | zero =>
    cases ts with
    | nil => cases h
    | cons t ts =>
      cases h
      exact .located _ (among_cons t ts)
  | succ fuel ih =>
    cases ts with
    | nil => cases h
    | cons t ts =>
      simp only [readItems] at h
      split at h
      · rename_i e he
        cases h
        exact readItem_blames he
      · rename_i item rest hitem
        split at h
        · rename_i e he
          cases h
          exact (ih he).mono (readItem_rest hitem)
        · cases h

/-! ## Texts -/

theorem error_of_declarations {text : List Char} (h : declarations text = .error fault) :
    (∃ e, scan text = .error e ∧ fault = .scan e) ∨
      ∃ s, scan text = .ok s ∧ readItems s.eof s.tokens.length s.tokens = .error fault := by
  unfold declarations items at h
  cases hscan : scan text with
  | error e =>
    rw [hscan] at h
    cases h
    exact .inl ⟨e, rfl, rfl⟩
  | ok s =>
    rw [hscan] at h
    simp only at h
    split at h
    · rename_i e he
      cases h
      exact .inr ⟨s, rfl, he⟩
    · cases h

theorem blames_of_declarations {text : List Char} (h : declarations text = .error fault) :
    (∃ e, scan text = .error e ∧ fault = .scan e) ∨
      ∃ s, scan text = .ok s ∧ Blames s.eof s.tokens fault := by
  rcases error_of_declarations h with hscan | ⟨s, hscan, hread⟩
  · exact .inl hscan
  · exact .inr ⟨s, hscan, readItems_blames hread⟩

theorem Literal.nul_mem_of_decode {lexeme : List Char} (h : decode lexeme = .error .nul) :
    '\x00' ∈ lexeme := by
  unfold decode at h
  split at h
  · rename_i hnul
    exact List.contains_iff_mem.1 hnul
  · unfold decodeInside at h
    split at h
    · cases h
    · split at h
      · split at h <;> cases h
      · cases h

/-- A text is refused for a nul only if a quoted token of it holds one. -/
theorem nul_of_declarations {text : List Char} (h : declarations text = .error (.literal .nul)) :
    ∃ s, scan text = .ok s ∧ ∃ t ∈ s.tokens, t.kind.isQuoted = true ∧ '\x00' ∈ t.lexeme := by
  rcases blames_of_declarations h with ⟨e, -, he⟩ | ⟨s, hscan, hblames⟩
  · cases he
  · generalize hfault : Fault.literal .nul = fault at hblames
    cases hblames with
    | literal hmem hquoted hdecode =>
      cases hfault
      exact ⟨s, hscan, _, hmem, hquoted, Literal.nul_mem_of_decode hdecode⟩
    | located p _ => cases hfault
    | semicolon statement anchor _ => cases hfault

end

end PhraseGrammar.Notation
