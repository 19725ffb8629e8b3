import PhraseGrammar.Proofs.Syntax

/-!
# PhraseGrammar.Proofs.Reading

The reader accepts the phrases of the notation and nothing else.

* `_sound`: what is read are the signs of a phrase, and all of its quoted signs decode.
* `_complete`: the tokens of a phrase are read, whatever follows them.

`readItems_iff` joins both for the statements of a text.
-/

namespace PhraseGrammar.Notation

/-! ## Stops and directives -/

def SparesSymbols (ends : TokenKind → Bool) : Prop :=
  ∀ k, k.isSymbol = true ∨ k = .percent → ends k = false

theorem endsArguments_sparesSymbols : SparesSymbols endsArguments := by
  intro k hk
  cases k <;> simp [TokenKind.isSymbol] at hk <;> rfl

theorem endsHead_sparesSymbols : SparesSymbols endsHead := by
  intro k hk
  cases k <;> simp [TokenKind.isSymbol] at hk <;> rfl

theorem endsBody_sparesSymbols : SparesSymbols endsBody := by
  intro k hk
  cases k <;> simp [TokenKind.isSymbol] at hk <;> rfl

theorem head?_ends {ends : TokenKind → Bool} {t : Token} {rest : List Token}
    (ht : ends t.kind = true) : ∀ u ∈ (t :: rest).head?, ends u.kind = true := by
  intro u hu
  cases hu
  exact ht

theorem readSemicolon_sound {eof : Token} {statement : Statement} {anchor : Nat}
    {ts rest : List Token} (h : readSemicolon eof statement anchor ts = .ok rest) :
    ∃ semicolon, semicolon.kind = .semicolon ∧ ts = semicolon :: rest := by
  cases ts with
  | nil => cases h
  | cons t ts =>
    simp only [readSemicolon] at h
    split at h
    · rename_i ht
      cases h
      exact ⟨t, ht, rfl⟩
    · cases h

theorem readSemicolon_complete {eof semicolon : Token} {statement : Statement} {anchor : Nat}
    {rest : List Token} (h : semicolon.kind = .semicolon) :
    readSemicolon eof statement anchor (semicolon :: rest) = .ok rest := if_pos h

theorem Directive.word_of_ofWord? {cs : List Char} {d : Directive} (h : ofWord? cs = some d) :
    cs = d.word.toList := by
  have hd := List.find?_some h
  exact (beq_iff_eq.1 hd).symm

theorem Directive.ofWord?_word (d : Directive) : ofWord? d.word.toList = some d := by
  cases d <;> rfl

/-- A directive gives a statement with exactly the arguments with which it says something. -/
theorem Directive.item_eq_ok_iff {percent word : Token} {d : Directive} {arguments : List Symbol}
    {item : Item} : d.item percent word arguments = .ok item ↔ d.Says arguments item := by
  constructor
  · intro h
    cases d with
    | head =>
      simp only [Directive.item] at h
      split at h
      · cases h
      · rename_i hne
        cases h
        exact .head fun c => hne (by rw [c]; rfl)
    | terminals => cases h; exact .terminals _
    | nonterminals => cases h; exact .nonterminals _
    | name | id | start =>
      simp only [Directive.item] at h
      split at h
      · cases h
        constructor
      · cases h
    | type =>
      simp only [Directive.item] at h
      split at h
      · rename_i s
        simp only [Directive.itemOfValue] at h
        split at h
        · rename_i t ht
          cases h
          obtain ⟨text⟩ := s
          obtain rfl : text = t.name := GrammarType.ofName?_eq_some_iff.1 ht
          exact .type t
        · cases h
      · cases h
  · intro h
    cases h with
    | name | id | start | terminals | nonterminals => rfl
    | type t => cases t <;> rfl
    | head hne =>
      simp only [Directive.item]
      rw [if_neg fun c => hne (List.isEmpty_iff.1 c)]

section

variable [Host]

/-- All quoted tokens have texts. -/
def AllDecode (ts : List Token) : Prop := ∀ t ∈ ts, t.sign.Decodes

@[simp] theorem allDecode_nil : AllDecode [] := fun _ h => nomatch h

theorem allDecode_cons {t : Token} {ts : List Token} :
    AllDecode (t :: ts) ↔ t.sign.Decodes ∧ AllDecode ts := List.forall_mem_cons

theorem allDecode_append {ts us : List Token} :
    AllDecode (ts ++ us) ↔ AllDecode ts ∧ AllDecode us := List.forall_mem_append

/-! ## Symbols -/

theorem Token.symbol_of_decodes {t : Token} (h : t.sign.Decodes) :
    t.symbol = .ok t.sign.symbol := by
  obtain ⟨kind, lexeme, position⟩ := t
  cases kind
  case doubleQuoted | singleQuoted =>
    obtain ⟨cs, hcs⟩ := h rfl
    simp only [Token.sign] at hcs
    simp only [Token.symbol, Token.sign, Sign.symbol, hcs]
    rfl
  all_goals rfl

theorem Token.decodes_of_symbol {t : Token} {s : Symbol} (h : t.symbol = .ok s) :
    t.sign.Decodes := by
  obtain ⟨kind, lexeme, position⟩ := t
  intro hq
  cases kind
  case doubleQuoted | singleQuoted =>
    simp only [Token.symbol] at h
    split at h
    · rename_i cs hcs
      exact ⟨cs, hcs⟩
    · cases h
  all_goals cases hq

theorem Token.decodes_of_kind {t : Token} {k : TokenKind} (ht : t.kind = k)
    (hk : k.isQuoted = false) : t.sign.Decodes := by
  subst ht
  exact Sign.decodes_of_kind hk

/-- The tokens that come before the rest were read, and they spell the symbols. -/
theorem readSymbols_sound {eof : Token} {ends : TokenKind → Bool} {ts : List Token} {r : Symbols}
    (h : readSymbols eof ends ts = .ok r) :
    ∃ taken, ts = taken ++ r.rest ∧ AllDecode taken ∧
      Spells (taken.map Token.sign) r.symbols := by
  fun_induction readSymbols eof ends ts generalizing r with
  | case1 => cases h; exact ⟨[], rfl, allDecode_nil, .nil⟩
  | case2 t rest hends => cases h; exact ⟨[], rfl, allDecode_nil, .nil⟩
  | case3 => cases h
  | case4 => cases h
  | case5 t rest hends hkind s hs ss hss ih =>
    cases h
    obtain ⟨taken, hrest, hdecode, hspells⟩ := ih hss
    have ht := Token.decodes_of_symbol hs
    obtain rfl : t.sign.symbol = s := Except.ok.inj ((Token.symbol_of_decodes ht).symm.trans hs)
    refine ⟨t :: taken, ?_, allDecode_cons.2 ⟨ht, hdecode⟩, .sign hkind hspells⟩
    rw [hrest]
    rfl
  | case6 => cases h
  | case7 => cases h
  | case8 => cases h
  | case9 => cases h
  | case10 t hends hkind hpercent word rest hident hempty ss hss ih =>
    cases h
    obtain ⟨taken, hrest, hdecode, hspells⟩ := ih hss
    have hword : word.kind = .ident := Decidable.not_not.1 hident
    have ht : t.sign.Decodes := Token.decodes_of_kind hpercent rfl
    have hw : word.sign.Decodes := Token.decodes_of_kind hword rfl
    refine ⟨t :: word :: taken, ?_, ?_, ?_⟩
    · rw [hrest]
      rfl
    · exact allDecode_cons.2 ⟨ht, allDecode_cons.2 ⟨hw, hdecode⟩⟩
    · exact .empty hpercent hword (Decidable.not_not.1 hempty) hspells
  | case11 => cases h

theorem readSymbols_of_ends {eof : Token} {ends : TokenKind → Bool} {rest : List Token}
    (hrest : ∀ t ∈ rest.head?, ends t.kind = true) :
    readSymbols eof ends rest = .ok ⟨[], none, rest⟩ := by
  cases rest with
  | nil => rfl
  | cons t rest =>
    have ht : ends t.kind = true := hrest t rfl
    unfold readSymbols
    rw [if_pos ht]

theorem readSymbols_sign {eof t : Token} {ends : TokenKind → Bool} {ts rest : List Token}
    {symbols : List Symbol} {last : Option Token} (hends : ends t.kind = false)
    (hkind : t.kind.isSymbol = true) (ht : t.sign.Decodes)
    (h : readSymbols eof ends ts = .ok ⟨symbols, last, rest⟩) :
    readSymbols eof ends (t :: ts) =
      .ok ⟨t.sign.symbol :: symbols, some (last.getD t), rest⟩ := by
  unfold readSymbols
  rw [if_neg (by simp [hends]), if_pos hkind, Token.symbol_of_decodes ht]
  simp only [h, Symbols.cons]

theorem readSymbols_emptyWord {eof percent word : Token} {ends : TokenKind → Bool}
    {ts rest : List Token} {symbols : List Symbol} {last : Option Token}
    (hends : ends percent.kind = false) (hpercent : percent.kind = .percent)
    (hword : word.kind = .ident) (hempty : word.lexeme = emptyWord)
    (h : readSymbols eof ends ts = .ok ⟨symbols, last, rest⟩) :
    readSymbols eof ends (percent :: word :: ts) =
      .ok ⟨.epsilon :: symbols, some (last.getD word), rest⟩ := by
  have hkind : percent.kind.isSymbol = false := by rw [hpercent]; rfl
  unfold readSymbols
  rw [if_neg (by simp [hends]), if_neg (by simp [hkind]), if_pos hpercent]
  simp only [hword, hempty, ne_eq, not_true_eq_false, if_false, h, Symbols.cons]

/-- Tokens that spell symbols are read up to a token that ends them. -/
theorem readSymbols_complete {eof : Token} {ends : TokenKind → Bool} (hends : SparesSymbols ends)
    {rest : List Token} (hrest : ∀ t ∈ rest.head?, ends t.kind = true) {ts : List Token}
    {symbols : List Symbol} (h : Spells (ts.map Token.sign) symbols) (hd : AllDecode ts) :
    ∃ last, readSymbols eof ends (ts ++ rest) = .ok ⟨symbols, last, rest⟩ := by
  generalize hxs : ts.map Token.sign = xs at h
  induction h generalizing ts with
  | nil =>
    obtain rfl := List.map_eq_nil_iff.1 hxs
    exact ⟨none, readSymbols_of_ends hrest⟩
  | sign hkind _ ih =>
    obtain ⟨t, ts, rfl, rfl, hts⟩ := List.map_eq_cons_iff.1 hxs
    obtain ⟨ht, hd⟩ := allDecode_cons.1 hd
    obtain ⟨last, hlast⟩ := ih hd hts
    exact ⟨_, readSymbols_sign (hends _ (.inl hkind)) hkind ht hlast⟩
  | empty hpercent hword hempty _ ih =>
    obtain ⟨percent, ts, rfl, rfl, hts⟩ := List.map_eq_cons_iff.1 hxs
    obtain ⟨word, ts, rfl, rfl, hrest⟩ := List.map_eq_cons_iff.1 hts
    obtain ⟨last, hlast⟩ := ih (allDecode_cons.1 (allDecode_cons.1 hd).2).2 hrest
    exact ⟨_, readSymbols_emptyWord (hends _ (.inr hpercent)) hpercent hword hempty hlast⟩

/-! ## Directives -/

theorem readDirective_sound {eof percent : Token} {ts rest : List Token} {item : Item}
    (hpercent : percent.kind = .percent) (h : readDirective eof percent ts = .ok (item, rest)) :
    ∃ taken, ts = taken ++ rest ∧ AllDecode taken ∧
      Phrase ((percent :: taken).map Token.sign) item := by
  unfold readDirective at h
  split at h
  · cases h
  rename_i word ts
  split at h
  · cases h
  rename_i hword
  split at h
  · cases h
  rename_i d hd
  split at h
  · cases h
  rename_i arguments harguments
  simp only at h
  split at h
  · cases h
  rename_i after hsemicolon
  split at h
  · cases h
  rename_i item' hitem
  cases h
  have hident : word.kind = .ident := Decidable.not_not.1 hword
  obtain ⟨taken, rfl, hdecode, hspells⟩ := readSymbols_sound harguments
  obtain ⟨semicolon, hkind, hrest⟩ := readSemicolon_sound hsemicolon
  refine ⟨word :: taken ++ [semicolon], ?_, ?_, ?_⟩
  · rw [hrest]
    simp
  · rw [allDecode_append, allDecode_cons, allDecode_cons]
    refine ⟨⟨?_, hdecode⟩, ?_, allDecode_nil⟩
    · exact Token.decodes_of_kind hident rfl
    · exact Token.decodes_of_kind hkind rfl
  · have hphrase : Phrase (percent.sign :: word.sign :: taken.map Token.sign ++ [semicolon.sign])
        item :=
      .directive hpercent hident (Directive.word_of_ofWord? hd) hspells hkind
        (Directive.item_eq_ok_iff.1 hitem)
    simpa using hphrase

theorem readDirective_complete {eof percent word semicolon : Token} {ts rest : List Token}
    {d : Directive} {arguments : List Symbol} {item : Item} (hword : word.kind = .ident)
    (hd : word.lexeme = d.word.toList) (hspells : Spells (ts.map Token.sign) arguments)
    (hdecode : AllDecode ts) (hsemicolon : semicolon.kind = .semicolon)
    (hsaid : d.Says arguments item) :
    readDirective eof percent (word :: ts ++ semicolon :: rest) = .ok (item, rest) := by
  have hends : ∀ t ∈ (semicolon :: rest).head?, endsArguments t.kind = true :=
    head?_ends (by rw [hsemicolon]; rfl)
  obtain ⟨last, hread⟩ : ∃ last, readSymbols eof endsArguments (ts ++ semicolon :: rest) =
      .ok ⟨arguments, last, semicolon :: rest⟩ :=
    readSymbols_complete endsArguments_sparesSymbols hends hspells hdecode
  have hofWord : Directive.ofWord? word.lexeme = some d := by
    rw [hd]
    exact Directive.ofWord?_word d
  have hitem : d.item percent word arguments = .ok item := Directive.item_eq_ok_iff.2 hsaid
  simp only [readDirective, List.cons_append, hword, ne_eq, not_true_eq_false, if_false, hofWord,
    hread, readSemicolon_complete hsemicolon, hitem]

/-! ## Rules -/

theorem readBodies_sound {eof : Token} {fuel : Nat} {previous : Token} {last : Option Token}
    {ts : List Token} {r : BodyList} (h : readBodies eof fuel previous last ts = .ok r) :
    ∃ taken, ts = taken ++ r.rest ∧ AllDecode taken ∧
      SpellsBodies (taken.map Token.sign) r.bodies := by
  induction fuel generalizing previous last ts r with
  | zero =>
    unfold readBodies at h
    split at h
    · cases h
    rename_i body hbody
    obtain ⟨taken, hrest, hdecode, hspells⟩ := readSymbols_sound hbody
    cases h
    exact ⟨taken, hrest, hdecode, .one hspells⟩
  | succ fuel ih =>
    unfold readBodies at h
    split at h
    · cases h
    rename_i body hbody
    obtain ⟨taken, hrest, hdecode, hspells⟩ := readSymbols_sound hbody
    simp only at h
    cases hafter : body.rest with
    | nil =>
      rw [hafter] at h hrest
      cases h
      exact ⟨taken, hrest, hdecode, .one hspells⟩
    | cons t rest =>
      rw [hafter] at h hrest
      simp only at h
      split at h
      · rename_i hbar
        split at h
        · cases h
        rename_i more hmore
        obtain ⟨others, hothers, hdecodes, hbodies⟩ := ih hmore
        cases h
        refine ⟨taken ++ t :: others, ?_, ?_, ?_⟩
        · rw [hrest, hothers]
          simp
        · have ht : t.sign.Decodes := Token.decodes_of_kind hbar rfl
          exact allDecode_append.2 ⟨hdecode, allDecode_cons.2 ⟨ht, hdecodes⟩⟩
        · have hall : SpellsBodies (taken.map Token.sign ++ t.sign :: others.map Token.sign)
              (body.symbols :: more.bodies) := .bar hspells hbar hbodies
          simpa using hall
      · cases h
        exact ⟨taken, hrest, hdecode, .one hspells⟩

theorem readBodies_complete {eof semicolon : Token} {rest : List Token}
    (hsemicolon : semicolon.kind = .semicolon) {ts : List Token} {bodies : List (List Symbol)}
    (h : SpellsBodies (ts.map Token.sign) bodies) (hd : AllDecode ts) :
    ∀ {fuel : Nat} (previous : Token) (last : Option Token), ts.length ≤ fuel →
      ∃ anchor, readBodies eof fuel previous last (ts ++ semicolon :: rest) =
        .ok ⟨bodies, anchor, semicolon :: rest⟩ := by
  have hends : ∀ t ∈ (semicolon :: rest).head?, endsBody t.kind = true :=
    head?_ends (by rw [hsemicolon]; rfl)
  generalize hxs : ts.map Token.sign = xs at h
  induction h generalizing ts with
  | one hspells =>
    intro fuel previous last _
    subst hxs
    obtain ⟨final, hread⟩ : ∃ final, readSymbols eof endsBody (ts ++ semicolon :: rest) =
        .ok ⟨_, final, semicolon :: rest⟩ :=
      readSymbols_complete endsBody_sparesSymbols hends hspells hd
    unfold readBodies
    cases fuel with
    | zero => simp [hread]
    | succ fuel => simp [hread, hsemicolon]
  | bar hspells hbar _ ih =>
    intro fuel previous last hfuel
    obtain ⟨taken, others, rfl, rfl, hothers⟩ := List.map_eq_append_iff.1 hxs
    obtain ⟨t, others, rfl, rfl, hys⟩ := List.map_eq_cons_iff.1 hothers
    obtain ⟨hdtaken, hdothers⟩ := allDecode_append.1 hd
    have hkind : t.kind = .bar := hbar
    have hends' : ∀ u ∈ (t :: others ++ semicolon :: rest).head?, endsBody u.kind = true :=
      head?_ends (by rw [hkind]; rfl)
    obtain ⟨final, hread⟩ : ∃ final, readSymbols eof endsBody
        (taken ++ (t :: others ++ semicolon :: rest)) =
        .ok ⟨_, final, t :: others ++ semicolon :: rest⟩ :=
      readSymbols_complete endsBody_sparesSymbols hends' hspells hdtaken
    obtain ⟨fuel, rfl⟩ : ∃ n, fuel = n + 1 := by
      simp only [List.length_append, List.length_cons] at hfuel
      exact ⟨fuel - 1, by omega⟩
    have hlength : others.length ≤ fuel := by
      simp only [List.length_append, List.length_cons] at hfuel
      omega
    obtain ⟨anchor, hmore⟩ := ih (allDecode_cons.1 hdothers).2 hys t (final.or last) hlength
    refine ⟨anchor, ?_⟩
    unfold readBodies
    rw [List.append_assoc, hread]
    simp only [List.cons_append]
    rw [if_pos hkind, hmore]

theorem Spells.eq_nil {symbols : List Symbol} (h : Spells [] symbols) : symbols = [] := by
  cases h
  rfl

theorem Spells.ne_nil {x : Sign} {xs : List Sign} {symbols : List Symbol}
    (h : Spells (x :: xs) symbols) : symbols ≠ [] := by
  cases h <;> exact List.cons_ne_nil _ _

theorem readRule_sound {eof t : Token} {ts rest : List Token} {item : Item}
    (ht : t.kind ≠ .percent) (h : readRule eof (t :: ts) = .ok (item, rest)) :
    ∃ taken, t :: ts = taken ++ rest ∧ AllDecode taken ∧ Phrase (taken.map Token.sign) item := by
  unfold readRule at h
  split at h
  · cases h
  rename_i head hhead
  split at h
  · cases h
  rename_i hne
  split at h
  · cases h
  rename_i arrow after harrow
  split at h
  · cases h
  rename_i hkind
  split at h
  · cases h
  rename_i bodies hbodies
  split at h
  · cases h
  rename_i rest' hsemicolon
  cases h
  obtain ⟨taken, hts, hdecode, hspells⟩ := readSymbols_sound hhead
  obtain ⟨others, hafter, hdecodes, hbodies⟩ := readBodies_sound hbodies
  obtain ⟨semicolon, hsemi, hrest⟩ := readSemicolon_sound hsemicolon
  have harrowKind : arrow.kind = .colon ∨ arrow.kind = .arrow :=
    Decidable.or_iff_not_not_and_not.2 hkind
  cases taken with
  | nil =>
    rw [hspells.eq_nil] at hne
    exact absurd rfl hne
  | cons u taken =>
    obtain rfl : t = u := (List.cons.inj hts).1
    refine ⟨t :: taken ++ arrow :: others ++ [semicolon], ?_, ?_, ?_⟩
    · rw [hts, harrow, hafter, hrest]
      simp
    · have ha : arrow.sign.Decodes := by
        rcases harrowKind with h | h
        · exact Token.decodes_of_kind h rfl
        · exact Token.decodes_of_kind h rfl
      have hs : semicolon.sign.Decodes := Token.decodes_of_kind hsemi rfl
      have hrule := allDecode_append.2 ⟨hdecode, allDecode_cons.2 ⟨ha, hdecodes⟩⟩
      exact allDecode_append.2 ⟨hrule, allDecode_cons.2 ⟨hs, allDecode_nil⟩⟩
    · have hphrase : Phrase (t.sign :: taken.map Token.sign ++
          arrow.sign :: others.map Token.sign ++ [semicolon.sign])
          (.rule head.symbols bodies.bodies) :=
        .rule ht hspells harrowKind hbodies hsemi
      simpa using hphrase

theorem readRule_complete {eof t arrow semicolon : Token} {ts others rest : List Token}
    {head : List Symbol} {bodies : List (List Symbol)}
    (hhead : Spells ((t :: ts).map Token.sign) head) (hdecode : AllDecode (t :: ts))
    (harrow : arrow.kind = .colon ∨ arrow.kind = .arrow)
    (hbodies : SpellsBodies (others.map Token.sign) bodies) (hdecodes : AllDecode others)
    (hsemicolon : semicolon.kind = .semicolon) :
    readRule eof (t :: ts ++ arrow :: others ++ semicolon :: rest) =
      .ok (.rule head bodies, rest) := by
  have hends : ∀ u ∈ (arrow :: others ++ semicolon :: rest).head?, endsHead u.kind = true := by
    refine head?_ends ?_
    rcases harrow with h | h <;> rw [h] <;> rfl
  obtain ⟨last, hread⟩ : ∃ last,
      readSymbols eof endsHead (t :: ts ++ (arrow :: others ++ semicolon :: rest)) =
        .ok ⟨head, last, arrow :: others ++ semicolon :: rest⟩ :=
    readSymbols_complete endsHead_sparesSymbols hends hhead hdecode
  have hne : head.isEmpty = false := by
    simpa using hhead.ne_nil
  have hkind : ¬(arrow.kind ≠ .colon ∧ arrow.kind ≠ .arrow) := by
    rintro ⟨hcolon, hnotArrow⟩
    exact harrow.elim hcolon hnotArrow
  have hfuel : others.length ≤ (others ++ semicolon :: rest).length := by
    rw [List.length_append]
    omega
  obtain ⟨anchor, hmore⟩ : ∃ anchor,
      readBodies eof (others ++ semicolon :: rest).length arrow none
        (others ++ semicolon :: rest) = .ok ⟨bodies, anchor, semicolon :: rest⟩ :=
    readBodies_complete hsemicolon hbodies hdecodes arrow none hfuel
  rw [List.append_assoc]
  unfold readRule
  rw [hread]
  simp only [hne, Bool.false_eq_true, if_false, List.cons_append]
  rw [if_neg hkind, hmore]
  simp only [readSemicolon_complete hsemicolon]

/-! ## Statements -/

theorem readItem_sound {eof t : Token} {ts rest : List Token} {item : Item}
    (h : readItem eof t ts = .ok (item, rest)) :
    ∃ taken, t :: ts = taken ++ rest ∧ AllDecode taken ∧ Phrase (taken.map Token.sign) item := by
  unfold readItem at h
  split at h
  · rename_i hpercent
    obtain ⟨taken, hts, hdecode, hphrase⟩ := readDirective_sound hpercent h
    have ht : t.sign.Decodes := Token.decodes_of_kind hpercent rfl
    refine ⟨t :: taken, ?_, allDecode_cons.2 ⟨ht, hdecode⟩, hphrase⟩
    rw [hts]
    rfl
  · rename_i hpercent
    exact readRule_sound hpercent h

theorem readItem_complete {eof : Token} {taken rest : List Token} {item : Item}
    (h : Phrase (taken.map Token.sign) item) (hdecode : AllDecode taken) :
    ∃ t ts, taken = t :: ts ∧ readItem eof t (ts ++ rest) = .ok (item, rest) := by
  generalize hxs : taken.map Token.sign = xs at h
  cases h with
  | directive hpercent hword hd hspells hsemicolon hsaid =>
    obtain ⟨start, ending, rfl, hstart, hending⟩ := List.map_eq_append_iff.1 hxs
    obtain ⟨semicolon, ending, rfl, rfl, hnil⟩ := List.map_eq_cons_iff.1 hending
    obtain rfl := List.map_eq_nil_iff.1 hnil
    obtain ⟨percent, start, rfl, rfl, hword'⟩ := List.map_eq_cons_iff.1 hstart
    obtain ⟨word, ts, rfl, rfl, rfl⟩ := List.map_eq_cons_iff.1 hword'
    have hts : AllDecode ts :=
      (allDecode_cons.1 (allDecode_cons.1 (allDecode_append.1 hdecode).1).2).2
    refine ⟨percent, word :: ts ++ [semicolon], rfl, ?_⟩
    have hread : readDirective eof percent (word :: ts ++ semicolon :: rest) = .ok (item, rest) :=
      readDirective_complete hword hd hspells hts hsemicolon hsaid
    have hkind : percent.kind = .percent := hpercent
    unfold readItem
    rw [if_pos hkind, List.append_assoc]
    exact hread
  | rule hpercent hhead harrow hbodies hsemicolon =>
    obtain ⟨start, ending, rfl, hstart, hending⟩ := List.map_eq_append_iff.1 hxs
    obtain ⟨semicolon, ending, rfl, rfl, hnil⟩ := List.map_eq_cons_iff.1 hending
    obtain rfl := List.map_eq_nil_iff.1 hnil
    obtain ⟨ts, others, rfl, hts, hothers⟩ := List.map_eq_append_iff.1 hstart
    obtain ⟨t, ts, rfl, rfl, rfl⟩ := List.map_eq_cons_iff.1 hts
    obtain ⟨arrow, others, rfl, rfl, rfl⟩ := List.map_eq_cons_iff.1 hothers
    obtain ⟨hdts, hdothers⟩ := allDecode_append.1 (allDecode_append.1 hdecode).1
    refine ⟨t, ts ++ arrow :: others ++ [semicolon], rfl, ?_⟩
    have hread : readRule eof (t :: ts ++ arrow :: others ++ semicolon :: rest) =
        .ok (.rule _ _, rest) :=
      readRule_complete hhead hdts harrow hbodies (allDecode_cons.1 hdothers).2 hsemicolon
    have hkind : t.kind ≠ .percent := hpercent
    unfold readItem
    rw [if_neg hkind, List.append_assoc]
    exact hread

theorem readItems_sound {eof : Token} {fuel : Nat} {ts : List Token} {items : List Item}
    (h : readItems eof fuel ts = .ok items) :
    AllDecode ts ∧ Phrases (ts.map Token.sign) items := by
  fun_induction readItems eof fuel ts generalizing items with
  | case1 => cases h; exact ⟨allDecode_nil, .nil⟩
  | case2 => cases h
  | case3 => cases h
  | case4 => cases h
  | case5 fuel t ts item rest hitem more hmore ih =>
    cases h
    obtain ⟨taken, hts, hdecode, hphrase⟩ := readItem_sound hitem
    obtain ⟨hdecodes, hphrases⟩ := ih hmore
    rw [hts, List.map_append]
    exact ⟨allDecode_append.2 ⟨hdecode, hdecodes⟩, .cons hphrase hphrases⟩

theorem readItems_complete {eof : Token} {ts : List Token} {items : List Item}
    (h : Phrases (ts.map Token.sign) items) (hdecode : AllDecode ts) :
    ∀ {fuel : Nat}, ts.length ≤ fuel → readItems eof fuel ts = .ok items := by
  generalize hxs : ts.map Token.sign = xs at h
  induction h generalizing ts with
  | nil =>
    intro fuel _
    obtain rfl := List.map_eq_nil_iff.1 hxs
    cases fuel <;> rfl
  | cons hphrase _ ih =>
    intro fuel hfuel
    obtain ⟨taken, rest, rfl, rfl, hrest⟩ := List.map_eq_append_iff.1 hxs
    obtain ⟨hdtaken, hdrest⟩ := allDecode_append.1 hdecode
    obtain ⟨t, ts, rfl, hitem⟩ := readItem_complete hphrase hdtaken
    obtain ⟨fuel, rfl⟩ : ∃ n, fuel = n + 1 := by
      simp only [List.length_append, List.length_cons] at hfuel
      exact ⟨fuel - 1, by omega⟩
    have hlength : rest.length ≤ fuel := by
      simp only [List.length_append, List.length_cons] at hfuel
      omega
    rw [List.cons_append, readItems, hitem]
    simp only [ih hdrest hrest hlength]

/-- The reader gives some statements exactly if the tokens are phrases that say them. -/
theorem readItems_iff {eof : Token} {ts : List Token} {items : List Item} :
    readItems eof ts.length ts = .ok items ↔
      AllDecode ts ∧ Phrases (ts.map Token.sign) items := by
  constructor
  · exact readItems_sound
  · rintro ⟨hdecode, hphrases⟩
    exact readItems_complete hphrases hdecode (Nat.le_refl _)

end

end PhraseGrammar.Notation
