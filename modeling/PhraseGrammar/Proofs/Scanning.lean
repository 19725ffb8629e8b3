import PhraseGrammar.Notation.Printer
import PhraseGrammar.Proofs.Escape
import PhraseGrammar.Proofs.Syntax

/-!
# PhraseGrammar.Proofs.Scanning

How a text is cut into signs.

* `Scans`: lexemes one after the other, of which those with a kind are signs.
* `Scans.space`, `Scans.punctuation`, `Scans.ident`, `Scans.symbol`: what may be put before a text
  that is cut into signs. A name also needs that the text does not go on with it.

`scan_of_scans`: the scanner finds these signs. `scans_of_scanFrom`: it finds nothing else.
-/

namespace PhraseGrammar.Notation

/-- A text and the signs that its lexemes are. -/
inductive Scans : List Char → List Sign → Prop where
  | nil : Scans [] []
  | skip {c : Char} {rest : List Char} {l : Lexeme} {signs : List Sign} :
      Lexeme.first? c rest = some l → l.kind = none → Scans l.rest signs →
      Scans (c :: rest) signs
  | sign {c : Char} {rest : List Char} {l : Lexeme} {kind : TokenKind} {signs : List Sign} :
      Lexeme.first? c rest = some l → l.kind = some kind → Scans l.rest signs →
      Scans (c :: rest) (⟨kind, l.chars⟩ :: signs)

theorem scanFrom_of_scans {cs : List Char} {signs : List Sign} (h : Scans cs signs) :
    ∀ {fuel : Nat} (position : Position), cs.length ≤ fuel →
      ∃ s, scanFrom position fuel cs = .ok s ∧ s.tokens.map Token.sign = signs := by
  induction h with
  | nil =>
    intro fuel position _
    exact ⟨⟨[], position⟩, by cases fuel <;> rfl, rfl⟩
  | @skip _ _ l _ hfirst hkind _ ih =>
    intro fuel position hfuel
    rw [List.length_cons] at hfuel
    obtain ⟨fuel, rfl⟩ : ∃ n, fuel = n + 1 := ⟨fuel - 1, by omega⟩
    have hshorter := Lexeme.length_rest_of_first? hfirst
    obtain ⟨s, hs, hsigns⟩ := ih (position.advance l.chars) (show _ ≤ fuel by omega)
    refine ⟨s, ?_, hsigns⟩
    simp only [scanFrom, hfirst, hs, hkind]
  | @sign _ _ l kind _ hfirst hkind _ ih =>
    intro fuel position hfuel
    rw [List.length_cons] at hfuel
    obtain ⟨fuel, rfl⟩ : ∃ n, fuel = n + 1 := ⟨fuel - 1, by omega⟩
    have hshorter := Lexeme.length_rest_of_first? hfirst
    obtain ⟨s, hs, hsigns⟩ := ih (position.advance l.chars) (show _ ≤ fuel by omega)
    refine ⟨⟨⟨kind, l.chars, position⟩ :: s.tokens, s.ending⟩, ?_, ?_⟩
    · simp only [scanFrom, hfirst, hs, hkind]
    · rw [List.map_cons, hsigns]
      rfl

theorem scan_of_scans {cs : List Char} {signs : List Sign} (h : Scans cs signs) :
    ∃ s, scan cs = .ok s ∧ s.tokens.map Token.sign = signs :=
  scanFrom_of_scans h .start (Nat.le_refl _)

/-- What the scanner finds are lexemes one after the other. -/
theorem scans_of_scanFrom {fuel : Nat} {position : Position} {cs : List Char} {s : Scan}
    (h : scanFrom position fuel cs = .ok s) : Scans cs (s.tokens.map Token.sign) := by
  induction fuel generalizing position cs s with
  | zero =>
    cases cs with
    | nil => cases h; exact .nil
    | cons c cs => cases h
  | succ fuel ih =>
    cases cs with
    | nil => cases h; exact .nil
    | cons c cs =>
      simp only [scanFrom] at h
      split at h
      · cases h
      · rename_i l hfirst
        split at h
        · cases h
        · rename_i s' hs'
          split at h
          · rename_i hkind
            cases h
            exact .skip hfirst hkind (ih hs')
          · rename_i kind hkind
            cases h
            exact .sign hfirst hkind (ih hs')

/-! ## The front of a text -/

theorem isIdentStart_of_isBlank {c : Char} (h : isBlank c = true) : isIdentStart c = false := by
  simp only [isBlank, Bool.or_eq_true, beq_iff_eq] at h
  rcases h with ((rfl | rfl) | rfl) | rfl <;> decide

theorem isIdentRest_of_mem {cs : List Char} (h : isIdent cs = true) {d : Char} (hd : d ∈ cs) :
    isIdentRest d = true := by
  cases cs with
  | nil => cases hd
  | cons c cs =>
    simp only [isIdent, Bool.and_eq_true, List.all_eq_true] at h
    rcases List.mem_cons.1 hd with rfl | hd
    · simp [isIdentRest, h.1]
    · exact h.2 d hd

theorem not_control_of_isIdent {cs : List Char} (h : isIdent cs = true) {d : Char} (hd : d ∈ cs) :
    0x20 ≤ d.toNat := by
  have hcontrols : ∀ n < 0x20, isIdentRest (Char.ofNat n) = false := by decide +kernel
  have hrest := isIdentRest_of_mem h hd
  refine Decidable.byContradiction fun hcontrol => ?_
  have hnone := hcontrols d.toNat (by omega)
  rw [Char.ofNat_toNat, hrest] at hnone
  cases hnone

namespace Lexeme

variable {c : Char} (rest : List Char)

theorem first?_of_isBlank (hc : isBlank c = true) :
    first? c rest = some (run none isBlank c rest) := if_pos hc

theorem first?_of_isIdentStart (hc : isIdentStart c = true) :
    first? c rest = some (name c rest) := by
  have hblank : ¬isBlank c = true := by
    intro hblank
    rw [isIdentStart_of_isBlank hblank] at hc
    cases hc
  unfold first?
  rw [if_neg hblank, if_pos hc]

theorem first?_newline : first? '\n' rest = some ⟨none, ['\n'], rest⟩ := by
  unfold first?
  rw [if_neg (by decide), if_neg (by decide)]
  rfl

theorem first?_slash : first? '/' rest = comment? rest := by
  unfold first?
  rw [if_neg (by decide), if_neg (by decide)]
  rfl

theorem first?_dash : first? '-' rest = arrow? rest := by
  unfold first?
  rw [if_neg (by decide), if_neg (by decide)]
  rfl

theorem first?_doubleQuote : first? '"' rest = quoted? .doubleQuoted '"' rest := by
  unfold first?
  rw [if_neg (by decide), if_neg (by decide)]
  rfl

theorem first?_singleQuote : first? '\'' rest = quoted? .singleQuoted '\'' rest := by
  unfold first?
  rw [if_neg (by decide), if_neg (by decide)]
  rfl

theorem first?_of_punctuation? {kind : TokenKind} (hc : punctuation? c = some kind) :
    first? c rest = some ⟨some kind, [c], rest⟩ := by
  unfold punctuation? at hc
  unfold first?
  split at hc <;> cases hc <;> rw [if_neg (by decide), if_neg (by decide +kernel)] <;> rfl

end Lexeme

/-! ## What means nothing -/

theorem Scans.dropBlanks {cs : List Char} {signs : List Sign} (h : Scans cs signs) :
    Scans (cs.dropWhile isBlank) signs := by
  cases h with
  | nil => exact .nil
  | @skip c rest l _ hfirst hkind hrest =>
    by_cases hc : isBlank c = true
    · rw [List.dropWhile_cons_of_pos hc]
      rw [Lexeme.first?_of_isBlank rest hc] at hfirst
      cases hfirst
      exact hrest
    · rw [List.dropWhile_cons_of_neg hc]
      exact .skip hfirst hkind hrest
  | @sign c rest l kind _ hfirst hkind hrest =>
    by_cases hc : isBlank c = true
    · unfold Lexeme.first? at hfirst
      rw [if_pos hc] at hfirst
      cases hfirst
      cases hkind
    · rw [List.dropWhile_cons_of_neg hc]
      exact .sign hfirst hkind hrest

theorem Scans.blank {c : Char} {cs : List Char} {signs : List Sign} (hc : isBlank c = true)
    (h : Scans cs signs) : Scans (c :: cs) signs :=
  .skip (Lexeme.first?_of_isBlank cs hc) rfl h.dropBlanks

theorem Scans.space {cs : List Char} {signs : List Sign} (h : Scans cs signs) :
    Scans (' ' :: cs) signs := h.blank rfl

theorem Scans.newline {cs : List Char} {signs : List Sign} (h : Scans cs signs) :
    Scans ('\n' :: cs) signs := .skip (Lexeme.first?_newline cs) rfl h

/-! ## Signs -/

theorem Scans.punctuation {c : Char} {kind : TokenKind} {cs : List Char} {signs : List Sign}
    (hc : Lexeme.punctuation? c = some kind) (h : Scans cs signs) :
    Scans (c :: cs) (⟨kind, [c]⟩ :: signs) :=
  .sign (Lexeme.first?_of_punctuation? cs hc) rfl h

theorem Scans.arrow {cs : List Char} {signs : List Sign} (h : Scans cs signs) :
    Scans ('-' :: '>' :: cs) (⟨.arrow, ['-', '>']⟩ :: signs) :=
  .sign (l := ⟨some .arrow, ['-', '>'], cs⟩) (Lexeme.first?_dash ('>' :: cs)) rfl h

theorem takeWhile_isIdentRest {cs rest : List Char} (hcs : cs.all isIdentRest = true)
    (hrest : Lexeme.goesOn rest = false) :
    (cs ++ rest).takeWhile isIdentRest = cs ∧ (cs ++ rest).dropWhile isIdentRest = rest := by
  induction cs with
  | nil =>
    cases rest with
    | nil => exact ⟨rfl, rfl⟩
    | cons c rest =>
      have hc : ¬isIdentRest c = true := by
        rw [show isIdentRest c = false from hrest]
        decide
      exact ⟨List.takeWhile_cons_of_neg hc, List.dropWhile_cons_of_neg hc⟩
  | cons c cs ih =>
    rw [List.all_cons, Bool.and_eq_true] at hcs
    obtain ⟨htake, hdrop⟩ := ih hcs.2
    rw [List.cons_append, List.takeWhile_cons_of_pos hcs.1, List.dropWhile_cons_of_pos hcs.1,
      htake, hdrop]
    exact ⟨rfl, rfl⟩

theorem Scans.ident {cs rest : List Char} {signs : List Sign} (hcs : isIdent cs = true)
    (hepsilon : cs ≠ ['ε']) (hrest : Lexeme.goesOn rest = false) (h : Scans rest signs) :
    Scans (cs ++ rest) (⟨.ident, cs⟩ :: signs) := by
  cases cs with
  | nil => cases hcs
  | cons c cs =>
    simp only [isIdent, Bool.and_eq_true] at hcs
    obtain ⟨hstart, hall⟩ := hcs
    obtain ⟨htake, hdrop⟩ := takeWhile_isIdentRest hall hrest
    have hname : ¬(c = 'ε' ∧ Lexeme.goesOn (cs ++ rest) = false) := by
      rintro ⟨rfl, hgoes⟩
      cases cs with
      | nil => exact hepsilon rfl
      | cons d cs =>
        rw [List.all_cons, Bool.and_eq_true] at hall
        rw [List.cons_append, Lexeme.goesOn, hall.1] at hgoes
        cases hgoes
    have hfirst : Lexeme.first? c (cs ++ rest) = some ⟨some .ident, c :: cs, rest⟩ := by
      rw [Lexeme.first?_of_isIdentStart _ hstart, Lexeme.name, if_neg hname, Lexeme.run, htake,
        hdrop]
    exact .sign hfirst rfl h

theorem Scans.epsilon {rest : List Char} {signs : List Sign} (hrest : Lexeme.goesOn rest = false)
    (h : Scans rest signs) : Scans ('ε' :: rest) (⟨.epsilon, ['ε']⟩ :: signs) := by
  have hfirst : Lexeme.first? 'ε' rest = some ⟨some .epsilon, ['ε'], rest⟩ := by
    rw [Lexeme.first?_of_isIdentStart _ (by decide), Lexeme.name, if_pos ⟨rfl, hrest⟩]
  exact .sign hfirst rfl h

theorem Scans.quoted (cs : List Char) {rest : List Char} {signs : List Sign}
    (h : Scans rest signs) :
    Scans (Json.quoteChars cs ++ rest) (⟨.doubleQuoted, Json.quoteChars cs⟩ :: signs) := by
  have hfirst : Lexeme.first? '"' (cs.flatMap Json.escapeChar ++ '"' :: rest) =
      some ⟨some .doubleQuoted, Json.quoteChars cs, rest⟩ := by
    simp only [Lexeme.first?_doubleQuote, Lexeme.quoted?, Json.quotedEnd_escaped]
    rfl
  have htext : Json.quoteChars cs ++ rest = '"' :: (cs.flatMap Json.escapeChar ++ '"' :: rest) := by
    simp [Json.quoteChars]
  rw [htext]
  exact .sign hfirst rfl h

/-! ## Symbols -/

/-- The replacement character stands in no name, so a text with half of a pair is none. -/
theorem isWhole_of_isIdent {t : Text} (h : isIdent t.chars = true) : t.IsWhole := by
  intro n hn
  have hmem : '\uFFFD' ∈ t.chars := List.mem_map.2 ⟨.half n, hn, rfl⟩
  have hno : isIdentRest '\uFFFD' = false := by decide +kernel
  rw [isIdentRest_of_mem h hmem] at hno
  cases hno

theorem isBare_eq (t : Text) : isBare t = isIdent t.chars := by
  unfold isBare
  split
  · rename_i cs hcs
    rw [Text.eq_ofChars_of_chars? hcs, Text.chars_ofChars]
  · rename_i hnone
    refine (Bool.eq_false_iff.2 fun hident => ?_).symm
    rw [← Text.ofChars_chars (isWhole_of_isIdent hident), Text.chars?_ofChars] at hnone
    cases hnone

def quotedSign (t : Text) : Sign := ⟨.doubleQuoted, Json.quoteChars t.chars⟩

/-- The sign that a symbol is written as. -/
def symbolSign (s : Symbol) : Sign :=
  if s = Symbol.epsilon then ⟨.epsilon, ['ε']⟩
  else if isIdent s.text.chars then ⟨.ident, s.text.chars⟩
  else quotedSign s.text

theorem chars_symbolText (s : Symbol) : Text.chars (symbolText s) = (symbolSign s).chars := by
  unfold symbolText symbolSign
  rw [isBare_eq]
  split
  · rfl
  split
  · rfl
  · exact Json.chars_quote s.text

theorem isWhole_symbolText_iff {s : Symbol} : (symbolText s).IsWhole ↔ s.text.IsWhole := by
  unfold symbolText
  split
  · rename_i hs
    rw [hs]
    exact Iff.rfl
  split
  · exact Iff.rfl
  · exact Json.isWhole_quote_iff

theorem isSymbol_symbolSign (s : Symbol) : (symbolSign s).kind.isSymbol = true := by
  unfold symbolSign
  split
  · rfl
  split <;> rfl

section

variable [Host]

theorem decodes_quotedSign (t : Text) : (quotedSign t).Decodes :=
  fun _ => ⟨.ofChars t.chars, Json.decode_quoteChars _⟩

theorem symbol_quotedSign {t : Text} (h : t.IsWhole) : (quotedSign t).symbol = ⟨t⟩ := by
  simp only [Sign.symbol, quotedSign, Json.decode_quoteChars, Except.toOption, Option.getD_some,
    Text.ofChars_chars h]

theorem decodes_symbolSign (s : Symbol) : (symbolSign s).Decodes := by
  unfold symbolSign
  split
  · exact Sign.decodes_of_kind rfl
  split
  · exact Sign.decodes_of_kind rfl
  · exact decodes_quotedSign s.text

/-- The sign of a symbol stands for the symbol. -/
theorem symbol_symbolSign {s : Symbol} (h : s.text.IsWhole) : (symbolSign s).symbol = s := by
  obtain ⟨text⟩ := s
  unfold symbolSign
  split
  · rename_i hs
    rw [hs]
    rfl
  split
  · simp only [Sign.symbol, Text.ofChars_chars h]
  · exact symbol_quotedSign h

end

theorem Scans.symbol (s : Symbol) {rest : List Char} {signs : List Sign}
    (hrest : Lexeme.goesOn rest = false) (h : Scans rest signs) :
    Scans (Text.chars (symbolText s) ++ rest) (symbolSign s :: signs) := by
  rw [chars_symbolText]
  unfold symbolSign
  split
  · exact h.epsilon hrest
  rename_i hepsilon
  split
  · rename_i hident
    refine h.ident hident ?_ hrest
    intro hs
    obtain ⟨text⟩ := s
    have htext := Text.ofChars_chars (isWhole_of_isIdent hident)
    rw [show text.chars = ['ε'] from hs] at htext
    exact hepsilon (congrArg Symbol.mk htext.symm)
  · exact h.quoted s.text.chars

end PhraseGrammar.Notation
