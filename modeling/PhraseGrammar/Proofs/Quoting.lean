import Mathlib.Data.List.Forall2
import PhraseGrammar.Proofs.Printing
import PhraseGrammar.Proofs.Tokens

/-!
# PhraseGrammar.Proofs.Quoting

How single symbols are written, and which of them need quotes.

* `Token.Writes`: a token that is printed for a symbol and read as that symbol.
* `symbolText_eq_text_iff`: a symbol is written without quotes exactly if its text is a name.
* `scan_name_iff`: the texts that are names are those in which the scanner finds one name.

`scan_symbolTexts` says what is found in the texts of symbols, and that none is quoted needlessly.
-/

namespace PhraseGrammar.Notation

section

variable [Host]

/-- A token that is printed for a symbol, and is read as that symbol. -/
structure Token.Writes (t : Token) (s : Symbol) : Prop where
  kind : t.kind = .ident ∨ t.kind = .doubleQuoted ∨ t.kind = .epsilon
  symbol : t.symbol = .ok s

end

theorem kind_symbolSign (s : Symbol) : (symbolSign s).kind = .ident ∨
    (symbolSign s).kind = .doubleQuoted ∨ (symbolSign s).kind = .epsilon := by
  unfold symbolSign
  split
  · exact .inr (.inr rfl)
  split
  · exact .inl rfl
  · exact .inr (.inl rfl)

section

variable [Host]

theorem Token.writes_of_sign {t : Token} {s : Symbol} (hs : s.text.IsWhole)
    (h : t.sign = symbolSign s) : t.Writes s := by
  have hdecodes : t.sign.Decodes := by
    rw [h]
    exact decodes_symbolSign s
  constructor
  case kind =>
    have hkind : t.kind = (symbolSign s).kind := congrArg Sign.kind h
    rw [hkind]
    exact kind_symbolSign s
  case symbol => rw [Token.symbol_of_decodes hdecodes, h, symbol_symbolSign hs]

/-- Tokens with the signs of symbols are printed for these, one for each. -/
theorem writes_of_signs {ts : List Token} {symbols : List Symbol}
    (hsymbols : ∀ s ∈ symbols, s.text.IsWhole)
    (h : ts.map Token.sign = symbols.map symbolSign) : List.Forall₂ Token.Writes ts symbols := by
  induction symbols generalizing ts with
  | nil =>
    rw [List.map_eq_nil_iff.1 h]
    exact .nil
  | cons s symbols ih =>
    obtain ⟨hs, hsymbols⟩ := List.forall_mem_cons.1 hsymbols
    obtain ⟨t, ts, rfl, ht, hts⟩ := List.map_eq_cons_iff.1 h
    exact .cons (Token.writes_of_sign hs ht) (ih hsymbols hts)

end

/-! ## Names -/

theorem quote_ne_self (t : Text) : Json.quote t ≠ t := by
  intro h
  have hlength := congrArg (fun t : Text => t.chars.length) h
  have hle := Json.length_le_escaped t.chars
  simp only [Json.chars_quote, Json.quoteChars, List.length_append, List.length_cons,
    List.length_nil] at hlength
  omega

theorem symbolText_eq_text_iff {s : Symbol} (h : s ≠ .epsilon) :
    symbolText s = s.text ↔ isBare s.text = true := by
  unfold symbolText
  rw [if_neg h]
  split
  · rename_i hbare
    exact iff_of_true rfl hbare
  · rename_i hbare
    exact iff_of_false (quote_ne_self s.text) hbare

theorem isBare_iff {t : Text} :
    isBare t = true ↔ ∃ text : String, t = text ∧ isIdent text.toList = true := by
  rw [isBare_eq]
  constructor
  · intro h
    refine ⟨_, (Text.ofString_chars (isWhole_of_isIdent h)).symm, ?_⟩
    rwa [String.toList_ofList]
  · rintro ⟨text, rfl, h⟩
    rwa [Text.chars_ofString]

theorem scan_name_iff {cs : List Char} :
    (∃ s, scan cs = .ok s ∧ s.tokens.map Token.sign = [⟨.ident, cs⟩]) ↔
      isIdent cs = true ∧ cs ≠ ['ε'] := by
  constructor
  · rintro ⟨s, hs, hsigns⟩
    obtain ⟨t, _, htokens, ht, -⟩ := List.map_eq_cons_iff.1 hsigns
    have hshape := ((exact_of_scan_ok hs).tokens.longest t (htokens ▸ List.mem_cons_self)).shape
    have hkind : t.kind = .ident := congrArg Sign.kind ht
    have hlexeme : t.lexeme = cs := congrArg Sign.chars ht
    rw [hkind, hlexeme] at hshape
    cases hshape with
    | ident hident hepsilon => exact ⟨hident, hepsilon⟩
  · rintro ⟨hident, hepsilon⟩
    have hscans : Scans (cs ++ []) [⟨.ident, cs⟩] := Scans.nil.ident hident hepsilon rfl
    rw [List.append_nil] at hscans
    exact scan_of_scans hscans

section

variable [Host]

/-- **Quoting.** In the texts of symbols with blanks between them the scanner finds one token for
each, from which the symbol is read. A symbol other than `ε` is written as it is exactly if its text
alone is one name to the scanner, with the end behind it. -/
theorem scan_symbolTexts :
    (∀ symbols : List Symbol, (∀ s ∈ symbols, s.text.IsWhole) →
      ∃ source : String, List.intercalate (Text.ofString " ") (symbols.map symbolText) = source ∧
        ∃ s, scan source.toList = .ok s ∧ List.Forall₂ Token.Writes s.tokens symbols) ∧
    ∀ s : Symbol, s ≠ .epsilon → (symbolText s = s.text ↔
      ∃ source : String, s.text = source ∧ ∃ found, scan source.toList = .ok found ∧
        (found.tokens ++ [found.eof]).map Token.sign = [⟨.ident, source.toList⟩, ⟨.eof, []⟩]) := by
  constructor
  · intro symbols hsymbols
    have hwhole : Text.IsWhole (List.intercalate (Text.ofString " ") (symbols.map symbolText)) := by
      simpa [Text.isWhole_intercalate_iff, Text.isWhole_ofString, isWhole_symbolText_iff]
        using hsymbols
    refine ⟨_, (Text.ofString_chars hwhole).symm, ?_⟩
    rw [String.toList_ofList]
    have hscans := Scans.nil.spaced rfl symbols
    rw [List.append_nil, List.append_nil] at hscans
    obtain ⟨s, hs, hsigns⟩ := scan_of_scans hscans
    exact ⟨s, hs, writes_of_signs hsymbols hsigns⟩
  · intro s hs
    have hend : ∀ (source : String) (found : Scan), (found.tokens ++ [found.eof]).map Token.sign =
        [⟨.ident, source.toList⟩] ++ [⟨.eof, []⟩] ↔
          found.tokens.map Token.sign = [⟨.ident, source.toList⟩] := by
      intro source found
      rw [List.map_append]
      exact List.append_left_inj [found.eof.sign]
    simp only [List.singleton_append] at hend
    simp only [hend, scan_name_iff]
    rw [symbolText_eq_text_iff hs, isBare_iff]
    refine exists_congr fun source => and_congr_right fun hsource => (and_iff_left ?_).symm
    intro hepsilon
    exact hs (congrArg Symbol.mk (hsource.trans (congrArg Text.ofChars hepsilon)))

end

section

open scoped Host

/-- Texts without letters, with letters that the notation reserves, and a name that begins with
`ε`. -/
def reservedTexts : List Symbol := [⟨""⟩, .epsilon, ⟨"εx'"⟩, ⟨"'"⟩, ⟨"a\\\"//\n"⟩, ⟨"ε ε"⟩]

theorem scan_symbolTexts_reservedTexts :
    (∃ s, scan "\"\" ε εx' \"'\" \"a\\\\\\\"//\\n\" \"ε ε\"".toList = .ok s ∧
      List.Forall₂ Token.Writes s.tokens reservedTexts) ∧
    (⟨"εx'"⟩ : Symbol) ≠ .epsilon ∧ symbolText ⟨"εx'"⟩ = "εx'" ∧
      ∃ found, scan "εx'".toList = .ok found ∧
        (found.tokens ++ [found.eof]).map Token.sign =
          [⟨.ident, ['ε', 'x', '\'']⟩, ⟨.eof, []⟩] := by
  have hprinted : List.intercalate (Text.ofString " ") (reservedTexts.map symbolText) =
      "\"\" ε εx' \"'\" \"a\\\\\\\"//\\n\" \"ε ε\"" := by
    decide +kernel
  have hne : (⟨"εx'"⟩ : Symbol) ≠ .epsilon := by decide
  have hbare : symbolText ⟨"εx'"⟩ = "εx'" := by decide +kernel
  obtain ⟨source, hsource, hall⟩ := scan_symbolTexts.1 reservedTexts (by decide +kernel)
  obtain ⟨alone, halone, hfound⟩ := (scan_symbolTexts.2 ⟨"εx'"⟩ hne).1 hbare
  rw [← Text.ofString_injective (hprinted.symm.trans hsource)] at hall
  rw [← Text.ofString_injective halone] at hfound
  exact ⟨hall, hne, hbare, hfound⟩

end

end PhraseGrammar.Notation
