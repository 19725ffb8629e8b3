import PhraseGrammar.Json.Reader
import PhraseGrammar.Json.Writer
import PhraseGrammar.Notation.Literal
import PhraseGrammar.Notation.Token
import PhraseGrammar.Proofs.Characters

/-!
# PhraseGrammar.Proofs.Escape

A text that is written as a JSON string is read back, by the JSON reader and by the notation.

* `EscapeForm`: the three ways to write a character. Each reader takes one such form at a time.
* `quoteChars`: the characters of a JSON string; half of a pair stands for itself in one.
* `readString_escaped`: the JSON reader.
* `quotedEnd_escaped`, `decode_quoteChars`: the scanner and the literal reader of the notation.

The two readers know different escapes; what the writer uses means the same to both.
-/

namespace PhraseGrammar.Json

open Notation (quotedEnd quotedEnd_self quotedEnd_of_ne quotedEnd_backslash)
open Notation.Literal (letterEscape? hexEscape? spanAtMost readHex decodeFrom decodeInside decode
  lineEnd? EscapeProblem)
open Text (hexDigit? hexValue? hexPadded notMem_intercalate_iff unifyNewlines_of_notMem)

/-- How the writer spells a character: as it is, by a letter, or by its number. -/
inductive EscapeForm : Char → List Char → Prop where
  | plain {c : Char} : c ≠ '"' → c ≠ '\\' → 0x20 ≤ c.toNat → EscapeForm c [c]
  | letter {c letter : Char} :
      letterEscape? letter = some c → simpleEscape? letter = some c →
      EscapeForm c ['\\', letter]
  | number {c w x y z : Char} :
      (∀ d ∈ [w, x, y, z], (hexDigit? d).isSome) → hexValue? [w, x, y, z] = some c.toNat →
      c.toNat < 0x20 → EscapeForm c ['\\', 'u', w, x, y, z]

theorem hexPadded_control {n : Nat} (h : n < 0x20) :
    ∃ w x y z, hexPadded 4 n = [w, x, y, z] ∧ (∀ d ∈ [w, x, y, z], (hexDigit? d).isSome) ∧
      hexValue? [w, x, y, z] = some n := by
  have hall : (List.range 0x20).all (fun n => (hexPadded 4 n).length == 4 &&
      (hexPadded 4 n).all (fun d => (hexDigit? d).isSome) &&
      hexValue? (hexPadded 4 n) == some n) = true := by
    decide +kernel
  have hn := List.all_eq_true.1 hall n (List.mem_range.2 h)
  simp only [Bool.and_eq_true, beq_iff_eq, List.all_eq_true] at hn
  obtain ⟨⟨hlength, hdigits⟩, hvalue⟩ := hn
  generalize hexPadded 4 n = ds at *
  match ds with
  | [w, x, y, z] => exact ⟨w, x, y, z, rfl, hdigits, hvalue⟩

theorem escapeForm (c : Char) : EscapeForm c (escapeChar c) := by
  unfold escapeChar
  split
  · rename_i h
    rcases h with rfl | rfl <;> exact .letter rfl rfl
  rename_i hquoted
  obtain ⟨hquote, hbackslash⟩ := not_or.1 hquoted
  split
  · subst c
    exact .letter rfl rfl
  split
  · subst c
    exact .letter rfl rfl
  split
  · subst c
    exact .letter rfl rfl
  split
  · subst c
    exact .letter rfl rfl
  split
  · subst c
    exact .letter rfl rfl
  split
  · rename_i hcontrol
    obtain ⟨w, x, y, z, hpadded, hdigits, hvalue⟩ := hexPadded_control hcontrol
    rw [hpadded]
    exact .number hdigits hvalue hcontrol
  · rename_i hcontrol
    exact .plain hquote hbackslash (Nat.le_of_not_lt hcontrol)

theorem isHighHalf_control {n : Nat} (h : n < 0x20) : isHighHalf n = false := by
  simp [isHighHalf]
  omega

theorem ofNat_control {c : Char} (h : c.toNat < 0x20) : CodePoint.ofNat c.toNat = .char c := by
  have hfirst : ¬(CodePoint.firstHalf ≤ c.toNat ∧ c.toNat - CodePoint.firstHalf < 0x800) := by
    simp only [CodePoint.firstHalf]
    omega
  rw [CodePoint.ofNat, dif_neg hfirst, Char.ofNat_toNat]

/-! ## The characters of a JSON string -/

def quoteChars (cs : List Char) : List Char := '"' :: cs.flatMap escapeChar ++ ['"']

theorem chars_escapePoint (p : CodePoint) : Text.chars (escapePoint p) = escapeChar p.standIn := by
  cases p with
  | char c => exact Text.chars_ofChars _
  | half n => rfl

theorem chars_quote (t : Text) : Text.chars (quote t) = quoteChars t.chars := by
  have hescaped : Text.chars (t.flatMap escapePoint) = t.chars.flatMap escapeChar := by
    induction t with
    | nil => rfl
    | cons p t ih =>
      rw [List.flatMap_cons, Text.chars_append, chars_escapePoint, ih, Text.chars_cons,
        List.flatMap_cons]
  rw [quote, Text.chars_append, Text.chars_cons, hescaped]
  rfl

/-- Half of a pair is written as it is. -/
theorem half_mem_quote_iff {n : Fin 0x800} {t : Text} :
    CodePoint.half n ∈ quote t ↔ CodePoint.half n ∈ t := by
  have hpoint : ∀ p, CodePoint.half n ∈ escapePoint p ↔ CodePoint.half n = p := by
    rintro (c | m)
    · exact iff_of_false (Text.isWhole_ofChars _ n) (by simp)
    · exact List.mem_singleton
  simp [quote, List.mem_flatMap, hpoint]

theorem isWhole_quote_iff {t : Text} : (quote t).IsWhole ↔ t.IsWhole :=
  forall_congr' fun _ => not_congr half_mem_quote_iff

/-! ## The JSON reader -/

/-- An escape of a control character is read as it is: a surrogate pair cannot begin with it. -/
theorem readUnicodeEscape_number {c w x y z e : Char} {rest : List Char}
    (hvalue : hexValue? [w, x, y, z] = some c.toNat) (hcontrol : c.toNat < 0x20) :
    readUnicodeEscape (w :: x :: y :: z :: e :: rest) = .ok (.char c, e :: rest) := by
  have hhex : readHex4 (w :: x :: y :: z :: e :: rest) = .ok (c.toNat, e :: rest) := by
    simp only [readHex4, hvalue]
  simp only [readUnicodeEscape, hhex, isHighHalf_control hcontrol, Bool.false_and,
    Bool.false_eq_true, if_false, ofNat_control hcontrol]
  split <;> rfl

theorem readString_step {opened fuel : Nat} {c : Char} {form rest after : List Char} {t : Text}
    (hform : EscapeForm c form) (h : readString opened fuel rest = .ok (t, after)) :
    readString opened (fuel + 1) (form ++ rest) = .ok (.char c :: t, after) := by
  cases hform with
  | plain hquote hbackslash hcontrol =>
    have hle : ¬c.toNat ≤ 0x1F := by omega
    rw [List.singleton_append]
    simp [readString, hbackslash, hle, h]
  | @letter letter _ hsimple =>
    -- the reader tries the number first
    have hu : letter ≠ 'u' := by
      rintro rfl
      cases hsimple
    rw [List.cons_append, List.singleton_append]
    simp only [readString, hsimple, h]
  | number hdigits hvalue hcontrol =>
    cases rest with
    | nil => cases fuel <;> cases h
    | cons e rest =>
      simp only [List.cons_append, List.nil_append]
      simp only [readString, readUnicodeEscape_number hvalue hcontrol, h]

theorem readString_escaped (opened : Nat) (cs rest : List Char) {fuel : Nat}
    (h : cs.length < fuel) :
    readString opened fuel (cs.flatMap escapeChar ++ '"' :: rest) =
      .ok (Text.ofChars cs, rest) := by
  induction cs generalizing fuel with
  | nil =>
    obtain ⟨fuel, rfl⟩ : ∃ n, fuel = n + 1 := ⟨fuel - 1, by simp at h; omega⟩
    rfl
  | cons c cs ih =>
    rw [List.length_cons] at h
    obtain ⟨fuel, rfl⟩ : ∃ n, fuel = n + 1 := ⟨fuel - 1, by omega⟩
    rw [List.flatMap_cons, List.append_assoc]
    exact readString_step (escapeForm c) (ih (by omega))

/-! ## The notation -/

theorem quotedEnd_step {c : Char} {form rest body after : List Char} (hform : EscapeForm c form)
    (h : quotedEnd '"' rest = some (body, after)) :
    quotedEnd '"' (form ++ rest) = some (form ++ body, after) := by
  have hdigit : ∀ d, (hexDigit? d).isSome → d ≠ '"' ∧ d ≠ '\\' := by
    rintro d hd
    constructor <;> rintro rfl <;> cases hd
  cases hform with
  | plain hquote hbackslash _ => exact quotedEnd_of_ne hquote hbackslash h
  | letter _ _ => exact quotedEnd_backslash (by decide) h
  | @number w x y z hdigits _ _ =>
    obtain ⟨hw, hw'⟩ := hdigit w (hdigits w (by simp))
    obtain ⟨hx, hx'⟩ := hdigit x (hdigits x (by simp))
    obtain ⟨hy, hy'⟩ := hdigit y (hdigits y (by simp))
    obtain ⟨hz, hz'⟩ := hdigit z (hdigits z (by simp))
    have hrest := quotedEnd_of_ne hx hx' (quotedEnd_of_ne hy hy' (quotedEnd_of_ne hz hz' h))
    exact quotedEnd_backslash (by decide) (quotedEnd_of_ne hw hw' hrest)

/-- The scanner takes a quoted text up to its closing quote. -/
theorem quotedEnd_escaped (cs rest : List Char) :
    quotedEnd '"' (cs.flatMap escapeChar ++ '"' :: rest) =
      some (cs.flatMap escapeChar ++ ['"'], rest) := by
  induction cs with
  | nil => exact quotedEnd_self '"' rest
  | cons c cs ih =>
    rw [List.flatMap_cons, List.append_assoc, List.append_assoc]
    exact quotedEnd_step (escapeForm c) ih

theorem readHex_number {c w x y z : Char} {first : Nat} {short : EscapeProblem}
    (hdigits : ∀ d ∈ [w, x, y, z], (hexDigit? d).isSome)
    (hvalue : hexValue? [w, x, y, z] = some c.toNat) (hcontrol : c.toNat < 0x20)
    (rest : List Char) :
    readHex first 4 short (w :: x :: y :: z :: rest) = .ok (.char c, rest) := by
  have hspan : spanAtMost (fun d => (hexDigit? d).isSome) 4 (w :: x :: y :: z :: rest) =
      ([w, x, y, z], rest) := by
    simp only [spanAtMost, hdigits w (by simp), hdigits x (by simp), hdigits y (by simp),
      hdigits z (by simp), if_true]
  have hbound : ¬0x10FFFF < c.toNat := by omega
  simp only [readHex, hspan, hvalue, Option.getD_some, ofNat_control hcontrol]
  rw [if_neg (by simp), if_neg hbound]

section

variable [Host]

theorem decodeFrom_step {fuel : Nat} {c : Char} {form rest : List Char} {t : Text}
    (hform : EscapeForm c form) (h : ∀ offset, decodeFrom offset fuel rest = .ok t)
    (offset : Nat) : decodeFrom offset (fuel + 1) (form ++ rest) = .ok (.char c :: t) := by
  cases hform with
  | plain _ hbackslash _ =>
    rw [List.singleton_append]
    simp [decodeFrom, hbackslash, h, Except.map]
  | @letter letter hletter _ =>
    have hline : letter ≠ '\n' := by
      rintro rfl
      cases hletter
    rw [List.cons_append, List.singleton_append]
    simp only [decodeFrom, if_neg hline, hletter, h]
    rfl
  | number hdigits hvalue hcontrol =>
    simp only [List.cons_append, List.nil_append]
    have hletter : letterEscape? 'u' = none := rfl
    have hhex : hexEscape? 'u' = some (4, .shortHex4) := rfl
    have hline : 'u' ≠ '\n' := by decide
    simp only [decodeFrom, if_neg hline, hletter, hhex, readHex_number hdigits hvalue hcontrol, h]
    rfl

theorem decodeFrom_escaped (cs : List Char) {fuel : Nat} (h : cs.length ≤ fuel) (offset : Nat) :
    decodeFrom offset fuel (cs.flatMap escapeChar) = .ok (Text.ofChars cs) := by
  induction cs generalizing fuel offset with
  | nil => cases fuel <;> rfl
  | cons c cs ih =>
    rw [List.length_cons] at h
    obtain ⟨fuel, rfl⟩ : ∃ n, fuel = n + 1 := ⟨fuel - 1, by omega⟩
    rw [List.flatMap_cons]
    exact decodeFrom_step (escapeForm c) (fun offset => ih (by omega) offset) offset

end

/-! ## No control character is left as it is -/

theorem not_control_of_le {c d : Char} (hc : 0x20 ≤ c.toNat) (h : c ≤ d) : 0x20 ≤ d.toNat := by
  have hle : c.toNat ≤ d.toNat := h
  omega

theorem not_control_of_hexDigit {d : Char} (h : (hexDigit? d).isSome) : 0x20 ≤ d.toNat := by
  unfold hexDigit? at h
  split at h
  · rename_i hd
    exact not_control_of_le (by decide) hd.1
  split at h
  · rename_i hd
    exact not_control_of_le (by decide) hd.1
  split at h
  · rename_i hd
    exact not_control_of_le (by decide) hd.1
  · cases h

theorem not_control_of_letterEscape {letter c : Char} (h : letterEscape? letter = some c) :
    0x20 ≤ letter.toNat := by
  unfold letterEscape? at h
  split at h <;> first | decide | cases h

theorem EscapeForm.not_control {c d : Char} {form : List Char} (h : EscapeForm c form)
    (hd : d ∈ form) : 0x20 ≤ d.toNat := by
  cases h with
  | plain _ _ hcontrol =>
    rw [List.mem_singleton.1 hd]
    exact hcontrol
  | letter hletter _ =>
    rcases List.mem_cons.1 hd with rfl | hd
    · decide
    · rw [List.mem_singleton.1 hd]
      exact not_control_of_letterEscape hletter
  | number hdigits _ _ =>
    rcases List.mem_cons.1 hd with rfl | hd
    · decide
    rcases List.mem_cons.1 hd with rfl | hd
    · decide
    · exact not_control_of_hexDigit (hdigits d hd)

theorem not_control_of_escaped {cs : List Char} {d : Char} (hd : d ∈ cs.flatMap escapeChar) :
    0x20 ≤ d.toNat := by
  obtain ⟨c, _, hform⟩ := List.mem_flatMap.1 hd
  exact (escapeForm c).not_control hform

theorem return_notMem_escaped (cs : List Char) : '\r' ∉ cs.flatMap escapeChar := by
  intro h
  exact absurd (not_control_of_escaped h) (by decide)

theorem not_control_of_quoteChars {cs : List Char} {d : Char} (hd : d ∈ quoteChars cs) :
    0x20 ≤ d.toNat := by
  simp only [quoteChars, List.mem_cons, List.mem_append, List.not_mem_nil, or_false] at hd
  rcases hd with (rfl | hd) | rfl
  · decide
  · exact not_control_of_escaped hd
  · decide

theorem return_notMem_quoteChars (cs : List Char) : '\r' ∉ quoteChars cs := by
  intro h
  exact absurd (not_control_of_quoteChars h) (by decide)

theorem not_control_of_intercalate {separator : List Char} {items : List (List Char)}
    (hseparator : ∀ d ∈ separator, 0x20 ≤ d.toNat)
    (h : ∀ item ∈ items, ∀ d ∈ item, 0x20 ≤ d.toNat) :
    ∀ d ∈ separator.intercalate items, 0x20 ≤ d.toNat := by
  intro d hd
  refine Decidable.byContradiction fun hcontrol => ?_
  exact (notMem_intercalate_iff fun hmem => hcontrol (hseparator d hmem)).2
    (fun item hitem hmem => hcontrol (h item hitem d hmem)) hd

theorem lineEnd?_of_not_control {line : Nat} {cs : List Char} (h : ∀ d ∈ cs, 0x20 ≤ d.toNat) :
    lineEnd? line cs = none := by
  fun_induction lineEnd? line cs with
  | case1 => rfl
  | case2 line rest _ => exact absurd (h '\n' (by simp)) (by decide)
  | case3 line d rest _ ih =>
    exact ih fun e he => h e (List.mem_cons_of_mem _ (List.mem_cons_of_mem _ he))
  | case4 line rest => exact absurd (h '\n' List.mem_cons_self) (by decide)
  | case5 line d rest _ _ _ ih => exact ih fun e he => h e (List.mem_cons_of_mem _ he)

theorem escaped_eq_of_no_backslash {cs : List Char} (h : '\\' ∉ cs.flatMap escapeChar) :
    cs.flatMap escapeChar = cs := by
  induction cs with
  | nil => rfl
  | cons c cs ih =>
    rw [List.flatMap_cons, List.mem_append, not_or] at h
    have hform : escapeChar c = [c] := by
      have hc := escapeForm c
      generalize escapeChar c = form at h hc
      cases hc with
      | plain => rfl
      | letter => exact absurd List.mem_cons_self h.1
      | number => exact absurd List.mem_cons_self h.1
    rw [List.flatMap_cons, hform, ih h.2]
    rfl

theorem EscapeForm.length_pos {c : Char} {form : List Char} (h : EscapeForm c form) :
    0 < form.length := by
  cases h <;> simp

theorem length_le_escaped (cs : List Char) : cs.length ≤ (cs.flatMap escapeChar).length := by
  induction cs with
  | nil => exact Nat.le_refl _
  | cons c cs ih =>
    have hform := (escapeForm c).length_pos
    rw [List.flatMap_cons, List.length_append, List.length_cons]
    omega

section

variable [Host]

theorem decodeInside_escaped (cs : List Char) :
    decodeInside (cs.flatMap escapeChar) = .ok (Text.ofChars cs) := by
  have hline : lineEnd? 1 (cs.flatMap escapeChar) = none :=
    lineEnd?_of_not_control fun d hd => not_control_of_escaped hd
  have hdecode := decodeFrom_escaped cs (length_le_escaped cs) 0
  unfold decodeInside
  rw [hline]
  simp only
  split
  · rw [hdecode]
  · rename_i hplain
    rw [escaped_eq_of_no_backslash fun h => hplain (List.contains_iff_mem.2 h)]

/-- The literal reader of the notation gives back a text that is written as a JSON string. -/
theorem decode_quoteChars (cs : List Char) : decode (quoteChars cs) = .ok (Text.ofChars cs) := by
  have hinside : ((quoteChars cs).drop 1).dropLast = cs.flatMap escapeChar := by
    simp [quoteChars]
  have hnul : (quoteChars cs).contains '\x00' = false := by
    rw [List.contains_eq_mem, decide_eq_false_iff_not]
    intro h
    rcases List.mem_append.1 h with h | h
    · rcases List.mem_cons.1 h with h | h
      · cases h
      · exact absurd (not_control_of_escaped h) (by decide)
    · cases List.mem_singleton.1 h
  unfold decode
  rw [hnul, hinside, unifyNewlines_of_notMem (return_notMem_escaped cs)]
  exact decodeInside_escaped cs

end

end PhraseGrammar.Json
