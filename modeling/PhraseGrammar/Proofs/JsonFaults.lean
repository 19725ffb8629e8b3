import Mathlib.Data.List.TakeDrop
import Mathlib.Data.List.TakeWhile
import PhraseGrammar.Json.Reader

/-!
# PhraseGrammar.Proofs.JsonFaults

What the readers of JSON text leave, which integers they refuse, and where there is no room.

* `Within`: a reading leaves an end of its text, and an integer that is too long for it stands in
  the text.
* `OpensMany`: the text opens many lists and objects, by the calls that there is room for.
* `readString_within`, …, `readValue_within`: every reader is like that.

`huge_of_read`: a text that is refused for an integer holds more digits in a row than the limit.
`opensMany_of_read`: one for which there is no room opens many lists and objects.
-/

namespace PhraseGrammar.Json

/-- The text holds that many digits in a row, more than an integer may have. -/
def HoldsHugeInteger (cs : List Char) (n : Nat) : Prop :=
  ∃ digits, digits <:+: cs ∧ (∀ c ∈ digits, c.isDigit = true) ∧ digits.length = n ∧ integerLimit < n

def isOpener (c : Char) : Bool := c == '[' || c == '\x7b'

/-- The text opens almost as many lists and objects as there is room for calls. What is missing are
the calls that it takes to raise a problem. -/
def OpensMany (cs : List Char) (calls : Nat) : Prop := calls ≤ cs.countP isOpener + 2

/-- The reading leaves an end of the text, and an integer that is too long for it is in the text. If
there is no room for it, the text is deep. -/
inductive Within {α : Type} (cs : List Char) (deep : Prop) : Reading α → Prop where
  | ok {a : α} {rest : List Char} : rest <:+ cs → Within cs deep (.ok (a, rest))
  | problem (p : Problem) (left : Nat) : Within cs deep (.error (.problem p left))
  | hugeInteger {n : Nat} : HoldsHugeInteger cs n → Within cs deep (.error (.hugeInteger n))
  | tooDeep : deep → Within cs deep (.error .tooDeep)

section

variable {α β : Type} {cs ds : List Char} {deep : Prop}

theorem HoldsHugeInteger.mono {n : Nat} (hsuffix : ds <:+ cs) (h : HoldsHugeInteger ds n) :
    HoldsHugeInteger cs n := by
  obtain ⟨digits, hinfix, hdigits, hlength⟩ := h
  exact ⟨digits, hinfix.trans hsuffix.isInfix, hdigits, hlength⟩

theorem OpensMany.mono {calls : Nat} (hsuffix : ds <:+ cs) (h : OpensMany ds calls) :
    OpensMany cs calls :=
  h.trans (Nat.add_le_add_right (hsuffix.sublist.countP_le) 2)

/-- A list or an object that is opened takes a call. -/
theorem OpensMany.cons {calls : Nat} {c : Char} (hc : isOpener c = true)
    (h : OpensMany cs (calls - 1)) : OpensMany (c :: cs) calls := by
  unfold OpensMany at h ⊢
  rw [List.countP_cons_of_pos hc]
  omega

theorem Within.mono {deeper : Prop} (hsuffix : ds <:+ cs) (hdeep : deep → deeper) {r : Reading α}
    (h : Within ds deep r) : Within cs deeper r := by
  cases h with
  | ok hrest => exact .ok (hrest.trans hsuffix)
  | problem p left => exact .problem p left
  | hugeInteger hdigits => exact .hugeInteger (hdigits.mono hsuffix)
  | tooDeep h => exact .tooDeep (hdeep h)

theorem Within.of_error {r : Reading α} {e : Fault} (h : Within cs deep r) (he : r = .error e) :
    Within cs deep (.error e : Reading β) := by
  cases h with
  | ok hrest => cases he
  | problem p left =>
    cases he
    exact .problem p left
  | hugeInteger hdigits =>
    cases he
    exact .hugeInteger hdigits
  | tooDeep h =>
    cases he
    exact .tooDeep h

theorem Within.of_ok {r : Reading α} {a : α} {rest : List Char} (h : Within cs deep r)
    (ha : r = .ok (a, rest)) : rest <:+ cs := by
  cases h with
  | ok hrest =>
    cases ha
    exact hrest
  | problem p left => cases ha
  | hugeInteger hdigits => cases ha
  | tooDeep h => cases ha

theorem within_failAt (p : Problem) (rest : List Char) :
    Within cs deep (failAt p rest : Reading α) :=
  .problem p rest.length

theorem Problem.calls_le (p : Problem) : p.calls ≤ 3 := by
  cases p <;> decide

/-- A problem for which there is no room leaves at most two calls. -/
theorem within_fault (calls : Nat) (p : Problem) (left : Nat) :
    Within cs (OpensMany cs calls) (.error ((Fault.problem p left).within calls) : Reading α) := by
  unfold Fault.within
  simp only
  split
  · rename_i hcalls
    have hle := p.calls_le
    refine .tooDeep ?_
    unfold OpensMany
    omega
  · exact .problem p left

theorem within_failWithin (calls : Nat) (p : Problem) (rest : List Char) :
    Within cs (OpensMany cs calls) (failWithin calls p rest : Reading α) :=
  within_fault calls p rest.length

end

theorem skipSpace_suffix (cs : List Char) : skipSpace cs <:+ cs := List.dropWhile_suffix isSpace

/-! ## Strings -/

theorem readHex4_within (cs : List Char) : Within cs False (readHex4 cs) := by
  unfold readHex4
  split
  · rename_i a b c d e rest
    split
    · exact .ok ⟨[a, b, c, d], rfl⟩
    · exact .problem ..
  · exact .problem ..

theorem readUnicodeEscape_within (cs : List Char) : Within cs False (readUnicodeEscape cs) := by
  unfold readUnicodeEscape
  split
  · rename_i e he
    exact (readHex4_within cs).of_error he
  rename_i high rest hhigh
  have hrest : rest <:+ cs := (readHex4_within cs).of_ok hhigh
  split
  · rename_i more
    have hmore : more <:+ cs := (List.suffix_append ['\\', 'u'] more).trans hrest
    split
    · split
      · rename_i e he
        exact ((readHex4_within more).of_error he).mono hmore id
      · rename_i low afterPair hlow
        split
        · exact .ok (((readHex4_within more).of_ok hlow).trans hmore)
        · exact .ok hrest
    · exact .ok hrest
  · exact .ok hrest

theorem readString_within (opened fuel : Nat) (cs : List Char) :
    Within cs False (readString opened fuel cs) := by
  fun_induction readString opened fuel cs with
  | case1 => exact .problem ..
  | case2 => exact .problem ..
  | case3 _ rest => exact .ok (List.suffix_cons '"' rest)
  | case4 => exact .problem ..
  | case5 _ rest e he =>
    have hrest : rest <:+ '\\' :: 'u' :: rest := List.suffix_append ['\\', 'u'] rest
    exact ((readUnicodeEscape_within rest).of_error he).mono hrest id
  | case6 _ rest c after hc e he ih =>
    have hafter : after <:+ rest := (readUnicodeEscape_within rest).of_ok hc
    exact (ih.of_error he).mono (hafter.trans (List.suffix_append ['\\', 'u'] rest)) id
  | case7 _ rest c after hc text left htext ih =>
    have hafter : after <:+ rest := (readUnicodeEscape_within rest).of_ok hc
    exact .ok ((ih.of_ok htext).trans (hafter.trans (List.suffix_append ['\\', 'u'] rest)))
  | case8 => exact within_failAt ..
  | case9 _ letter rest _ c _ e he ih =>
    exact (ih.of_error he).mono (List.suffix_append ['\\', letter] rest) id
  | case10 _ letter rest _ c _ text left htext ih =>
    exact .ok ((ih.of_ok htext).trans (List.suffix_append ['\\', letter] rest))
  | case11 => exact within_failAt ..
  | case12 _ c rest _ _ _ _ _ e he ih => exact (ih.of_error he).mono (List.suffix_cons c rest) id
  | case13 _ c rest _ _ _ _ _ text left htext ih =>
    exact .ok ((ih.of_ok htext).trans (List.suffix_cons c rest))

theorem readQuoted_within (calls : Nat) (rest : List Char) :
    Within rest (OpensMany rest calls) (readQuoted calls rest) := by
  have hstring := readString_within (rest.length + 1) (rest.length + 1) rest
  unfold readQuoted
  cases hread : readString (rest.length + 1) (rest.length + 1) rest with
  | ok r =>
    rw [hread] at hstring
    exact hstring.mono (List.suffix_refl rest) False.elim
  | error e =>
    rw [hread] at hstring
    cases hstring with
    | problem p left => exact within_fault calls p left
    | hugeInteger hdigits => exact .hugeInteger hdigits
    | tooDeep h => exact h.elim

/-! ## Numbers -/

section

variable {cs digits rest : List Char}

theorem append_of_spanDigits (h : spanDigits cs = (digits, rest)) : digits ++ rest = cs := by
  rw [spanDigits, List.span_eq_takeWhile_dropWhile] at h
  cases h
  exact List.takeWhile_append_dropWhile

theorem isDigit_of_spanDigits (h : spanDigits cs = (digits, rest)) :
    ∀ c ∈ digits, c.isDigit = true := by
  rw [spanDigits, List.span_eq_takeWhile_dropWhile] at h
  cases h
  exact fun c hc => List.mem_takeWhile_imp hc

theorem suffix_of_spanDigits (h : spanDigits cs = (digits, rest)) : rest <:+ cs :=
  ⟨digits, append_of_spanDigits h⟩

theorem append_of_readIntegerDigits (h : readIntegerDigits cs = (digits, rest)) :
    digits ++ rest = cs := by
  unfold readIntegerDigits at h
  split at h
  · cases h
    rfl
  · exact append_of_spanDigits h

theorem isDigit_of_readIntegerDigits (h : readIntegerDigits cs = (digits, rest)) :
    ∀ c ∈ digits, c.isDigit = true := by
  unfold readIntegerDigits at h
  split at h
  · cases h
    exact List.forall_mem_singleton.2 rfl
  · exact isDigit_of_spanDigits h

end

theorem readFraction_suffix (cs : List Char) : (readFraction cs).2 <:+ cs := by
  unfold readFraction
  split
  · rename_i rest
    split
    · exact List.suffix_refl _
    · rename_i hspan
      exact (suffix_of_spanDigits hspan).trans (List.suffix_cons '.' rest)
  · exact List.suffix_refl cs

theorem readExponent_suffix (cs : List Char) : (readExponent cs).2 <:+ cs := by
  unfold readExponent
  cases cs with
  | nil => exact List.suffix_refl []
  | cons e rest =>
    simp only
    split
    · split
      · rename_i rest
        split
        · exact List.suffix_refl _
        · rename_i hspan
          exact (suffix_of_spanDigits hspan).trans (List.suffix_append [e, '-'] rest)
      · rename_i rest
        split
        · exact List.suffix_refl _
        · rename_i hspan
          exact (suffix_of_spanDigits hspan).trans (List.suffix_append [e, '+'] rest)
      · split
        · exact List.suffix_refl _
        · rename_i hspan
          exact (suffix_of_spanDigits hspan).trans (List.suffix_cons e rest)
    · exact List.suffix_refl _

theorem readNumber_within (cs : List Char) : Within cs False (readNumber cs) := by
  unfold readNumber
  simp only
  split
  · exact within_failAt ..
  rename_i whole rest _ hwhole
  -- What is read stands behind a sign, if there is one.
  have hafter : whole ++ rest <:+ cs := by
    rw [append_of_readIntegerDigits hwhole]
    split
    · rename_i rest
      exact List.suffix_cons '-' rest
    · exact List.suffix_refl cs
  have hrest : (readExponent (readFraction rest).2).2 <:+ cs :=
    ((readExponent_suffix _).trans (readFraction_suffix rest)).trans
      ((List.suffix_append whole rest).trans hafter)
  split
  · split
    · rename_i hhuge
      have hinfix : whole <:+: cs := (List.prefix_append whole rest).isInfix.trans hafter.isInfix
      exact .hugeInteger ⟨whole, hinfix, isDigit_of_readIntegerDigits hwhole, rfl, hhuge⟩
    · exact .ok hrest
  · exact .ok hrest

theorem literalCalls_le (v : Value) : literalCalls v ≤ 1 := by
  cases v <;> simp [literalCalls]

theorem readScalar_within (calls : Nat) (cs : List Char) :
    Within cs (OpensMany cs calls) (readScalar calls cs) := by
  unfold readScalar
  split
  · rename_i word v _
    split
    · rename_i hcalls
      have hle := literalCalls_le v
      refine .tooDeep ?_
      unfold OpensMany
      omega
    · exact .ok (List.drop_suffix _ cs)
  · exact (readNumber_within cs).mono (List.suffix_refl cs) False.elim

/-! ## Values -/

section

variable {fuel : Nat}
  (hvalue : ∀ calls cs, Within cs (OpensMany cs calls) (readValue calls fuel cs))
  (helements : ∀ calls cs, Within cs (OpensMany cs calls) (readElements calls fuel cs))
  (hfields : ∀ calls fields cs, Within cs (OpensMany cs calls) (readFields calls fuel fields cs))

include hvalue helements in
theorem readElements_within_succ (calls : Nat) (cs : List Char) :
    Within cs (OpensMany cs calls) (readElements calls (fuel + 1) cs) := by
  unfold readElements
  split
  · rename_i e he
    exact (hvalue calls cs).of_error he
  rename_i v rest hv
  have hrest : rest <:+ cs := (hvalue calls cs).of_ok hv
  have hspace : skipSpace rest <:+ cs := (skipSpace_suffix rest).trans hrest
  split
  · rename_i after hafter
    rw [hafter] at hspace
    exact .ok ((List.suffix_cons ']' after).trans hspace)
  · rename_i after hafter
    rw [hafter] at hspace
    have hnext : skipSpace after <:+ cs :=
      (skipSpace_suffix after).trans ((List.suffix_cons ',' after).trans hspace)
    split
    · rename_i e he
      exact ((helements calls _).of_error he).mono hnext (.mono hnext)
    · rename_i vs left hvs
      exact .ok (((helements calls _).of_ok hvs).trans hnext)
  · exact within_failWithin ..

include hvalue hfields in
theorem readFields_within_succ (calls : Nat) (fields : List (Text × Value)) (cs : List Char) :
    Within cs (OpensMany cs calls) (readFields calls (fuel + 1) fields cs) := by
  unfold readFields
  split
  swap
  · exact within_failWithin ..
  rename_i opened
  have hopened : opened <:+ '"' :: opened := List.suffix_cons '"' opened
  split
  · rename_i e he
    exact ((readQuoted_within calls opened).of_error he).mono hopened (.mono hopened)
  rename_i name rest hname
  have hrest : rest <:+ '"' :: opened :=
    ((readQuoted_within calls opened).of_ok hname).trans hopened
  have hspace : skipSpace rest <:+ '"' :: opened := (skipSpace_suffix rest).trans hrest
  split
  swap
  · exact within_failWithin ..
  rename_i colon hcolon
  rw [hcolon] at hspace
  have hfield : skipSpace colon <:+ '"' :: opened :=
    (skipSpace_suffix colon).trans ((List.suffix_cons ':' colon).trans hspace)
  split
  · rename_i e he
    exact ((hvalue calls _).of_error he).mono hfield (.mono hfield)
  rename_i v after hv
  have hafter : skipSpace after <:+ '"' :: opened :=
    (skipSpace_suffix after).trans (((hvalue calls _).of_ok hv).trans hfield)
  simp only
  split
  · rename_i left hleft
    rw [hleft] at hafter
    exact .ok ((List.suffix_cons '\x7d' left).trans hafter)
  · rename_i left hleft
    rw [hleft] at hafter
    have hnext : skipSpace left <:+ '"' :: opened :=
      (skipSpace_suffix left).trans ((List.suffix_cons ',' left).trans hafter)
    exact (hfields calls _ _).mono hnext (.mono hnext)
  · exact within_failWithin ..

include helements hfields in
theorem readValue_within_succ (calls : Nat) (cs : List Char) :
    Within cs (OpensMany cs calls) (readValue calls (fuel + 1) cs) := by
  unfold readValue
  split
  · rename_i rest
    have hrest : rest <:+ '"' :: rest := List.suffix_cons '"' rest
    split
    · rename_i e he
      exact ((readQuoted_within calls rest).of_error he).mono hrest (.mono hrest)
    · rename_i s left hs
      exact .ok (((readQuoted_within calls rest).of_ok hs).trans hrest)
  · rename_i rest
    have hspace : skipSpace rest <:+ rest := skipSpace_suffix rest
    have hrest : rest <:+ '[' :: rest := List.suffix_cons '[' rest
    split
    · rename_i hcalls
      exact .tooDeep (by simp only [hcalls, OpensMany, Nat.zero_le])
    split
    · rename_i left hleft
      rw [hleft] at hspace
      exact .ok ((List.suffix_cons ']' left).trans (hspace.trans hrest))
    split
    · rename_i e he
      exact ((helements (calls - 1) _).of_error he).mono (hspace.trans hrest)
        fun hmany => (hmany.mono hspace).cons rfl
    · rename_i vs left hvs
      exact .ok (((helements (calls - 1) _).of_ok hvs).trans (hspace.trans hrest))
  · rename_i rest
    have hspace : skipSpace rest <:+ rest := skipSpace_suffix rest
    have hrest : rest <:+ '\x7b' :: rest := List.suffix_cons '\x7b' rest
    split
    · rename_i hcalls
      exact .tooDeep (by simp only [hcalls, OpensMany, Nat.zero_le])
    split
    · rename_i left hleft
      rw [hleft] at hspace
      exact .ok ((List.suffix_cons '\x7d' left).trans (hspace.trans hrest))
    split
    · rename_i e he
      exact ((hfields (calls - 1) _ _).of_error he).mono (hspace.trans hrest)
        fun hmany => (hmany.mono hspace).cons rfl
    · rename_i fields left hread
      exact .ok (((hfields (calls - 1) _ _).of_ok hread).trans (hspace.trans hrest))
  · exact readScalar_within calls cs

end

/-- The three readers call each other with less fuel. -/
theorem within_of_fuel (fuel : Nat) :
    (∀ calls cs, Within cs (OpensMany cs calls) (readValue calls fuel cs)) ∧
      (∀ calls cs, Within cs (OpensMany cs calls) (readElements calls fuel cs)) ∧
      ∀ calls fields cs, Within cs (OpensMany cs calls) (readFields calls fuel fields cs) := by
  induction fuel with
  | zero =>
    refine ⟨fun calls cs => ?_, fun calls cs => ?_, fun calls fields cs => ?_⟩
    · exact within_failAt ..
    · exact within_failAt ..
    · exact within_failAt ..
  | succ fuel ih =>
    obtain ⟨hvalue, helements, hfields⟩ := ih
    exact ⟨readValue_within_succ helements hfields, readElements_within_succ hvalue helements,
      readFields_within_succ hvalue hfields⟩

theorem readValue_within (calls fuel : Nat) (cs : List Char) :
    Within cs (OpensMany cs calls) (readValue calls fuel cs) :=
  (within_of_fuel fuel).1 calls cs

/-! ## Texts -/

section

variable [Host]

theorem readChars_within {cs : List Char} {e : Fault} (h : readChars cs = .error e) :
    Within cs (OpensMany cs Host.readingCalls) (.error e : Reading Value) := by
  unfold readChars at h
  split at h
  · cases h
    exact .problem ..
  split at h
  · rename_i he
    cases h
    have hspace := skipSpace_suffix cs
    exact ((readValue_within _ _ _).of_error he).mono hspace (.mono hspace)
  · split at h <;> cases h
    exact .problem ..

/-- A text is refused for an integer only if it holds more digits in a row than the limit. -/
theorem huge_of_read {s : String} {n : Nat} (h : read s = .error (.hugeInteger n)) :
    HoldsHugeInteger s.toList n := by
  unfold read at h
  split at h
  · cases h
  · rename_i fault hfault
    have hwithin := readChars_within hfault
    cases hwithin with
    | problem | tooDeep => cases h
    | hugeInteger hdigits =>
      cases h
      exact hdigits

/-- There is no room for a text only if it opens many lists and objects. -/
theorem opensMany_of_read {s : String} (h : read s = .error .tooDeep) :
    OpensMany s.toList Host.readingCalls := by
  unfold read at h
  split at h
  · cases h
  · rename_i fault hfault
    have hwithin := readChars_within hfault
    cases hwithin with
    | problem | hugeInteger => cases h
    | tooDeep hmany => exact hmany

end

end PhraseGrammar.Json
