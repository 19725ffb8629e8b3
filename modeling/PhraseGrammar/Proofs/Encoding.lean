import PhraseGrammar.Text.Utf8

/-!
# PhraseGrammar.Proofs.Encoding

Text that is written as UTF-8 is read back.

* `decodeFrom_one`, …, `decodeFrom_four`: octets that the decoder takes as one character.
* `decodeFrom_encodeChar`: the octets of a character are taken as that character.

`decode_encode` is a whole text; octets with a fault are the octets of none.
-/

namespace PhraseGrammar.Text.Utf8

section

variable {a b c d : UInt8} (offset : Nat) (rest : List UInt8)

theorem decodeFrom_one (h : width? a = some 1) :
    decodeFrom offset (a :: rest) =
      (decodeFrom (offset + 1) rest).map (Char.ofNat a.toNat :: ·) := by
  simp [decodeFrom, h]

theorem decodeFrom_two (h : width? a = some 2) (hb : continuesAfter a b = true) :
    decodeFrom offset (a :: b :: rest) =
      (decodeFrom (offset + 2) rest).map (Char.ofNat (a.toNat % 32 * 64 + low b) :: ·) := by
  simp [decodeFrom, h, hb]

theorem decodeFrom_three (h : width? a = some 3) (hb : continuesAfter a b = true)
    (hc : continues c = true) :
    decodeFrom offset (a :: b :: c :: rest) =
      (decodeFrom (offset + 3) rest).map
        (Char.ofNat (a.toNat % 16 * 4096 + low b * 64 + low c) :: ·) := by
  simp [decodeFrom, h, hb, hc]

theorem decodeFrom_four (h : width? a = some 4) (hb : continuesAfter a b = true)
    (hc : continues c = true) (hd : continues d = true) :
    decodeFrom offset (a :: b :: c :: d :: rest) =
      (decodeFrom (offset + 4) rest).map
        (Char.ofNat (a.toNat % 8 * 262144 + low b * 4096 + low c * 64 + low d) :: ·) := by
  simp [decodeFrom, h, hb, hc, hd]

end

/-! ## One character -/

theorem continues_tail (n : Nat) : continues (UInt8.ofNat (0x80 + n % 64)) = true := by
  have hn : n % 64 < 64 := Nat.mod_lt n (by decide)
  rw [continues, UInt8.toNat_ofNat_of_lt' (show 0x80 + n % 64 < 256 by omega)]
  simp only [Bool.and_eq_true, decide_eq_true_eq]
  omega

theorem low_tail (n : Nat) : low (UInt8.ofNat (0x80 + n % 64)) = n % 64 := by
  have hn : n % 64 < 64 := Nat.mod_lt n (by decide)
  rw [low, UInt8.toNat_ofNat_of_lt' (show 0x80 + n % 64 < 256 by omega)]
  omega

/-- The second octet never makes a form overlong, a surrogate or a code point beyond the last. -/
theorem continuesAfter_tail {a : UInt8} {n : Nat} (hE0 : a.toNat = 0xE0 → 0x20 ≤ n % 64)
    (hF0 : a.toNat = 0xF0 → 0x10 ≤ n % 64) (hED : a.toNat = 0xED → n % 64 < 0x20)
    (hF4 : a.toNat = 0xF4 → n % 64 < 0x10) :
    continuesAfter a (UInt8.ofNat (0x80 + n % 64)) = true := by
  have hn : n % 64 < 64 := Nat.mod_lt n (by decide)
  rw [continuesAfter, UInt8.toNat_ofNat_of_lt' (show 0x80 + n % 64 < 256 by omega)]
  simp only [Bool.and_eq_true, decide_eq_true_eq]
  constructor
  · split
    · omega
    · split <;> omega
  · split
    · omega
    · split <;> omega

theorem width?_ofNat {n : Nat} (h : n < 256) :
    width? (UInt8.ofNat n) =
      if n < 0x80 then some 1 else if n < 0xC2 then none else if n < 0xE0 then some 2
      else if n < 0xF0 then some 3 else if n < 0xF5 then some 4 else none := by
  rw [width?, UInt8.toNat_ofNat_of_lt' h]

theorem decodeFrom_encodeChar (offset : Nat) (c : Char) (rest : List UInt8) :
    ∃ next, decodeFrom offset (encodeChar c ++ rest) = (decodeFrom next rest).map (c :: ·) := by
  have hvalid : c.toNat < 0xD800 ∨ 0xDFFF < c.toNat ∧ c.toNat < 0x110000 := c.valid
  have hchar : Char.ofNat c.toNat = c := Char.ofNat_toNat c
  generalize hn : c.toNat = n at hvalid hchar
  unfold encodeChar
  rw [hn]
  simp only
  -- One case for each width. The payloads of the octets make up the code point, and the first octet
  -- with the bounds of its width rules out what `continuesAfter` refuses.
  split
  · rename_i h1
    refine ⟨offset + 1, ?_⟩
    rw [List.singleton_append, decodeFrom_one,
      UInt8.toNat_ofNat_of_lt' (show n < 256 by omega), hchar]
    rw [width?_ofNat (by omega), if_pos h1]
  split
  · rename_i h1 h2
    refine ⟨offset + 2, ?_⟩
    have hfirst : (UInt8.ofNat (0xC0 + n / 64)).toNat = 0xC0 + n / 64 :=
      UInt8.toNat_ofNat_of_lt' (show _ < 256 by omega)
    rw [List.cons_append, List.singleton_append, decodeFrom_two, hfirst, low_tail]
    · have hcode : (0xC0 + n / 64) % 32 * 64 + n / 1 % 64 = n := by omega
      rw [hcode, hchar]
    · rw [width?_ofNat (by omega)]
      grind
    · apply continuesAfter_tail <;> omega
  split
  · rename_i h1 h2 h3
    refine ⟨offset + 3, ?_⟩
    have hfirst : (UInt8.ofNat (0xE0 + n / 4096)).toNat = 0xE0 + n / 4096 :=
      UInt8.toNat_ofNat_of_lt' (show _ < 256 by omega)
    rw [List.cons_append, List.cons_append, List.singleton_append, decodeFrom_three, hfirst,
      low_tail, low_tail]
    · have hcode : (0xE0 + n / 4096) % 16 * 4096 + n / 64 % 64 * 64 + n / 1 % 64 = n := by omega
      rw [hcode, hchar]
    · rw [width?_ofNat (by omega)]
      grind
    · apply continuesAfter_tail <;> omega
    · exact continues_tail (n / 1)
  · rename_i h1 h2 h3
    refine ⟨offset + 4, ?_⟩
    have hfirst : (UInt8.ofNat (0xF0 + n / 262144)).toNat = 0xF0 + n / 262144 :=
      UInt8.toNat_ofNat_of_lt' (show _ < 256 by omega)
    rw [List.cons_append, List.cons_append, List.cons_append, List.singleton_append,
      decodeFrom_four, hfirst, low_tail, low_tail, low_tail]
    · have hcode : (0xF0 + n / 262144) % 8 * 262144 + n / 4096 % 64 * 4096 + n / 64 % 64 * 64
          + n / 1 % 64 = n := by omega
      rw [hcode, hchar]
    · rw [width?_ofNat (by omega)]
      grind
    · apply continuesAfter_tail <;> omega
    · exact continues_tail (n / 64)
    · exact continues_tail (n / 1)

/-! ## Texts -/

theorem decodeFrom_encode (offset : Nat) (cs : List Char) :
    decodeFrom offset (encode cs) = .ok cs := by
  induction cs generalizing offset with
  | nil => rfl
  | cons c cs ih =>
    obtain ⟨next, hnext⟩ := decodeFrom_encodeChar offset c (encode cs)
    rw [encode, List.flatMap_cons]
    rw [encode] at hnext ih
    rw [hnext, ih next]
    rfl

theorem decode_encode (cs : List Char) : decode (encode cs) = .ok cs := decodeFrom_encode 0 cs

/-- Octets in which the decoder finds a fault are the octets of no text. -/
theorem ne_encode_of_decode {octets : List UInt8} {fault : Fault} (h : decode octets = .error fault)
    (cs : List Char) : octets ≠ encode cs := by
  rintro rfl
  rw [decode_encode] at h
  cases h

end PhraseGrammar.Text.Utf8
