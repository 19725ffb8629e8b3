/-!
# PhraseGrammar.Text.Hex

Hexadecimal digits.

* `hexDigit?`, `hexValue?` — digits read, in either case.
* `hexPadded` — a number written in lower case with leading zeros.
-/

namespace PhraseGrammar.Text

def hexDigit? (c : Char) : Option Nat :=
  if '0' ≤ c ∧ c ≤ '9' then some (c.toNat - '0'.toNat)
  else if 'a' ≤ c ∧ c ≤ 'f' then some (c.toNat - 'a'.toNat + 10)
  else if 'A' ≤ c ∧ c ≤ 'F' then some (c.toNat - 'A'.toNat + 10)
  else none

def hexValue? (cs : List Char) : Option Nat :=
  cs.foldl (fun n c => n.bind fun n => (hexDigit? c).map (16 * n + ·)) (some 0)

/-- A number in lower-case hexadecimal with leading zeros up to the given width. -/
def hexPadded (width n : Nat) : List Char :=
  let digits := Nat.toDigits 16 n
  List.replicate (width - digits.length) '0' ++ digits

end PhraseGrammar.Text
