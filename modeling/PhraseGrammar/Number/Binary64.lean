/-!
# PhraseGrammar.Number.Binary64

Double-precision numbers, kept exactly.

* `Binary64` — a signed `mantissa * 2 ^ exponent`, an infinity, or no number.
* `Binary64.ofDecimal` — the double nearest to a decimal, ties to the even mantissa.

Every finite value that `ofDecimal` builds is canonical: its mantissa has 53 bits, or its exponent
is the least one. Two such values are equal as data exactly when they are the same double.
-/

namespace PhraseGrammar.Number

inductive Binary64 where
  | finite (negative : Bool) (mantissa : Nat) (exponent : Int)
  | infinite (negative : Bool)
  | nan
deriving DecidableEq, Repr

/-- The number of decimal digits of a natural number; zero has one. -/
def digitCount (n : Nat) : Nat := (Nat.toDigits 10 n).length

/-- `num / den` rounded to the nearest natural number, a half to the even neighbour. -/
def roundHalfEven (num den : Nat) : Nat :=
  let floor := num / den
  let rest := num % den
  if 2 * rest < den then floor
  else if den < 2 * rest then floor + 1
  else floor + floor % 2

/-- `num / (den * 2 ^ exponent)` as a quotient of natural numbers. -/
def scaledQuotient (num den : Nat) (exponent : Int) : Nat × Nat :=
  (num * Nat.pow 2 (-exponent).toNat, den * Nat.pow 2 exponent.toNat)

namespace Binary64

/-- The exponent below which no double goes. -/
def leastExponent : Int := -1074

/-- The exponent above which a 53-bit mantissa overflows. -/
def greatestExponent : Int := 971

def zero (negative : Bool) : Binary64 := .finite negative 0 leastExponent

/-- The exponent at which `num / den` has a 53-bit mantissa, but never less than the least one. -/
def exponentFor (num den : Nat) : Int :=
  let low : Int := (num.log2 : Int) - den.log2 - 53
  let (n, d) := scaledQuotient num den low
  max leastExponent (if n / d < Nat.pow 2 53 then low else low + 1)

/-- The double nearest to `num / den`, both positive. -/
def ofRatio (negative : Bool) (num den : Nat) : Binary64 :=
  let exponent := exponentFor num den
  let (n, d) := scaledQuotient num den exponent
  let mantissa := roundHalfEven n d
  let (mantissa, exponent) :=
    if mantissa = Nat.pow 2 53 then (Nat.pow 2 52, exponent + 1) else (mantissa, exponent)
  if greatestExponent < exponent then .infinite negative
  else .finite negative mantissa exponent

/-- The double nearest to `digits * 10 ^ scale`. A decimal far beyond the range is decided by its
size alone. -/
def ofDecimal (negative : Bool) (digits : Nat) (scale : Int) : Binary64 :=
  let size : Int := digitCount digits + scale
  if digits = 0 ∨ size < -330 then zero negative
  else if 310 < size then .infinite negative
  else ofRatio negative (digits * Nat.pow 10 scale.toNat) (Nat.pow 10 (-scale).toNat)

def isZero : Binary64 → Bool
  | .finite _ mantissa _ => mantissa == 0
  | _ => false

end Binary64

end PhraseGrammar.Number
