import PhraseGrammar.Number.Binary64

/-!
# PhraseGrammar.Number.Shortest

The shortest decimal that reads back as a given double.

* `Binary64.shortest` — the digits and the scale: fewest digits first, then the nearer one, then the
  even one.
* `Binary64.text` — positional from `0.0001` up to `10 ^ 16`, with an exponent beyond.
-/

namespace PhraseGrammar.Number.Binary64

/-- The exponent `p` with `10 ^ p ≤ num / den < 10 ^ (p + 1)`, for positive `num` and `den`. -/
def decimalExponent (num den : Nat) : Int :=
  if den ≤ num then (digitCount (num / den) : Int) - 1
  else - (digitCount ((den - 1) / num) : Int)

/-- The two neighbours of `num / den` among the multiples of `10 ^ scale`, the nearer one first; of
two that are equally near, the even one. -/
def decimalNeighbours (num den : Nat) (scale : Int) : List Nat :=
  let n := num * Nat.pow 10 (-scale).toNat
  let d := den * Nat.pow 10 scale.toNat
  let below := n / d
  if roundHalfEven n d = below then [below, below + 1] else [below + 1, below]

/-- The first neighbour that reads back, trying one digit more whenever none does. -/
def shortestFrom (negative : Bool) (mantissa : Nat) (exponent : Int) (num den : Nat) :
    (attempts : Nat) → (scale : Int) → Nat × Int
  | 0, scale => (num * Nat.pow 10 (-scale).toNat / (den * Nat.pow 10 scale.toNat), scale)
  | attempts + 1, scale =>
    match (decimalNeighbours num den scale).find? fun digits =>
        ofDecimal negative digits scale == .finite negative mantissa exponent with
    | some digits => (digits, scale)
    | none => shortestFrom negative mantissa exponent num den attempts (scale - 1)

/-- The digits and the scale of the shortest decimal for a finite double that is not zero; seventeen
digits always suffice. -/
def shortest (negative : Bool) (mantissa : Nat) (exponent : Int) : Nat × Int :=
  let num := mantissa * Nat.pow 2 exponent.toNat
  let den := Nat.pow 2 (-exponent).toNat
  shortestFrom negative mantissa exponent num den 17 (decimalExponent num den)

def withoutTrailingZeros (digits : List Char) : List Char :=
  (digits.reverse.dropWhile (· == '0')).reverse

/-- An exponent with its sign and at least two digits. -/
def exponentText (exponent : Int) : String :=
  let digits := toString exponent.natAbs
  (if exponent < 0 then "e-" else "e+") ++ (if digits.length < 2 then "0" ++ digits else digits)

/-- A decimal in which the point stands after `point` of the digits. -/
def positional (digits : List Char) (point : Int) : String :=
  if point ≤ 0 then "0." ++ String.ofList (List.replicate (-point).toNat '0' ++ digits)
  else if (digits.length : Int) ≤ point then
    String.ofList (digits ++ List.replicate (point.toNat - digits.length) '0') ++ ".0"
  else String.ofList (digits.take point.toNat) ++ "." ++ String.ofList (digits.drop point.toNat)

def scientific (digits : List Char) (point : Int) : String :=
  String.ofList (digits.take 1)
    ++ (if digits.length ≤ 1 then "" else "." ++ String.ofList (digits.drop 1))
    ++ exponentText (point - 1)

/-- The text of a double: `1.0`, `1e+16`, `1e-05`, `-0.0`, `inf`, `nan`. -/
def text : Binary64 → String
  | .nan => "nan"
  | .infinite negative => if negative then "-inf" else "inf"
  | .finite negative mantissa exponent =>
    let sign := if negative then "-" else ""
    if mantissa = 0 then sign ++ "0.0"
    else
      let (digits, scale) := shortest negative mantissa exponent
      let written := Nat.toDigits 10 digits
      let point : Int := written.length + scale
      let significant := withoutTrailingZeros written
      if -4 < point ∧ point ≤ 16 then sign ++ positional significant point
      else sign ++ scientific significant point

end PhraseGrammar.Number.Binary64
