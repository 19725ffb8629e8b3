import PhraseGrammar.Text.DecimalDigit

/-!
# PhraseGrammar.Text.Integer

Integers as people type them.

* `readInteger` — blanks around, a sign, digits of any script, and single underscores between
  digits.
* `looksNegative` — whether a text is a negative number rather than an option.
-/

namespace PhraseGrammar.Text

/-- Blanks beyond ASCII that may stand around an integer. -/
def wideBlanks : List (Nat × Nat) := [
  (0x85, 0x85), (0xa0, 0xa0), (0x1680, 0x1680), (0x2000, 0x200a), (0x2028, 0x2029),
  (0x202f, 0x202f), (0x205f, 0x205f), (0x3000, 0x3000)]

def isIntegerBlank (c : Char) : Bool :=
  c == ' ' || (0x09 ≤ c.toNat && c.toNat ≤ 0x0d)
    || wideBlanks.any fun r => r.1 ≤ c.toNat && c.toNat ≤ r.2

/-- The longest integer that is read. -/
def integerDigitLimit : Nat := 4300

/-- The digits of a number in which single underscores may stand between digits; `after` tells
whether a digit came last. -/
def digitValues? (after : Bool) : List Char → Option (List Nat)
  | [] => if after then some [] else none
  | c :: cs =>
    match decimalDigit? c with
    | some d => (digitValues? true cs).map (d :: ·)
    | none => if after && c == '_' then digitValues? false cs else none

/-- The number of some digits; too many are no number. -/
def naturalOf? (cs : List Char) : Option Nat :=
  match digitValues? false cs with
  | some digits =>
    if integerDigitLimit < digits.length then none
    else some (digits.foldl (fun n d => 10 * n + d) 0)
  | none => none

def readInteger (s : String) : Option Int :=
  let inner := ((s.toList.dropWhile isIntegerBlank).reverse.dropWhile isIntegerBlank).reverse
  match inner with
  | '-' :: cs => (naturalOf? cs).map fun n => -(n : Int)
  | '+' :: cs => (naturalOf? cs).map fun n => (n : Int)
  | cs => (naturalOf? cs).map fun n => (n : Int)

def isDecimal (c : Char) : Bool := (decimalDigit? c).isSome

/-- Whether a text is a minus sign and digits, perhaps with a point before the last ones; one line
feed may follow. -/
def looksNegative (s : String) : Bool :=
  match s.toList with
  | '-' :: cs =>
    let cs := if cs.getLast? = some '\n' then cs.dropLast else cs
    match cs.dropWhile isDecimal with
    | [] => !cs.isEmpty
    | '.' :: decimals => !decimals.isEmpty && decimals.all isDecimal
    | _ => false
  | _ => false

end PhraseGrammar.Text
