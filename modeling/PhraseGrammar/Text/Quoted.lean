import PhraseGrammar.Text
import PhraseGrammar.Text.Hex
import PhraseGrammar.Text.Printable

/-!
# PhraseGrammar.Text.Quoted

Quoted texts in messages and listings.

* `quoted` — a text between quotes, with everything that cannot be shown written as an escape.
* `escaped` — a text with its halves written as escapes.

Single quotes are used, unless the text holds a single quote and no double quote.
-/

namespace PhraseGrammar.Text

def quotedChar (quote : Char) (c : Char) : List Char :=
  if c = quote ∨ c = '\\' then ['\\', c]
  else if c = '\n' then ['\\', 'n']
  else if c = '\r' then ['\\', 'r']
  else if c = '\t' then ['\\', 't']
  else if isPrintable c then [c]
  else if c.toNat < 0x100 then '\\' :: 'x' :: hexPadded 2 c.toNat
  else if c.toNat < 0x10000 then '\\' :: 'u' :: hexPadded 4 c.toNat
  else '\\' :: 'U' :: hexPadded 8 c.toNat

/-- The escape of half a pair. -/
def halfEscape (n : Fin 0x800) : List Char :=
  '\\' :: 'u' :: hexPadded 4 (CodePoint.firstHalf + n.val)

def quotedPoint (quote : Char) : CodePoint → List Char
  | .char c => quotedChar quote c
  | .half n => halfEscape n

def quoteFor (t : Text) : Char :=
  if t.contains (.char '\'') && !t.contains (.char '"') then '"' else '\''

def quoted (t : Text) : String :=
  let quote := quoteFor t
  String.ofList (quote :: t.flatMap (quotedPoint quote) ++ [quote])

def escapedPoint : CodePoint → List Char
  | .char c => [c]
  | .half n => halfEscape n

def escaped (t : Text) : String := String.ofList (t.flatMap escapedPoint)

end PhraseGrammar.Text
