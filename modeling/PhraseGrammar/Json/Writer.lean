import PhraseGrammar.Host
import PhraseGrammar.Number.Shortest
import PhraseGrammar.Text.Hex
import PhraseGrammar.Value

/-!
# PhraseGrammar.Json.Writer

Values written as JSON text.

* `Json.quote` — a text as a JSON string.
* `Json.Layout` — everything on one line, or every item on a line of its own.
* `Json.Layout.ofWidth` — the layout of an indentation, which must not be too wide.
* `Json.write` — a value in a layout.
-/

namespace PhraseGrammar.Json

/-- A character inside a JSON string: only quotes, backslashes and controls are escaped. Half of a
pair stands as it is. -/
def escapeChar (c : Char) : List Char :=
  if c = '"' ∨ c = '\\' then ['\\', c]
  else if c = '\n' then ['\\', 'n']
  else if c = '\r' then ['\\', 'r']
  else if c = '\t' then ['\\', 't']
  else if c = '\x0c' then ['\\', 'f']
  else if c = '\x08' then ['\\', 'b']
  else if c.toNat < 0x20 then '\\' :: 'u' :: Text.hexPadded 4 c.toNat
  else [c]

def escapePoint : CodePoint → Text
  | .char c => Text.ofChars (escapeChar c)
  | .half n => [.half n]

def quote (t : Text) : Text := .char '"' :: t.flatMap escapePoint ++ [.char '"']

inductive Layout where
  | oneLine
  | indented (width : Int)
deriving DecidableEq, Repr

inductive LayoutError where
  | beyondWord
  | noRoom
deriving DecidableEq, Repr

/-- The wording of a layout error; for want of room there is none. -/
def LayoutError.message : LayoutError → String
  | .beyondWord => "cannot fit 'int' into an index-sized integer"
  | .noRoom => ""

namespace Layout

/-- The widths that a signed machine word holds are below this bound, and not below its negative. -/
def wordBound : Int := 0x8000000000000000

section

variable [Host]

def ofWidth (width : Int) : Except LayoutError Layout :=
  if width < -wordBound ∨ wordBound ≤ width then .error .beyondWord
  else if Host.widest < width then .error .noRoom
  else .ok (.indented width)

/-- The layout of an optional indentation; without one everything is on one line. -/
def ofIndent : Option Int → Except LayoutError Layout
  | none => .ok .oneLine
  | some width => ofWidth width

end

/-- What stands before an item at some depth; a negative width indents like zero. -/
def newline (layout : Layout) (depth : Nat) : List Char :=
  match layout with
  | .oneLine => []
  | .indented width => '\n' :: List.replicate (width.toNat * depth) ' '

def separator (layout : Layout) (depth : Nat) : List Char :=
  match layout with
  | .oneLine => [',', ' ']
  | .indented _ => ',' :: layout.newline depth

end Layout

/-- Items in brackets; the items are at `depth`, and nothing stands between brackets without
items. -/
def bracketed (layout : Layout) (depth : Nat) (opening closing : Char) : List Text → Text
  | [] => [.char opening, .char closing]
  | items =>
    .char opening :: Text.ofChars (layout.newline depth)
      ++ List.intercalate (Text.ofChars (layout.separator depth)) items
      ++ Text.ofChars (layout.newline (depth - 1)) ++ [.char closing]

/-- A number that is not finite has a name of its own. -/
def floatText : Number.Binary64 → String
  | .nan => "NaN"
  | .infinite negative => if negative then "-Infinity" else "Infinity"
  | x => x.text

mutual

def writeAt (layout : Layout) (depth : Nat) : Value → Text
  | .null => "null"
  | .bool b => if b then "true" else "false"
  | .int n => toString n
  | .float x => floatText x
  | .text s => quote s
  | .symbol s => quote s.text
  | .list elements =>
    bracketed layout (depth + 1) '[' ']' (writeElements layout (depth + 1) elements)
  | .object fields =>
    bracketed layout (depth + 1) '\x7b' '\x7d' (writeFields layout (depth + 1) fields)

def writeElements (layout : Layout) (depth : Nat) : List Value → List Text
  | [] => []
  | v :: vs => writeAt layout depth v :: writeElements layout depth vs

def writeFields (layout : Layout) (depth : Nat) : List (Text × Value) → List Text
  | [] => []
  | (name, v) :: fields =>
    (quote name ++ ": " ++ writeAt layout depth v) :: writeFields layout depth fields

end

def write (layout : Layout) (v : Value) : Text := writeAt layout 0 v

end PhraseGrammar.Json
