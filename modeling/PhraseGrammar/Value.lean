import PhraseGrammar.Number.Binary64
import PhraseGrammar.Symbol

/-!
# PhraseGrammar.Value

Dynamic values: what a caller may pass as an argument, and what a document holds.

* `Value` — null, booleans, numbers, texts, lists, objects with ordered fields, and symbols.
* `Kind` — the kind of a value, as error messages name it.
* `Value.isTruthy` — whether a value counts as given.
* `Value.lookup` — a field of an object.
* `Value.elements?` — what a value yields when it is gone through.
-/

namespace PhraseGrammar

/-- A dynamic value. A document never holds a `symbol`; an argument may. -/
inductive Value where
  | null
  | bool (b : Bool)
  | int (n : Int)
  | float (x : Number.Binary64)
  | text (s : Text)
  | list (elements : List Value)
  | object (fields : List (Text × Value))
  | symbol (s : Symbol)
deriving Repr, Inhabited

/-- The kinds of values, and the kinds of things that values are confused with. -/
inductive Kind where
  | null
  | bool
  | int
  | float
  | text
  | list
  | object
  | symbol
deriving DecidableEq, Repr

def Kind.name : Kind → String
  | .null => "NoneType"
  | .bool => "bool"
  | .int => "int"
  | .float => "float"
  | .text => "str"
  | .list => "list"
  | .object => "dict"
  | .symbol => "Symbol"

namespace Value

def kind : Value → Kind
  | .null => .null
  | .bool _ => .bool
  | .int _ => .int
  | .float _ => .float
  | .text _ => .text
  | .list _ => .list
  | .object _ => .object
  | .symbol _ => .symbol

/-- Null, false, zeros and empty texts, lists and objects count as not given. -/
def isTruthy : Value → Bool
  | .null => false
  | .bool b => b
  | .int n => n != 0
  | .float x => !x.isZero
  | .text s => !s.isEmpty
  | .list elements => !elements.isEmpty
  | .object fields => !fields.isEmpty
  | .symbol _ => true

def lookup (fields : List (Text × Value)) (name : Text) : Option Value :=
  (fields.find? fun f => f.1 == name).map (·.2)

def characters (s : Text) : List Value := s.map fun p => .text [p]

/-- What a value yields when it is gone through: the elements of a list, the characters of a text,
the names of an object's fields. Other values cannot be gone through. -/
def elements? : Value → Option (List Value)
  | .list elements => some elements
  | .text s => some (characters s)
  | .object fields => some (fields.map fun f => .text f.1)
  | _ => none

end Value

end PhraseGrammar
