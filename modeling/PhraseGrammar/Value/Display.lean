import PhraseGrammar.Host
import PhraseGrammar.Number.Shortest
import PhraseGrammar.Text.Quoted
import PhraseGrammar.Value

/-!
# PhraseGrammar.Value.Display

The text of a dynamic value.

* `Value.quoted` — a value as it stands inside another: texts are in quotes.
* `Value.display` — a value on its own: a text or a symbol is itself.
* `DisplayError` — why a value has no text.

Each value that is shown takes a call inside that of the value it lies in.
-/

namespace PhraseGrammar

/-- Why a value has no text: it holds too long an integer, or it nests too deep. -/
inductive DisplayError where
  | hugeInteger
  | tooDeep
deriving DecidableEq, Repr

/-- The number of digits of the longest integer that is written. -/
def DisplayError.integerLimit : Nat := 4300

/-- The integers that are written are below this bound, and above its negative. -/
def DisplayError.integerBound : Nat := Nat.pow 10 integerLimit

def DisplayError.message : DisplayError → String
  | .hugeInteger =>
    "Exceeds the limit (" ++ toString integerLimit
      ++ " digits) for integer string conversion; use sys.set_int_max_str_digits() to increase the "
      ++ "limit"
  | .tooDeep => "maximum recursion depth exceeded"

def Symbol.quoted (s : Symbol) : String := "Symbol(text=" ++ Text.quoted s.text ++ ")"

/-- How many more calls than a text a symbol takes to be shown. -/
def Symbol.moreCalls : Nat := 3

namespace Value

/-- An integer is written if it has not too many digits. -/
def quotedInteger (n : Int) : Except DisplayError String :=
  if DisplayError.integerBound ≤ n.natAbs then .error .hugeInteger else .ok (toString n)

mutual

/-- The text of a value inside another, with as many calls as may still lie in each other. -/
def quoted : (calls : Nat) → Value → Except DisplayError String
  | 0, _ => .error .tooDeep
  | _ + 1, .null => .ok "None"
  | _ + 1, .bool b => .ok (if b then "True" else "False")
  | _ + 1, .int n => quotedInteger n
  | _ + 1, .float x => .ok x.text
  | _ + 1, .text s => .ok (Text.quoted s)
  | calls + 1, .list elements => do
    return "[" ++ ", ".intercalate (← quotedElements calls elements) ++ "]"
  | calls + 1, .object fields => do
    return "\x7b" ++ ", ".intercalate (← quotedFields calls fields) ++ "\x7d"
  | calls + 1, .symbol s => if calls < Symbol.moreCalls then .error .tooDeep else .ok s.quoted

def quotedElements (calls : Nat) : List Value → Except DisplayError (List String)
  | [] => .ok []
  | v :: rest => do
    let first ← v.quoted calls
    return first :: (← quotedElements calls rest)

def quotedFields (calls : Nat) : List (Text × Value) → Except DisplayError (List String)
  | [] => .ok []
  | (name, v) :: rest => do
    let value ← v.quoted calls
    return (Text.quoted name ++ ": " ++ value) :: (← quotedFields calls rest)

end

section

variable [Host]

/-- The text that a value stands for where a text is wanted. -/
def display : Value → Except DisplayError Text
  | .text s => .ok s
  | .symbol s => .ok s.text
  | v => do return (← v.quoted Host.showingCalls : String)

def displayAll : List Value → Except DisplayError (List Text)
  | [] => .ok []
  | v :: vs => do
    let t ← v.display
    return t :: (← displayAll vs)

@[simp] theorem display_text (t : Text) : (Value.text t).display = .ok t := rfl

@[simp] theorem display_symbol (s : Symbol) : (Value.symbol s).display = .ok s.text := rfl

theorem displayAll_map {α : Type} {value : α → Value} {text : α → Text}
    (h : ∀ a, (value a).display = .ok (text a)) (as : List α) :
    displayAll (as.map value) = .ok (as.map text) := by
  induction as with
  | nil => rfl
  | cons a as ih =>
    simp only [List.map_cons, displayAll, h a, ih]
    rfl

end

end Value

end PhraseGrammar
