import PhraseGrammar.Argument
import PhraseGrammar.OrderedSet

/-!
# PhraseGrammar.Alphabet

Alphabets: ordered sets of symbols.

* `Alphabet.ofValue` — an alphabet from an optional collection of arguments.
* `Alphabet.hasMember` — membership of an argument, which is not turned into a symbol first.
* `Alphabet.listing` — the text of an alphabet in a debugger.
-/

namespace PhraseGrammar

/-- A set of symbols in the order in which they were added. -/
abbrev Alphabet := OrderedSet Symbol

namespace Alphabet

def texts (a : Alphabet) : List Text := a.toList.map (·.text)

def ofValue [Host] (v : Value) : Except ArgumentError Alphabet := do
  return OrderedSet.ofList (← Value.toSymbols (← v.elementsIfGiven))

/-- Whether an argument is a member: a text or a symbol may be, a list or an object cannot even be
looked up, and anything else is no symbol. -/
def hasMember (a : Alphabet) : Value → Except ArgumentError Bool
  | .text s => .ok (OrderedSet.contains a ⟨s⟩)
  | .symbol s => .ok (OrderedSet.contains a s)
  | .list _ => .error (.unhashable .list)
  | .object _ => .error (.unhashable .object)
  | _ => .ok false

def listing (a : Alphabet) : String :=
  "Alphabet([" ++ ", ".intercalate (a.texts.map Text.quoted) ++ "])"

end Alphabet

end PhraseGrammar
