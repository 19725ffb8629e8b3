import PhraseGrammar.Argument
import PhraseGrammar.OrderedMap
import PhraseGrammar.OrderedSet

/-!
# PhraseGrammar.RuleEdit

Edits of rewriting rules, as a caller asks for them.

* `RuleEdit` — the six edits, with arguments as they were passed.
* `EditError` — what an edit in place can fail with.
* `Bodies` — the bodies of one head.
-/

namespace PhraseGrammar

/-- The bodies that one head rewrites to, in the order in which they were added. -/
abbrev Bodies := OrderedSet Word

/-- An edit of a set of rules. The arguments have not been read as words yet. -/
inductive RuleEdit where
  | addHead (head : Value)
  | removeHead (head : Value)
  | addBody (head body : Value)
  | removeBody (head body : Value)
  | addProduction (head bodies : Value)
  | removeProduction (head bodies : Value)
deriving Repr

inductive EditError where
  | argument (e : ArgumentError)
  | missingHead (head : Word)
  | fixedId
deriving DecidableEq, Repr

def EditError.message : EditError → Text
  | .argument e => e.message
  | .missingHead head =>
    "no such head found on production rules: " ++ Word.spaced head
  | .fixedId => "grammar id is immutable"

namespace Bodies

variable [Host]

/-- Adds bodies one by one; the first argument that is no word ends it, and what was added before
stays. -/
def addEach (s : Bodies) : List Value → Bodies × Option ArgumentError
  | [] => (s, none)
  | v :: vs =>
    match v.toWord with
    | .error e => (s, some e)
    | .ok w => addEach (OrderedSet.insert s w) vs

/-- Removes bodies one by one; the first argument that is no word ends it, and what was removed
before stays removed. -/
def removeEach (s : Bodies) : List Value → Bodies × Option ArgumentError
  | [] => (s, none)
  | v :: vs =>
    match v.toWord with
    | .error e => (s, some e)
    | .ok w => removeEach (OrderedSet.erase s w) vs

end Bodies

end PhraseGrammar
