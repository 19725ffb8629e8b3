import PhraseGrammar.View

/-!
# PhraseGrammar.Classify

The type of a grammar, found from its rules.

* `View.failedStage?` — the first of three tests that the rules fail.
* `View.classify` — the type that this stage decides; rules that fail no test are regular.
-/

namespace PhraseGrammar

/-- The tests of the rules, in the order in which they are made. -/
inductive Stage where
  | unrestricted
  | contextSensitive
  | regular
deriving DecidableEq, Repr

namespace Stage

/-- The type of a grammar that fails at this stage. -/
def type : Stage → GrammarType
  | .unrestricted => .unrestricted
  | .contextSensitive => .contextSensitive
  | .regular => .contextFree

def name : Stage → String
  | .unrestricted => "unrestricted"
  | .contextSensitive => "context-sensitive"
  | .regular => "regular"

end Stage

/-- A rule that does not shrink its head, and whose head is one symbol other than the start symbol.
The head is tested even if there is no body. -/
def isMonotoneUnitRule (start : Symbol) (head : Word) (bodies : List Word) : Bool :=
  bodies.all (fun body => head.realLength ≤ body.length)
    && head.length == 1
    && head != [start]

/-- A body that is the empty word, or one or two symbols of which the first is a terminal. -/
def isRightLinearBody (terminals : List Symbol) (body : Word) : Bool :=
  body == Word.empty
    || ((body.length == 1 || body.length == 2)
      && match body.head? with
        | some s => terminals.contains s
        | none => false)

namespace View

def failedStage? (v : View) : Option Stage :=
  if !v.rules.all (fun r => isMonotoneUnitRule v.start r.1 r.2) then some .unrestricted
  else if !v.rules.all (fun r => r.1.length == 1) then some .contextSensitive
  else if !v.rules.all (fun r => r.2.all (isRightLinearBody v.terminals)) then some .regular
  else none

/-- The type of a grammar, from its rules alone. -/
def classify (v : View) : GrammarType :=
  match v.failedStage? with
  | some stage => stage.type
  | none => .regular

end View

end PhraseGrammar
