import PhraseGrammar.RuleEdit
import PhraseGrammar.Update

/-!
# PhraseGrammar.FrozenRules

Rewriting rules whose edits make new values.

* `OrderedSet.add?`, `remove?`, `addAll?`, `removeAll?` — edits of one ordered set.
* `FrozenRules.addProduction`, `FrozenRules.removeProduction`, … — edits of the rules.
* `FrozenRules.apply` — an edit as a caller asks for it; a bad argument leaves everything as it was.

Each edit says whether anything changed, so that what did not change can be shared with the old
value. A missing head counts as a head with no bodies.
-/

namespace PhraseGrammar

namespace OrderedSet

variable {α : Type} [DecidableEq α]

def add? (s : OrderedSet α) (a : α) : Update (OrderedSet α) :=
  if s.contains a then .kept else .changed ⟨s.toList ++ [a]⟩

def remove? (s : OrderedSet α) (a : α) : Update (OrderedSet α) :=
  if s.contains a then .changed ⟨s.toList.filter (· != a)⟩ else .kept

/-- Adds elements one by one; the set is kept if all of them are there. -/
def addAll? (s : OrderedSet α) : List α → Update (OrderedSet α)
  | [] => .kept
  | a :: as =>
    match s.add? a with
    | .kept => addAll? s as
    | .changed t => .changed ((addAll? t as).on t)

def removeAll? (s : OrderedSet α) : List α → Update (OrderedSet α)
  | [] => .kept
  | a :: as =>
    match s.remove? a with
    | .kept => removeAll? s as
    | .changed t => .changed ((removeAll? t as).on t)

end OrderedSet

/-- Rules whose edits make new values. -/
structure FrozenRules where
  rules : OrderedMap Word Bodies
deriving DecidableEq, Repr, Inhabited

namespace FrozenRules

def empty : FrozenRules := ⟨.empty⟩

def items (r : FrozenRules) : List (Word × List Word) :=
  r.rules.entries.map fun e => (e.1, e.2.toList)

def heads (r : FrozenRules) : List Word := r.rules.keys

def addHead (r : FrozenRules) (head : Word) : Update FrozenRules :=
  let key := Word.normalize head
  if r.rules.contains key then .kept else .changed ⟨r.rules.set key .empty⟩

def removeHead (r : FrozenRules) (head : Word) : Update FrozenRules :=
  let key := Word.normalize head
  if r.rules.contains key then .changed ⟨r.rules.erase key⟩ else .kept

/-- Merges bodies into a head one by one; a missing head is added. -/
def addProduction (r : FrozenRules) (head : Word) (bodies : List Word) : Update FrozenRules :=
  let key := Word.normalize head
  let bodies := bodies.map Word.normalize
  match r.rules.get? key with
  | none => .changed ⟨r.rules.set key ((OrderedSet.addAll? .empty bodies).on .empty)⟩
  | some old => (OrderedSet.addAll? old bodies).map fun new => ⟨r.rules.set key new⟩

/-- Removes bodies from a head one by one; a missing head has none. -/
def removeProduction (r : FrozenRules) (head : Word) (bodies : List Word) : Update FrozenRules :=
  let key := Word.normalize head
  match r.rules.get? key with
  | none => .kept
  | some old =>
    (OrderedSet.removeAll? old (bodies.map Word.normalize)).map fun new => ⟨r.rules.set key new⟩

def ofPairs (pairs : List (Word × List Word)) : FrozenRules :=
  pairs.foldl (fun r p => (r.addProduction p.1 p.2).on r) empty

/-- The bodies of a head; a missing head has none. -/
def bodies (r : FrozenRules) (head : Word) : List Word :=
  match r.rules.get? (Word.normalize head) with
  | none => []
  | some s => s.toList

section

variable [Host]

def apply (r : FrozenRules) : RuleEdit → Except ArgumentError (Update FrozenRules)
  | .addHead head => do return r.addHead (← head.toWord)
  | .removeHead head => do return r.removeHead (← head.toWord)
  | .addBody head body => do
    let h ← head.toWord
    let b ← body.toWord
    return r.addProduction h [b]
  | .removeBody head body => do
    let h ← head.toWord
    if r.rules.contains h then
      let b ← body.toWord
      return r.removeProduction h [b]
    else return .kept
  | .addProduction head bodies => do
    let h ← head.toWord
    let bs ← Value.toWords (← bodies.elements)
    return r.addProduction h bs
  | .removeProduction head bodies => do
    let h ← head.toWord
    if r.rules.contains h then
      let bs ← Value.toWords (← bodies.elements)
      return r.removeProduction h bs
    else return .kept

/-- The rules that a list of pair arguments describes; the first bad pair is the error. -/
def addPairs (r : FrozenRules) : List Value → Except ArgumentError FrozenRules
  | [] => .ok r
  | v :: vs => do
    let (head, bodies) ← v.toPair
    let u ← r.apply (.addProduction head bodies)
    addPairs (u.on r) vs

def ofValue (v : Value) : Except ArgumentError FrozenRules := do empty.addPairs (← v.elements)

def bodiesOf (r : FrozenRules) (head : Value) : Except ArgumentError (List Word) := do
  return r.bodies (← head.toWord)

def hasBody (r : FrozenRules) (head body : Value) : Except ArgumentError Bool := do
  let b ← body.toWord
  let bs ← r.bodiesOf head
  return bs.contains b

def hasHead (r : FrozenRules) (head : Value) : Except ArgumentError Bool := do
  return r.rules.contains (← head.toWord)

end

/-- Whether two sets of rules have the same heads, each with the same bodies, in whatever order. -/
def same (r t : FrozenRules) : Bool :=
  r.heads.all t.rules.contains && t.heads.all r.rules.contains
    && r.heads.all fun h =>
      (r.bodies h).all (t.bodies h).contains && (t.bodies h).all (r.bodies h).contains

end FrozenRules

end PhraseGrammar
