import PhraseGrammar.RuleEdit

/-!
# PhraseGrammar.Relation

Rewriting rules that are edited in place.

* `Relation` — heads with their bodies, both in the order in which they were added.
* `Relation.addProduction`, `Relation.ofPairs` — building a relation from words.
* `Relation.apply` — one edit: the state after it, and the error if it failed.

A head with no body is not the same as no head. Every edit but the two that add a head fails on a
missing head, before its other argument is looked at.
-/

namespace PhraseGrammar

/-- Rules edited in place. -/
structure Relation where
  rules : OrderedMap Word Bodies
deriving DecidableEq, Repr, Inhabited

namespace Relation

def empty : Relation := ⟨.empty⟩

def items (r : Relation) : List (Word × List Word) :=
  r.rules.entries.map fun e => (e.1, e.2.toList)

def heads (r : Relation) : List Word := r.rules.keys

/-- Makes a word a head; one that is a head keeps its place and its bodies. -/
def addHead (r : Relation) (head : Word) : Relation :=
  ⟨r.rules.insertNew (Word.normalize head) .empty⟩

/-- Merges bodies into a head one by one; a missing head is added first. -/
def addProduction (r : Relation) (head : Word) (bodies : List Word) : Relation :=
  ⟨(r.addHead head).rules.modify (Word.normalize head) fun s =>
    OrderedSet.insertAll s (bodies.map Word.normalize)⟩

/-- The relation of a list of heads with bodies; entries of the same head are merged. -/
def ofPairs (pairs : List (Word × List Word)) : Relation :=
  pairs.foldl (fun r p => r.addProduction p.1 p.2) empty

def copy (r : Relation) : Relation := ofPairs r.items

section

variable [Host]

/-- The state and error of merging the elements of an argument into a head. -/
def addProductionOf (r : Relation) (head : Word) (bodies : Value) : Relation × Option EditError :=
  let r := r.addHead head
  match bodies.elements with
  | .error e => (r, some (.argument e))
  | .ok vs =>
    let (s, e) := Bodies.addEach ((r.rules.get? head).getD .empty) vs
    (⟨r.rules.set head s⟩, e.map .argument)

/-- The state and error of removing the elements of an argument from a head that is there. -/
def removeProductionOf (r : Relation) (head : Word) (old : Bodies) (bodies : Value) :
    Relation × Option EditError :=
  match bodies.elements with
  | .error e => (r, some (.argument e))
  | .ok vs =>
    let (s, e) := Bodies.removeEach old vs
    (⟨r.rules.set head s⟩, e.map .argument)

/-- Carries out an edit that needs its head to be there. -/
def withHead (r : Relation) (head : Value) (edit : Word → Bodies → Relation × Option EditError) :
    Relation × Option EditError :=
  match head.toWord with
  | .error e => (r, some (.argument e))
  | .ok h =>
    match r.rules.get? h with
    | none => (r, some (.missingHead h))
    | some bodies => edit h bodies

def withBody (r : Relation) (head : Word) (body : Value) (change : Word → Bodies) :
    Relation × Option EditError :=
  match body.toWord with
  | .error e => (r, some (.argument e))
  | .ok w => (⟨r.rules.set head (change w)⟩, none)

/-- Carries out an edit: the state after it, and the error if it failed. -/
def apply (r : Relation) : RuleEdit → Relation × Option EditError
  | .addHead head =>
    match head.toWord with
    | .error e => (r, some (.argument e))
    | .ok h => (r.addHead h, none)
  | .removeHead head => r.withHead head fun h _ => (⟨r.rules.erase h⟩, none)
  | .addBody head body =>
    r.withHead head fun h bodies => r.withBody h body fun w => OrderedSet.insert bodies w
  | .removeBody head body =>
    r.withHead head fun h bodies => r.withBody h body fun w => OrderedSet.erase bodies w
  | .addProduction head bodies =>
    match head.toWord with
    | .error e => (r, some (.argument e))
    | .ok h => r.addProductionOf h bodies
  | .removeProduction head bodies =>
    r.withHead head fun h old => r.removeProductionOf h old bodies

/-- The relation that a list of pair arguments describes; the first bad pair is the error. -/
def addPairs (r : Relation) : List Value → Except EditError Relation
  | [] => .ok r
  | v :: vs =>
    match v.toPair with
    | .error e => .error (.argument e)
    | .ok (head, bodies) =>
      match r.apply (.addProduction head bodies) with
      | (_, some e) => .error e
      | (r, none) => addPairs r vs

def ofValue (v : Value) : Except EditError Relation :=
  match v.elementsIfGiven with
  | .error e => .error (.argument e)
  | .ok vs => empty.addPairs vs

/-- The bodies of a head, which has to be there. -/
def bodiesOf (r : Relation) (head : Value) : Except EditError (List Word) :=
  match head.toWord with
  | .error e => .error (.argument e)
  | .ok h =>
    match r.rules.get? h with
    | none => .error (.missingHead h)
    | some s => .ok s.toList

/-- Whether a head has a body; the body of a missing head is not looked at. -/
def hasBody (r : Relation) (head body : Value) : Except EditError Bool :=
  match head.toWord with
  | .error e => .error (.argument e)
  | .ok h =>
    match r.rules.get? h with
    | none => .ok false
    | some s =>
      match body.toWord with
      | .error e => .error (.argument e)
      | .ok w => .ok (s.contains w)

/-- Whether an argument is a head. What cannot be gone through is no head, but what has no text is
an error. -/
def hasHead (r : Relation) (head : Value) : Except EditError Bool :=
  match head.toWord with
  | .error (.noText e) => .error (.argument (.noText e))
  | .error _ => .ok false
  | .ok h => .ok (r.rules.contains h)

end

/-- Whether two relations have the same heads, each with the same bodies, in whatever order. -/
def same (r t : Relation) : Bool :=
  r.heads.all t.rules.contains && t.heads.all r.rules.contains
    && r.rules.entries.all fun e =>
      match t.rules.get? e.1 with
      | some s => e.2.sameElements s
      | none => false

def itemListing (item : Word × List Word) : Text :=
  Word.spaced item.1 ++ " -> " ++ List.intercalate " | " (item.2.map Word.spaced)

def listing (r : Relation) : Text :=
  "ProductionRelation([" ++ List.intercalate "; " (r.items.map itemListing) ++ "])"

end Relation

end PhraseGrammar
