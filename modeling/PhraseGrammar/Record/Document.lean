import PhraseGrammar.Record

/-!
# PhraseGrammar.Record.Document

Records as documents.

* `Record.document` — the object that stores a record.
* `Record.ofDocument` — the record that a document stores, or the first thing wrong with it.
* `Grammar.ofDocument`, `FrozenGrammar.ofDocument` — the grammar that a document stores.
* `RecordError` — what can be wrong.

A document may leave out everything but the id and the start symbol. Any value that has a text
stands for it where a text is wanted. Symbols are not checked against the alphabets.
-/

namespace PhraseGrammar

/-- A place in a document where a list of texts is wanted. -/
inductive ListPlace where
  | nonterminals
  | terminals
  | head (rule : Nat)
  | body (rule body : Nat)
deriving DecidableEq, Repr

def ListPlace.text : ListPlace → String
  | .nonterminals => "nonTerminals"
  | .terminals => "terminals"
  | .head i => "rules[" ++ toString i ++ "].head"
  | .body i j => "rules[" ++ toString i ++ "].bodies[" ++ toString j ++ "]"

inductive RecordError where
  | notObject (kind : Kind)
  | missingField (name : String)
  | notTextList (place : ListPlace) (kind : Kind)
  | notRule (index : Nat)
  | unknownType (shown : String)
  | notIterable (kind : Kind)
  | noText (e : DisplayError)
deriving DecidableEq, Repr

def RecordError.message : RecordError → String
  | .notObject kind => "grammar record must be an object, got " ++ kind.name
  | .missingField name => "grammar record is missing required field '" ++ name ++ "'"
  | .notTextList place kind => place.text ++ " must be a list of strings, got " ++ kind.name
  | .notRule index =>
    "rules[" ++ toString index ++ "] must be an object with 'head' and 'bodies'"
  | .unknownType shown =>
    "unknown grammar type " ++ shown ++ " (expected one of: " ++ GrammarType.allNames ++ ")"
  | .notIterable kind => (ArgumentError.notIterable kind).message
  | .noText e => e.message

namespace Record

def textList (texts : List Text) : Value := .list (texts.map .text)

def ruleDocument (r : RuleRecord) : Value :=
  .object [("head", textList r.head), ("bodies", .list (r.bodies.map textList))]

def typeDocument : Option GrammarType → Value
  | none => .null
  | some type => .text type.name

def document (r : Record) : Value :=
  .object [
    ("id", .text r.id),
    ("name", .text r.name),
    ("type", typeDocument r.type),
    ("startSymbol", .text r.start),
    ("nonTerminals", textList r.nonterminals),
    ("terminals", textList r.terminals),
    ("rules", .list (r.rules.map ruleDocument))]

section

variable [Host]

def readText (v : Value) : Except RecordError Text :=
  match v.display with
  | .ok t => .ok t
  | .error e => .error (.noText e)

/-- A field that has to be there, as a text. -/
def requireText (fields : List (Text × Value)) (name : String) : Except RecordError Text :=
  match Value.lookup fields name with
  | some v => readText v
  | none => .error (.missingField name)

def readTexts (place : ListPlace) : Value → Except RecordError (List Text)
  | .list vs =>
    match Value.displayAll vs with
    | .ok ts => .ok ts
    | .error e => .error (.noText e)
  | v => .error (.notTextList place v.kind)

/-- A field that holds a list of texts, or no texts if it is left out. -/
def readTextField (fields : List (Text × Value)) (name : String) (place : ListPlace) :
    Except RecordError (List Text) :=
  match Value.lookup fields name with
  | some v => readTexts place v
  | none => .ok []

/-- What a field yields when it is gone through; nothing if it is left out or counts as not
given. -/
def readElements (fields : List (Text × Value)) (name : String) :
    Except RecordError (List Value) :=
  match Value.lookup fields name with
  | none => .ok []
  | some v =>
    if !v.isTruthy then .ok []
    else match v.elements? with
      | some vs => .ok vs
      | none => .error (.notIterable v.kind)

/-- The bodies of a rule, numbered from `index`. -/
def readBodies (rule : Nat) (index : Nat) : List Value → Except RecordError (List (List Text))
  | [] => .ok []
  | v :: vs => do
    let body ← readTexts (.body rule index) v
    let bodies ← readBodies rule (index + 1) vs
    return body :: bodies

def readRule (index : Nat) : Value → Except RecordError RuleRecord
  | .object fields =>
    match Value.lookup fields "head" with
    | none => .error (.notRule index)
    | some head => do
      let head ← readTexts (.head index) head
      let bodies ← readBodies index 0 (← readElements fields "bodies")
      return ⟨head, bodies⟩
  | _ => .error (.notRule index)

def readRules (index : Nat) : List Value → Except RecordError (List RuleRecord)
  | [] => .ok []
  | v :: vs => do
    let rule ← readRule index v
    let rules ← readRules (index + 1) vs
    return rule :: rules

/-- What is wrong with a value that is no type; it has to be shown. -/
def typeFault (v : Value) : RecordError :=
  match v.quoted Host.showingCalls with
  | .ok shown => .unknownType shown
  | .error e => .noText e

/-- The type; null counts as left out. -/
def readType (fields : List (Text × Value)) : Except RecordError (Option GrammarType) :=
  match Value.lookup fields "type" with
  | none | some .null => .ok none
  | some (.text s) =>
    match GrammarType.ofName? s with
    | some type => .ok (some type)
    | none => .error (typeFault (.text s))
  | some v => .error (typeFault v)

/-- A name is empty if it is left out. -/
def readName (fields : List (Text × Value)) : Except RecordError Text :=
  match Value.lookup fields "name" with
  | some v => readText v
  | none => .ok ""

/-- The record that a document stores. -/
def ofDocument : Value → Except RecordError Record
  | .object fields => do
    let id ← requireText fields "id"
    let start ← requireText fields "startSymbol"
    let name ← readName fields
    let nonterminals ← readTextField fields "nonTerminals" .nonterminals
    let terminals ← readTextField fields "terminals" .terminals
    let rules ← readRules 0 (← readElements fields "rules")
    let type ← readType fields
    return { id, start, name, nonterminals, terminals, rules, type }
  | v => .error (.notObject v.kind)

end

end Record

section

variable [Host]

def Grammar.ofDocument (document : Value) : Except RecordError Grammar := do
  return .ofRecord (← Record.ofDocument document)

def FrozenGrammar.ofDocument (document : Value) : Except RecordError FrozenGrammar := do
  return .ofRecord (← Record.ofDocument document)

end

end PhraseGrammar
