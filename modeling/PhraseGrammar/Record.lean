import PhraseGrammar.FrozenGrammar

/-!
# PhraseGrammar.Record

The flat form in which grammars are stored.

* `Record` — the parts of a grammar with symbols as plain texts; the type may be missing.
* `View.record` — the record of a grammar.
* `Grammar.ofRecord`, `FrozenGrammar.ofRecord` — the grammar of a record. Rules of the same head are
  merged, and a missing type is found from the rules.
-/

namespace PhraseGrammar

structure RuleRecord where
  head : List Text
  bodies : List (List Text)
deriving DecidableEq, Repr

/-- A grammar as plain texts. -/
structure Record where
  id : Text
  start : Text
  name : Text
  nonterminals : List Text
  terminals : List Text
  rules : List RuleRecord
  type : Option GrammarType
deriving DecidableEq, Repr

def RuleRecord.ofItem (item : Word × List Word) : RuleRecord :=
  ⟨Word.texts item.1, item.2.map Word.texts⟩

def RuleRecord.toItem (r : RuleRecord) : Word × List Word :=
  (r.head.map Symbol.mk, r.bodies.map fun b => b.map Symbol.mk)

def View.record (v : View) : Record :=
  { id := v.id
    start := v.start.text
    name := v.name
    nonterminals := v.nonterminals.map (·.text)
    terminals := v.terminals.map (·.text)
    rules := v.rules.map RuleRecord.ofItem
    type := some v.type }

namespace Record

def items (r : Record) : List (Word × List Word) := r.rules.map RuleRecord.toItem

end Record

def Grammar.ofRecord (r : Record) : Grammar :=
  let g : Grammar :=
    { id := r.id
      start := ⟨r.start⟩
      name := r.name
      type := .regular
      terminals := .ofList (r.terminals.map Symbol.mk)
      nonterminals := .ofList (r.nonterminals.map Symbol.mk)
      relation := .ofPairs r.items }
  match r.type with
  | none => g.reclassify
  | some type => { g with type }

def FrozenGrammar.ofRecord (r : Record) : FrozenGrammar :=
  let g : FrozenGrammar :=
    { id := r.id
      start := ⟨r.start⟩
      name := r.name
      type := .regular
      terminals := .ofList (r.terminals.map Symbol.mk)
      nonterminals := .ofList (r.nonterminals.map Symbol.mk)
      rules := .ofPairs r.items }
  match r.type with
  | none => g.reclassify.on g
  | some type => (g.setType type).on g

end PhraseGrammar
