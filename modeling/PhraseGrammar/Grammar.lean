import PhraseGrammar.Alphabet
import PhraseGrammar.Classify
import PhraseGrammar.Relation

/-!
# PhraseGrammar.Grammar

Grammars that are edited in place.

* `Grammar` — two alphabets and a relation, with an id that never changes, a name, a start symbol
  and a type label.
* `GrammarEdit` — the edits that both kinds of grammars know.
* `Grammar.apply` — one edit: the grammar after it, and the error if it failed.

The type is a label: edits leave it alone, only `reclassify` brings it up to date. Whether the
start symbol is a nonterminal is not checked.
-/

namespace PhraseGrammar

inductive GrammarEdit where
  | addTerminal (symbol : Value)
  | removeTerminal (symbol : Value)
  | addNonterminal (symbol : Value)
  | removeNonterminal (symbol : Value)
  | rule (edit : RuleEdit)
  | setName (name : Text)
  | setStart (symbol : Value)
  | setType (type : GrammarType)
  | reclassify
deriving Repr

/-- A grammar edited in place. -/
structure Grammar where
  id : Text
  start : Symbol
  name : Text
  type : GrammarType
  terminals : Alphabet
  nonterminals : Alphabet
  relation : Relation
deriving DecidableEq, Repr

namespace Grammar

def new (id : Text) (start : Symbol) (name : Text) : Grammar :=
  ⟨id, start, name, .regular, .empty, .empty, .empty⟩

def view (g : Grammar) : View :=
  ⟨g.id, g.name, g.type, g.start, g.terminals.toList, g.nonterminals.toList, g.relation.items⟩

def reclassify (g : Grammar) : Grammar := { g with type := g.view.classify }

section

variable [Host]

/-- Carries out an edit by the symbol that an argument stands for. -/
def withSymbol (g : Grammar) (symbol : Value) (edit : Symbol → Grammar) :
    Grammar × Option EditError :=
  match symbol.toSymbol with
  | .error e => (g, some (.argument e))
  | .ok s => (edit s, none)

/-- Carries out an edit: the grammar after it, and the error if it failed. -/
def apply (g : Grammar) : GrammarEdit → Grammar × Option EditError
  | .addTerminal symbol =>
    g.withSymbol symbol fun s => { g with terminals := OrderedSet.insert g.terminals s }
  | .removeTerminal symbol =>
    g.withSymbol symbol fun s => { g with terminals := OrderedSet.erase g.terminals s }
  | .addNonterminal symbol =>
    g.withSymbol symbol fun s => { g with nonterminals := OrderedSet.insert g.nonterminals s }
  | .removeNonterminal symbol =>
    g.withSymbol symbol fun s => { g with nonterminals := OrderedSet.erase g.nonterminals s }
  | .rule edit =>
    let (relation, e) := g.relation.apply edit
    ({ g with relation }, e)
  | .setName name => ({ g with name }, none)
  | .setStart symbol => g.withSymbol symbol fun s => { g with start := s }
  | .setType type => ({ g with type }, none)
  | .reclassify => (g.reclassify, none)

end

/-- An id is given once and for all. -/
def setId (_ : Grammar) (_ : Text) : Except EditError Grammar := .error .fixedId

def copy (g : Grammar) : Grammar :=
  { g with
    terminals := .ofList g.terminals.toList
    nonterminals := .ofList g.nonterminals.toList
    relation := g.relation.copy }

/-- Whether two grammars are equal up to the order of symbols, heads and bodies. -/
def same (g h : Grammar) : Bool :=
  g.id == h.id && g.start == h.start && g.name == h.name && g.type == h.type
    && g.terminals.sameElements h.terminals
    && g.nonterminals.sameElements h.nonterminals
    && g.relation.same h.relation

def listing (g : Grammar) : Text :=
  "Grammar(id=" ++ Text.quoted g.id
    ++ ", start_symbol=" ++ g.start.quoted
    ++ ", name=" ++ Text.quoted g.name
    ++ ", type=<GrammarType." ++ g.type.name ++ ": '" ++ g.type.name ++ "'>"
    ++ ", terminal_symbols=" ++ Alphabet.listing g.terminals
    ++ ", non_terminal_symbols=" ++ Alphabet.listing g.nonterminals
    ++ ", production_rules=" ++ g.relation.listing ++ ")"

end Grammar

end PhraseGrammar
