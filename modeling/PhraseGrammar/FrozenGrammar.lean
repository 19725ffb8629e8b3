import PhraseGrammar.FrozenRules
import PhraseGrammar.Grammar

/-!
# PhraseGrammar.FrozenGrammar

Grammars whose edits make new values.

* `FrozenGrammar` — the parts of a grammar, with frozen rules.
* `FrozenGrammar.apply` — one edit: kept, or a new grammar that shares every part it did not change.
* `Grammar.freeze`, `FrozenGrammar.thaw` — from one kind of grammar to the other.
* `Sharing` — which parts of a value an edit kept.
-/

namespace PhraseGrammar

/-- A grammar whose edits make new values. -/
structure FrozenGrammar where
  id : Text
  start : Symbol
  name : Text
  type : GrammarType
  terminals : Alphabet
  nonterminals : Alphabet
  rules : FrozenRules
deriving DecidableEq, Repr

namespace FrozenGrammar

def new (id : Text) (start : Symbol) (name : Text) : FrozenGrammar :=
  ⟨id, start, name, .regular, .empty, .empty, .empty⟩

def view (g : FrozenGrammar) : View :=
  ⟨g.id, g.name, g.type, g.start, g.terminals.toList, g.nonterminals.toList, g.rules.items⟩

/-- Gives the grammar another type label, unless it has it. -/
def setType (g : FrozenGrammar) (type : GrammarType) : Update FrozenGrammar :=
  if g.type = type then .kept else .changed { g with type }

def reclassify (g : FrozenGrammar) : Update FrozenGrammar := g.setType g.view.classify

/-- Gives the grammar another start symbol, unless it has it. -/
def setStart (g : FrozenGrammar) (start : Symbol) : Update FrozenGrammar :=
  if g.start = start then .kept else .changed { g with start }

section

variable [Host]

/-- Carries out an edit by the symbol that an argument stands for. -/
def withSymbol (symbol : Value) (edit : Symbol → Update FrozenGrammar) :
    Except ArgumentError (Update FrozenGrammar) :=
  match symbol.toSymbol with
  | .error e => .error e
  | .ok s => .ok (edit s)

/-- Carries out an edit on what its arguments stand for. -/
def apply (g : FrozenGrammar) : GrammarEdit → Except ArgumentError (Update FrozenGrammar)
  | .addTerminal symbol =>
    withSymbol symbol fun s => (g.terminals.add? s).map fun terminals => { g with terminals }
  | .removeTerminal symbol =>
    withSymbol symbol fun s => (g.terminals.remove? s).map fun terminals => { g with terminals }
  | .addNonterminal symbol =>
    withSymbol symbol fun s =>
      (g.nonterminals.add? s).map fun nonterminals => { g with nonterminals }
  | .removeNonterminal symbol =>
    withSymbol symbol fun s =>
      (g.nonterminals.remove? s).map fun nonterminals => { g with nonterminals }
  | .rule edit =>
    match g.rules.apply edit with
    | .error e => .error e
    | .ok u => .ok (u.map fun rules => { g with rules })
  | .setName name => .ok (if g.name = name then .kept else .changed { g with name })
  | .setStart symbol => withSymbol symbol g.setStart
  | .setType type => .ok (g.setType type)
  | .reclassify => .ok g.reclassify

theorem withSymbol_ok {symbol : Value} {s : Symbol} (h : symbol.toSymbol = .ok s)
    (edit : Symbol → Update FrozenGrammar) : withSymbol symbol edit = .ok (edit s) := by
  rw [withSymbol, h]

theorem of_withSymbol {symbol : Value} {edit : Symbol → Update FrozenGrammar}
    {u : Update FrozenGrammar} (h : withSymbol symbol edit = .ok u) :
    ∃ s, symbol.toSymbol = .ok s ∧ u = edit s := by
  unfold withSymbol at h
  split at h <;> cases h
  exact ⟨_, ‹_›, rfl⟩

end

/-- Whether two grammars are equal up to the order of symbols, heads and bodies. -/
def same (g h : FrozenGrammar) : Bool :=
  g.id == h.id && g.start == h.start && g.name == h.name && g.type == h.type
    && g.terminals.sameElements h.terminals
    && g.nonterminals.sameElements h.nonterminals
    && g.rules.same h.rules

def thaw (g : FrozenGrammar) : Grammar :=
  { id := g.id
    start := g.start
    name := g.name
    type := g.type
    terminals := .ofList g.terminals.toList
    nonterminals := .ofList g.nonterminals.toList
    relation := .ofPairs g.rules.items }

end FrozenGrammar

def Grammar.freeze (g : Grammar) : FrozenGrammar :=
  { id := g.id
    start := g.start
    name := g.name
    type := g.type
    terminals := .ofList g.terminals.toList
    nonterminals := .ofList g.nonterminals.toList
    rules := .ofPairs g.relation.items }

/-- Which parts of a frozen value are those of an older one. -/
structure Sharing where
  whole : Bool
  terminals : Bool
  nonterminals : Bool
  rules : Bool
  bodies : List Word
deriving DecidableEq, Repr

/-- The heads, in the order of the new rules, whose bodies did not change. -/
def FrozenRules.sharedHeads (old new : FrozenRules) : List Word :=
  (new.rules.entries.filter fun e => old.rules.get? e.1 == some e.2).map (·.1)

/-- A part is shared exactly when its contents, in order, did not change. -/
def FrozenGrammar.sharing (old new : FrozenGrammar) : Sharing :=
  { whole := old == new
    terminals := old.terminals == new.terminals
    nonterminals := old.nonterminals == new.nonterminals
    rules := old.rules == new.rules
    bodies := old.rules.sharedHeads new.rules }

end PhraseGrammar
