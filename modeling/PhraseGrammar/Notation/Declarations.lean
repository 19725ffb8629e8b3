import PhraseGrammar.Grammar
import PhraseGrammar.Notation.Item

/-!
# PhraseGrammar.Notation.Declarations

The grammar that a text describes.

* `Declarations` — what the statements of a text say together.
* `Declarations.inferredNonterminals`, `Declarations.inferredTerminals` — alphabets that are not
  declared.
* `Declarations.grammar` — the grammar of the declarations.
* `parse` — the grammar of a text.

The last of several declarations of a single value counts, and lists of symbols add up.
-/

namespace PhraseGrammar.Notation

/-- What the statements of a text say. -/
structure Declarations where
  name : Option Text
  id : Option Text
  start : Option Symbol
  type : Option GrammarType
  terminals : Option (List Symbol)
  nonterminals : Option (List Symbol)
  rules : List (Word × List Word)
deriving DecidableEq, Repr

/-- The id of a grammar to which none is given, unless a fresh one is drawn. -/
def unnamedId : String := "00000000000000000000000000000000"

namespace Declarations

def none : Declarations := ⟨.none, .none, .none, .none, .none, .none, []⟩

def add (d : Declarations) : Item → Declarations
  | .name text => { d with name := some text }
  | .id text => { d with id := some text }
  | .start symbol => { d with start := some symbol }
  | .type type => { d with type := some type }
  | .terminals symbols => { d with terminals := some (d.terminals.getD [] ++ symbols) }
  | .nonterminals symbols => { d with nonterminals := some (d.nonterminals.getD [] ++ symbols) }
  | .rule head bodies => { d with rules := d.rules ++ [(head, bodies)] }

def ofItems (items : List Item) : Declarations := items.foldl add none

/-- The start symbol: the declared one, or the first symbol of the first head. -/
def startSymbol? (d : Declarations) : Option Symbol :=
  d.start.or (d.rules.head?.bind fun r => r.1.head?)

/-- Symbols other than `ε`. -/
def realSymbols (symbols : List Symbol) : List Symbol := symbols.filter (· != Symbol.epsilon)

def inferredNonterminals (d : Declarations) (start : Symbol) : List Symbol :=
  start :: realSymbols (d.rules.flatMap (·.1))

def inferredTerminals (d : Declarations) (nonterminals : Alphabet) : List Symbol :=
  (realSymbols (d.rules.flatMap fun r => r.1 ++ r.2.flatten)).filter fun s =>
    !nonterminals.contains s

/-- The first id that is given and not empty, else a fresh one. -/
def chooseId (given declared : Option Text) (freshId : Text) : Text :=
  ((given.toList ++ declared.toList).find? fun s => !s.isEmpty).getD freshId

/-- The grammar of the declarations; an id that is given goes before a declared one. -/
def grammar (d : Declarations) (givenId : Option Text) (freshId : Text := unnamedId) :
    Except Fault Grammar :=
  match d.startSymbol? with
  | .none => .error .noStart
  | some start =>
    let nonterminals : Alphabet := .ofList (d.nonterminals.getD (d.inferredNonterminals start))
    let terminals : Alphabet := .ofList (d.terminals.getD (d.inferredTerminals nonterminals))
    let g : Grammar :=
      { id := chooseId givenId d.id freshId
        start
        name := d.name.getD ""
        type := .regular
        terminals
        nonterminals
        relation := .ofPairs d.rules }
    match d.type with
    | .none => .ok g.reclassify
    | some type => .ok { g with type }

end Declarations

variable [Host]

def declarations (text : List Char) : Except Fault Declarations :=
  match items text with
  | .error e => .error e
  | .ok items => .ok (.ofItems items)

def parse (source : String) (givenId : Option Text) (freshId : Text := unnamedId) :
    Except ParseError Grammar :=
  match declarations source.toList with
  | .error e => .error ⟨source.toList, e⟩
  | .ok d =>
    match d.grammar givenId freshId with
    | .error e => .error ⟨source.toList, e⟩
    | .ok g => .ok g

end PhraseGrammar.Notation
