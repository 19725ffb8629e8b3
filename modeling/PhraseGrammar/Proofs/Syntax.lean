import PhraseGrammar.Notation.Declarations

/-!
# PhraseGrammar.Proofs.Syntax

The notation, described by its phrases.

* `Sign` — a token without its place.
* `Spells` — the signs of some symbols.
* `SpellsBodies` — the signs of alternatives, with bars between them.
* `Phrase` — the signs of one statement; `Phrases` — the signs of a text.
* `Describes` — the grammar that statements describe.

Nothing here reads from left to right: the reader is proved against these relations.
-/

namespace PhraseGrammar.Notation

section

variable [Host]

/-- A token without its place. -/
structure Sign where
  kind : TokenKind
  chars : List Char
deriving DecidableEq, Repr

def Token.sign (t : Token) : Sign := ⟨t.kind, t.lexeme⟩

def TokenKind.isQuoted (k : TokenKind) : Bool := k == .doubleQuoted || k == .singleQuoted

namespace Sign

def Decodes (x : Sign) : Prop :=
  x.kind.isQuoted = true → ∃ t, Literal.decode x.chars = .ok t

theorem decodes_of_kind {x : Sign} (h : x.kind.isQuoted = false) : x.Decodes := by
  intro hq
  rw [h] at hq
  cases hq

/-- The symbol of a sign. What does not decode counts as the empty text here. -/
def symbol (x : Sign) : Symbol :=
  match x.kind with
  | .doubleQuoted | .singleQuoted =>
    ⟨(Literal.decode x.chars).toOption.getD []⟩
  | .epsilon => .epsilon
  | _ => ⟨.ofChars x.chars⟩

end Sign

/-- Symbols: each is one sign, or a percent sign and the word `empty`. -/
inductive Spells : List Sign → List Symbol → Prop where
  | nil : Spells [] []
  | sign {x : Sign} {xs : List Sign} {symbols : List Symbol} :
      x.kind.isSymbol = true → Spells xs symbols → Spells (x :: xs) (x.symbol :: symbols)
  | empty {percent word : Sign} {xs : List Sign} {symbols : List Symbol} :
      percent.kind = .percent → word.kind = .ident → word.chars = emptyWord →
      Spells xs symbols → Spells (percent :: word :: xs) (.epsilon :: symbols)

inductive SpellsBodies : List Sign → List (List Symbol) → Prop where
  | one {xs : List Sign} {body : List Symbol} : Spells xs body → SpellsBodies xs [body]
  | bar {xs ys : List Sign} {bar : Sign} {body : List Symbol} {bodies : List (List Symbol)} :
      Spells xs body → bar.kind = .bar → SpellsBodies ys bodies →
      SpellsBodies (xs ++ bar :: ys) (body :: bodies)

/-- What a directive says with its arguments. -/
inductive Directive.Says : Directive → List Symbol → Item → Prop where
  | name (s : Symbol) : Says .name [s] (.name s.text)
  | id (s : Symbol) : Says .id [s] (.id s.text)
  | start (s : Symbol) : Says .start [s] (.start s)
  | type (t : GrammarType) : Says .type [⟨t.name⟩] (.type t)
  | terminals (symbols : List Symbol) : Says .terminals symbols (.terminals symbols)
  | nonterminals (symbols : List Symbol) : Says .nonterminals symbols (.nonterminals symbols)
  | head {symbols : List Symbol} : symbols ≠ [] → Says .head symbols (.rule symbols [])

/-- One statement: a directive, or a rule, which does not begin with a percent sign. -/
inductive Phrase : List Sign → Item → Prop where
  | directive {percent word semicolon : Sign} {xs : List Sign} {d : Directive}
      {arguments : List Symbol} {item : Item} :
      percent.kind = .percent → word.kind = .ident → word.chars = d.word.toList →
      Spells xs arguments → semicolon.kind = .semicolon → d.Says arguments item →
      Phrase (percent :: word :: xs ++ [semicolon]) item
  | rule {x arrow semicolon : Sign} {xs ys : List Sign} {head : List Symbol}
      {bodies : List (List Symbol)} :
      x.kind ≠ .percent → Spells (x :: xs) head → arrow.kind = .colon ∨ arrow.kind = .arrow →
      SpellsBodies ys bodies → semicolon.kind = .semicolon →
      Phrase (x :: xs ++ arrow :: ys ++ [semicolon]) (.rule head bodies)

inductive Phrases : List Sign → List Item → Prop where
  | nil : Phrases [] []
  | cons {xs ys : List Sign} {item : Item} {items : List Item} :
      Phrase xs item → Phrases ys items → Phrases (xs ++ ys) (item :: items)

/-! ## The grammar that statements describe -/

namespace Item

def name? : Item → Option Text
  | .name text => some text
  | _ => none

def id? : Item → Option Text
  | .id text => some text
  | _ => none

def start? : Item → Option Symbol
  | .start symbol => some symbol
  | _ => none

def type? : Item → Option GrammarType
  | .type t => some t
  | _ => none

def terminals? : Item → Option (List Symbol)
  | .terminals symbols => some symbols
  | _ => none

def nonterminals? : Item → Option (List Symbol)
  | .nonterminals symbols => some symbols
  | _ => none

def rule? : Item → Option (Word × List Word)
  | .rule head bodies => some (head, bodies)
  | _ => none

def last {α : Type} (f : Item → Option α) (items : List Item) : Option α :=
  (items.filterMap f).getLast?

def together {α : Type} (f : Item → Option (List α)) (items : List Item) : Option (List α) :=
  if items.filterMap f = [] then none else some (items.filterMap f).flatten

def rules (items : List Item) : List (Word × List Word) := items.filterMap rule?

/-- The start symbol: the last declared one, else the first symbol of the first head. -/
def startSymbol? (items : List Item) : Option Symbol :=
  (last start? items).or ((rules items).head?.bind fun r => r.1.head?)

end Item

/-- The word of an alternative: one without symbols is the empty word. -/
def alternativeWord (body : List Symbol) : Word := if body = [] then Word.empty else body

/-- The grammar that statements describe, field by field. -/
structure Describes (items : List Item) (givenId : Option Text) (freshId : Text)
    (g : Grammar) : Prop where
  id : g.id =
    ((givenId.toList ++ (Item.last Item.id? items).toList).find? fun t => t ≠ []).getD freshId
  name : g.name = (Item.last Item.name? items).getD ""
  start : Item.startSymbol? items = some g.start
  nonterminals : g.nonterminals = .ofList ((Item.together Item.nonterminals? items).getD
    (g.start :: ((Item.rules items).flatMap fun r => r.1).filter (· ≠ Symbol.epsilon)))
  terminals : g.terminals = .ofList ((Item.together Item.terminals? items).getD
    (((Item.rules items).flatMap fun r => r.1 ++ r.2.flatten).filter fun s =>
      s ≠ Symbol.epsilon ∧ s ∉ g.nonterminals.toList))
  relation : g.relation = (Item.rules items).foldl
    (fun r rule => r.addProduction rule.1 (rule.2.map alternativeWord)) .empty
  type : g.type = (Item.last Item.type? items).getD g.view.classify

end

end PhraseGrammar.Notation
