import PhraseGrammar.Notation.Fault
import PhraseGrammar.Symbol

/-!
# PhraseGrammar.Notation.Item

The statements of a grammar text, read from its tokens.

* `Item` — a declaration or a rule. A declared head is a rule with no bodies.
* `readSymbols` — the symbols up to a token that ends them.
* `readDirective`, `readRule` — one statement.
* `readItems` — all statements.

The tokens do not include the end of the text, which is given beside them as `eof`; every statement
ends there at the latest.
-/

namespace PhraseGrammar.Notation

variable [Host]

inductive Item where
  | name (text : Text)
  | id (text : Text)
  | start (symbol : Symbol)
  | type (type : GrammarType)
  | terminals (symbols : List Symbol)
  | nonterminals (symbols : List Symbol)
  | rule (head : Word) (bodies : List Word)
deriving DecidableEq, Repr

/-- The next token, which may be the end of the text. -/
def peek (eof : Token) (ts : List Token) : Token := ts.headD eof

def Token.fault (t : Token) (p : Problem) : Fault := .located p t.position

def TokenKind.isSymbol : TokenKind → Bool
  | .ident | .doubleQuoted | .singleQuoted | .epsilon => true
  | _ => false

def Token.symbol (t : Token) : Except Fault Symbol :=
  match t.kind with
  | .doubleQuoted | .singleQuoted =>
    match Literal.decode t.lexeme with
    | .ok t => .ok ⟨t⟩
    | .error e => .error (.literal e)
  | .epsilon => .ok .epsilon
  | _ => .ok ⟨.ofChars t.lexeme⟩

/-- Some symbols, the last token of them, and the tokens after them. -/
structure Symbols where
  symbols : List Symbol
  last : Option Token
  rest : List Token
deriving DecidableEq, Repr

def Symbols.cons (s : Symbol) (t : Token) (ss : Symbols) : Symbols :=
  ⟨s :: ss.symbols, some (ss.last.getD t), ss.rest⟩

/-- The word that names the empty word after a percent sign. -/
def emptyWord : List Char := "empty".toList

/-- The symbols up to a token of a kind that ends them. -/
def readSymbols (eof : Token) (ends : TokenKind → Bool) : List Token → Except Fault Symbols
  | [] => .ok ⟨[], none, []⟩
  | t :: rest =>
    if ends t.kind then .ok ⟨[], none, t :: rest⟩
    else if t.kind.isSymbol then
      match t.symbol with
      | .error e => .error e
      | .ok s =>
        match readSymbols eof ends rest with
        | .error e => .error e
        | .ok ss => .ok (ss.cons s t)
    else if t.kind = .percent then
      match rest with
      | [] => .error (eof.fault (.expected .ident .eof))
      | word :: rest =>
        if word.kind ≠ .ident then .error (word.fault (.expected .ident word.kind))
        else if word.lexeme ≠ emptyWord then .error (word.fault (.unknownInRule word.lexeme))
        else
          match readSymbols eof ends rest with
          | .error e => .error e
          | .ok ss => .ok (ss.cons .epsilon word)
    else .error (t.fault (.unexpected t.kind))

/-- Takes the semicolon that ends a statement; `anchor` is where it should have stood. -/
def readSemicolon (eof : Token) (statement : Statement) (anchor : Nat) (ts : List Token) :
    Except Fault (List Token) :=
  match ts with
  | [] => .error (.missingSemicolon statement eof anchor)
  | t :: rest =>
    if t.kind = .semicolon then .ok rest else .error (.missingSemicolon statement t anchor)

inductive Directive where
  | name
  | id
  | start
  | type
  | terminals
  | nonterminals
  | head
deriving DecidableEq, Repr

def Directive.word : Directive → String
  | .name => "name"
  | .id => "id"
  | .start => "start"
  | .type => "type"
  | .terminals => "terminals"
  | .nonterminals => "nonterminals"
  | .head => "head"

def Directive.ofWord? (cs : List Char) : Option Directive :=
  [name, id, start, type, terminals, nonterminals, head].find? fun d => d.word.toList == cs

/-- The statement of a directive that takes one value. -/
def Directive.itemOfValue (word : Token) : Directive → Symbol → Except Fault Item
  | .name, s => .ok (.name s.text)
  | .id, s => .ok (.id s.text)
  | .type, s =>
    match GrammarType.ofName? s.text with
    | some t => .ok (.type t)
    | none => .error (word.fault (.unknownType s.text))
  | _, s => .ok (.start s)

/-- The statement of a directive with its arguments; `percent` and `word` are its tokens. -/
def Directive.item (percent word : Token) (d : Directive) (arguments : List Symbol) :
    Except Fault Item :=
  match d with
  | .head =>
    if arguments.isEmpty then .error (word.fault .bareHeadDirective) else .ok (.rule arguments [])
  | .terminals => .ok (.terminals arguments)
  | .nonterminals => .ok (.nonterminals arguments)
  | d =>
    match arguments with
    | [s] => d.itemOfValue word s
    | _ => .error (percent.fault (.notOneValue word.lexeme arguments.length))

def endsArguments (k : TokenKind) : Bool := k == .semicolon

def endsHead (k : TokenKind) : Bool := k == .colon || k == .arrow || k == .semicolon

def endsBody (k : TokenKind) : Bool := k == .bar || endsHead k

/-- A directive whose percent sign has been read. -/
def readDirective (eof percent : Token) (ts : List Token) : Except Fault (Item × List Token) :=
  match ts with
  | [] => .error (eof.fault (.expected .ident .eof))
  | word :: rest =>
    if word.kind ≠ .ident then .error (word.fault (.expected .ident word.kind))
    else
      match Directive.ofWord? word.lexeme with
      | none => .error (word.fault (.unknownDirective word.lexeme))
      | some d =>
        match readSymbols eof endsArguments rest with
        | .error e => .error e
        | .ok arguments =>
          let anchor := (arguments.last.getD word).stop
          match readSemicolon eof (.directive word.lexeme) anchor arguments.rest with
          | .error e => .error e
          | .ok rest =>
            match d.item percent word arguments.symbols with
            | .error e => .error e
            | .ok item => .ok (item, rest)

/-- The bodies of a rule, the last token of them, and the tokens after them. -/
structure BodyList where
  bodies : List Word
  anchor : Token
  rest : List Token
deriving DecidableEq, Repr

/-- The bodies after a token, an arrow or a bar. While every body is empty the anchor is that token,
then it is the last token of a body. -/
def readBodies (eof : Token) : (fuel : Nat) → (previous : Token) → (last : Option Token) →
    List Token → Except Fault BodyList
  | fuel, previous, last, ts =>
    match readSymbols eof endsBody ts with
    | .error e => .error e
    | .ok body =>
      let last := body.last.or last
      match fuel, body.rest with
      | fuel + 1, t :: rest =>
        if t.kind = .bar then
          match readBodies eof fuel t last rest with
          | .error e => .error e
          | .ok more => .ok { more with bodies := body.symbols :: more.bodies }
        else .ok ⟨[body.symbols], last.getD previous, t :: rest⟩
      | _, rest => .ok ⟨[body.symbols], last.getD previous, rest⟩

def readRule (eof : Token) (ts : List Token) : Except Fault (Item × List Token) :=
  match readSymbols eof endsHead ts with
  | .error e => .error e
  | .ok head =>
    if head.symbols.isEmpty then .error ((peek eof ts).fault .emptyHead)
    else
      match head.rest with
      | [] => .error (eof.fault .noArrow)
      | arrow :: rest =>
        if arrow.kind ≠ .colon ∧ arrow.kind ≠ .arrow then .error (arrow.fault .noArrow)
        else
          match readBodies eof rest.length arrow none rest with
          | .error e => .error e
          | .ok bodies =>
            match readSemicolon eof .rule bodies.anchor.stop bodies.rest with
            | .error e => .error e
            | .ok rest => .ok (.rule head.symbols bodies.bodies, rest)

/-- One statement: a percent sign begins a directive, and anything else a rule. -/
def readItem (eof : Token) (t : Token) (rest : List Token) : Except Fault (Item × List Token) :=
  if t.kind = .percent then readDirective eof t rest else readRule eof (t :: rest)

/-- The statements of some tokens. Each takes at least one token. -/
def readItems (eof : Token) : (fuel : Nat) → List Token → Except Fault (List Item)
  | _, [] => .ok []
  | 0, t :: _ => .error (t.fault (.unexpected t.kind))
  | fuel + 1, t :: rest =>
    match readItem eof t rest with
    | .error e => .error e
    | .ok (item, rest) =>
      match readItems eof fuel rest with
      | .error e => .error e
      | .ok items => .ok (item :: items)

def items (text : List Char) : Except Fault (List Item) :=
  match scan text with
  | .error e => .error (.scan e)
  | .ok s => readItems s.eof s.tokens.length s.tokens

end PhraseGrammar.Notation
