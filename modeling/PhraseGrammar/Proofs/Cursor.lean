import PhraseGrammar.Notation.Declarations

/-!
# PhraseGrammar.Proofs.Cursor

A reader that goes over a text with a cursor and checks each access to something that may not be
there.

* `Run`: a computation that may stop early.
* `Run.loop`: turns until one leaves the loop, or until there have been too many.
* `Cursor`: tokens, of which the last is the end of the text, and the place of the next one.
* `symbolTurn`, `bodyTurn`, `itemTurn`, `scanTurn`: what is done in one turn of each loop.
* `parseWithCursor`: the grammar of a text.

The cursor is checked when it moves, too: it must not pass the end of the text. The limit to the
turns of a loop is there for a loop without end. That the checks never fail, that a loop ends before
it comes to the limit, and that the reader of lists gives the same, is proved in
`PhraseGrammar.Proofs.Progress`.
-/

namespace PhraseGrammar.Notation

/-- What a reader asks for without looking whether it is there. -/
inductive Part where
  | char
  | token
  | previousToken
  | argument
  | firstRule
  | firstSymbol
deriving DecidableEq, Repr

/-- Why a reader stops. -/
inductive Stop where
  /-- The text is not in the notation. -/
  | malformed (fault : Fault)
  /-- What stands between two quotes is refused before it is read. -/
  | unreadable
  /-- Something is not there. -/
  | missing (part : Part)
  /-- A loop has come to its limit. -/
  | unfinished
deriving DecidableEq, Repr

def Stop.ofFault : Fault → Stop
  | .literal .nul => .unreadable
  | fault => .malformed fault

/-- A computation that may stop early. -/
abbrev Run := Except Stop

inductive Turn (σ : Type) where
  | again (s : σ)
  | leave (s : σ)

namespace Run

variable {α β σ : Type}

def refuse (fault : Fault) : Run α := throw (.ofFault fault)

def ofExcept : Except Fault α → Run α
  | .ok a => pure a
  | .error fault => refuse fault

def require (part : Part) : Option α → Run α
  | some a => pure a
  | none => throw (.missing part)

/-- Turns until one leaves the loop; no more of them than a limit. -/
def loop (turn : σ → Run (Turn σ)) : (limit : Nat) → σ → Run σ
  | 0, _ => throw .unfinished
  | limit + 1, s => do
    match ← turn s with
    | .again s => loop turn limit s
    | .leave s => pure s

@[simp] theorem ofExcept_ok (a : α) : ofExcept (.ok a) = pure a := rfl

@[simp] theorem ofExcept_error (fault : Fault) :
    ofExcept (.error fault : Except Fault α) = refuse fault := rfl

@[simp] theorem ofExcept_map_ok (f : α → β) (a : α) :
    ofExcept ((Except.ok a : Except Fault α).map f) = pure (f a) := rfl

@[simp] theorem ofExcept_map_error (f : α → β) (fault : Fault) :
    ofExcept ((Except.error fault : Except Fault α).map f) = refuse fault := rfl

@[simp] theorem refuse_bind (fault : Fault) (f : α → Run β) :
    (refuse fault : Run α) >>= f = refuse fault := rfl

variable {turn : σ → Run (Turn σ)} {n limit : Nat} {s s' : σ}

theorem loop_again (hlimit : n < limit) (h : turn s = pure (.again s')) :
    loop turn limit s = loop turn (limit - 1) s' := by
  cases limit with
  | zero => exact absurd hlimit (Nat.not_lt_zero n)
  | succ limit => rw [loop, h, pure_bind, Nat.add_sub_cancel]

theorem loop_leave (hlimit : n < limit) (h : turn s = pure (.leave s')) :
    loop turn limit s = pure s' := by
  cases limit with
  | zero => exact absurd hlimit (Nat.not_lt_zero n)
  | succ limit => rw [loop, h, pure_bind]

theorem loop_refuse {fault : Fault} (hlimit : n < limit) (h : turn s = refuse fault) :
    loop turn limit s = refuse fault := by
  cases limit with
  | zero => exact absurd hlimit (Nat.not_lt_zero n)
  | succ limit => rw [loop, h, refuse_bind]

end Run

section

variable [Host]

/-! ## The cursor -/

/-- Tokens, the end of the text among them, and the place of the next one. -/
structure Cursor where
  tokens : List Token
  index : Nat
deriving DecidableEq, Repr

namespace Cursor

def peek (c : Cursor) : Run Token := Run.require .token c.tokens[c.index]?

/-- The cursor behind the next token. There must be a token for it to stand at. -/
def next (c : Cursor) : Run Cursor :=
  if c.index + 1 < c.tokens.length then pure { c with index := c.index + 1 }
  else throw (.missing .token)

def previous (c : Cursor) : Run Token :=
  match c.index with
  | 0 => throw (.missing .previousToken)
  | i + 1 => Run.require .previousToken c.tokens[i]?

/-- Takes the next token, which has to be of a kind. -/
def take (kind : TokenKind) (c : Cursor) : Run (Token × Cursor) := do
  let t ← c.peek
  if t.kind = kind then do
    let c ← c.next
    return (t, c)
  else Run.refuse (t.fault (.expected kind t.kind))

def take? (kind : TokenKind) (c : Cursor) : Run (Option Token × Cursor) := do
  let t ← c.peek
  if t.kind = kind then do
    let (t, c) ← c.take kind
    return (some t, c)
  else return (none, c)

end Cursor

/-! ## Statements -/

structure Gathering where
  symbols : List Symbol
  last : Option Token
  cursor : Cursor
deriving DecidableEq, Repr

def symbolTurn (stops : List TokenKind) (g : Gathering) : Run (Turn Gathering) := do
  let t ← g.cursor.peek
  if t.kind ∈ stops then return .leave g
  else if t.kind.isSymbol then do
    let (t, c) ← g.cursor.take t.kind
    let s ← Run.ofExcept t.symbol
    return .again ⟨g.symbols ++ [s], some t, c⟩
  else if t.kind = .percent then do
    let (_, c) ← g.cursor.take .percent
    let (word, c) ← c.take .ident
    if word.lexeme ≠ emptyWord then Run.refuse (word.fault (.unknownInRule word.lexeme))
    else return .again ⟨g.symbols ++ [.epsilon], some word, c⟩
  else Run.refuse (t.fault (.unexpected t.kind))

def Cursor.symbolsUntil (limit : Nat) (stops : List TokenKind) (c : Cursor) : Run Gathering :=
  Run.loop (symbolTurn stops) limit ⟨[], none, c⟩

def argumentStops : List TokenKind := [.semicolon, .eof]

def headStops : List TokenKind := [.colon, .arrow, .semicolon, .eof]

def bodyStops : List TokenKind := [.bar, .semicolon, .eof, .colon, .arrow]

/-- Takes the semicolon that ends a statement; `anchor` is where it should have stood. -/
def Cursor.semicolon (statement : Statement) (anchor : Nat) (c : Cursor) : Run Cursor := do
  let (semicolon, c) ← c.take? .semicolon
  if semicolon.isSome then return c
  else do
    let found ← c.peek
    Run.refuse (.missingSemicolon statement found anchor)

/-- The statement of a directive, whose one value is asked for by its place. -/
def Directive.itemAt (percent word : Token) (d : Directive) (arguments : List Symbol) : Run Item :=
  match d with
  | .head =>
    if arguments.isEmpty then Run.refuse (word.fault .bareHeadDirective)
    else pure (.rule arguments [])
  | .terminals => pure (.terminals arguments)
  | .nonterminals => pure (.nonterminals arguments)
  | d =>
    if arguments.length ≠ 1 then
      Run.refuse (percent.fault (.notOneValue word.lexeme arguments.length))
    else do
      let s ← Run.require .argument arguments[0]?
      Run.ofExcept (d.itemOfValue word s)

def Cursor.directive (limit : Nat) (c : Cursor) : Run (Item × Cursor) := do
  let (percent, c) ← c.take .percent
  let (word, c) ← c.take .ident
  match Directive.ofWord? word.lexeme with
  | none => Run.refuse (word.fault (.unknownDirective word.lexeme))
  | some d => do
    let arguments ← c.symbolsUntil limit argumentStops
    let anchor := (arguments.last.getD word).stop
    let c ← arguments.cursor.semicolon (.directive word.lexeme) anchor
    let item ← d.itemAt percent word arguments.symbols
    return (item, c)

def Cursor.arrow (c : Cursor) : Run Cursor := do
  let (colon, c) ← c.take? .colon
  if colon.isSome then return c
  else do
    let (arrow, c) ← c.take? .arrow
    if arrow.isSome then return c
    else do
      let t ← c.peek
      Run.refuse (t.fault .noArrow)

structure Alternatives where
  bodies : List Word
  last : Option Token
  cursor : Cursor
deriving DecidableEq, Repr

def bodyTurn (limit : Nat) (a : Alternatives) : Run (Turn Alternatives) := do
  let body ← a.cursor.symbolsUntil limit bodyStops
  let (bar, c) ← body.cursor.take? .bar
  let a : Alternatives := ⟨a.bodies ++ [body.symbols], body.last.or a.last, c⟩
  return if bar.isSome then .again a else .leave a

/-- The bodies, the token behind which a semicolon may be missing, and the cursor. That token is the
one before the cursor if no body has a symbol. -/
def Alternatives.finish (a : Alternatives) : Run (List Word × Token × Cursor) := do
  let anchor ←
    match a.last with
    | some t => pure t
    | none => a.cursor.previous
  return (a.bodies, anchor, a.cursor)

def Cursor.rule (limit : Nat) (c : Cursor) : Run (Item × Cursor) := do
  let first ← c.peek
  let head ← c.symbolsUntil limit headStops
  if head.symbols.isEmpty then Run.refuse (first.fault .emptyHead)
  else do
    let c ← head.cursor.arrow
    let a ← Run.loop (bodyTurn limit) limit ⟨[], none, c⟩
    let (bodies, anchor, c) ← a.finish
    let c ← c.semicolon .rule anchor.stop
    return (.rule head.symbols bodies, c)

structure Reading where
  declarations : Declarations
  cursor : Cursor
deriving DecidableEq, Repr

def itemTurn (limit : Nat) (r : Reading) : Run (Turn Reading) := do
  let t ← r.cursor.peek
  if t.kind = .eof then return .leave r
  else do
    let (item, c) ← if t.kind = .percent then r.cursor.directive limit else r.cursor.rule limit
    return .again ⟨r.declarations.add item, c⟩

/-! ## Texts -/

structure Scanning where
  tokens : List Token
  position : Position
deriving DecidableEq, Repr

def Lexeme.tokensAt (l : Lexeme) (p : Position) : List Token :=
  match l.kind with
  | none => []
  | some kind => [⟨kind, l.chars, p⟩]

def scanTurn (source : List Char) (s : Scanning) : Run (Turn Scanning) :=
  match source.drop s.position.offset with
  | [] => pure (.leave s)
  | c :: rest =>
    match Lexeme.first? c rest with
    | none => do
      let c ← Run.require .char source[s.position.offset]?
      Run.refuse (.scan ⟨c, s.position⟩)
    | some l =>
      pure (.again ⟨s.tokens ++ l.tokensAt s.position, s.position.advance l.chars⟩)

/-- The start symbol; the first symbol of the first head is asked for by its place. -/
def Declarations.startAt (d : Declarations) : Run Symbol :=
  match d.start with
  | some s => pure s
  | .none =>
    if d.rules.isEmpty then Run.refuse .noStart
    else do
      let rule ← Run.require .firstRule d.rules[0]?
      Run.require .firstSymbol rule.1[0]?

/-- The grammar of a text, read with a cursor. No loop makes more turns than the limit. -/
def parseWithCursor (limit : Nat) (source : String) (givenId : Option Text)
    (freshId : Text := unnamedId) : Run Grammar := do
  let s ← Run.loop (scanTurn source.toList) limit ⟨[], .start⟩
  let r ← Run.loop (itemTurn limit) limit ⟨.none, s.tokens ++ [⟨.eof, [], s.position⟩], 0⟩
  let d := r.declarations
  let start ← d.startAt
  Run.ofExcept ({ d with start := some start }.grammar givenId freshId)

end

end PhraseGrammar.Notation
