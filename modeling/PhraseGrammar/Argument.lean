import PhraseGrammar.Value.Display

/-!
# PhraseGrammar.Argument

Dynamic values read as symbols, words and pairs.

* `Value.toSymbol` — a value that has a text stands for the symbol of this text.
* `Value.toWord` — a text or a symbol is a word of one symbol, a list a word of its elements.
* `Value.elements`, `Value.toPair` — going through a value, and splitting it in two.
-/

namespace PhraseGrammar

/-- Why a value is not what was asked for. -/
inductive ArgumentError where
  | notIterable (kind : Kind)
  | notUnpackable (kind : Kind)
  | tooManyParts
  | tooFewParts (got : Nat)
  | unhashable (kind : Kind)
  | noText (e : DisplayError)
deriving DecidableEq, Repr

def ArgumentError.message : ArgumentError → String
  | .notIterable kind => "'" ++ kind.name ++ "' object is not iterable"
  | .notUnpackable kind => "cannot unpack non-iterable " ++ kind.name ++ " object"
  | .tooManyParts => "too many values to unpack (expected 2)"
  | .tooFewParts got =>
    "not enough values to unpack (expected 2, got " ++ toString got ++ ")"
  | .unhashable kind => "unhashable type: '" ++ kind.name ++ "'"
  | .noText e => e.message

namespace Value

def elements (v : Value) : Except ArgumentError (List Value) :=
  match v.elements? with
  | some vs => .ok vs
  | none => .error (.notIterable v.kind)

/-- What a value yields where an optional collection is wanted: nothing for one that counts as not
given. -/
def elementsIfGiven (v : Value) : Except ArgumentError (List Value) :=
  if v.isTruthy then v.elements else .ok []

/-- The two parts of a value that yields exactly two. -/
def toPair (v : Value) : Except ArgumentError (Value × Value) :=
  match v.elements? with
  | none => .error (.notUnpackable v.kind)
  | some [a, b] => .ok (a, b)
  | some (_ :: _ :: _) => .error .tooManyParts
  | some vs => .error (.tooFewParts vs.length)

section

variable [Host]

def toSymbol (v : Value) : Except ArgumentError Symbol :=
  match v.display with
  | .ok t => .ok ⟨t⟩
  | .error e => .error (.noText e)

def toSymbols (vs : List Value) : Except ArgumentError (List Symbol) :=
  match displayAll vs with
  | .ok ts => .ok (ts.map Symbol.mk)
  | .error e => .error (.noText e)

/-- The word that a value stands for, in normal form. -/
def toWord : Value → Except ArgumentError Word
  | .text s => .ok (Word.normalize [⟨s⟩])
  | .symbol s => .ok (Word.normalize [s])
  | v =>
    match v.elements with
    | .error e => .error e
    | .ok vs =>
      match toSymbols vs with
      | .error e => .error e
      | .ok symbols => .ok (Word.normalize symbols)

/-- The words that values stand for; the first that is no word is the error. -/
def toWords : List Value → Except ArgumentError (List Word)
  | [] => .ok []
  | v :: vs =>
    match v.toWord with
    | .error e => .error e
    | .ok w =>
      match toWords vs with
      | .error e => .error e
      | .ok ws => .ok (w :: ws)

theorem toSymbols_symbols (w : List Symbol) : toSymbols (w.map .symbol) = .ok w := by
  rw [toSymbols, displayAll_map display_symbol]
  exact congrArg Except.ok ((List.map_map ..).trans (List.map_id w))

end

end Value

end PhraseGrammar
