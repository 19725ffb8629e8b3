import PhraseGrammar.Notation.Token

/-!
# PhraseGrammar.Notation.Scan

A text cut into tokens.

* `Scan` — the tokens of a text and the position where it ends.
* `scan` — the tokens of a text, or the first character that begins none.
-/

namespace PhraseGrammar.Notation

/-- A character that begins no token, blank or comment. -/
structure ScanFault where
  char : Char
  position : Position
deriving DecidableEq, Repr

structure Scan where
  tokens : List Token
  ending : Position
deriving DecidableEq, Repr

def Scan.eof (s : Scan) : Token := ⟨.eof, [], s.ending⟩

/-- The tokens from a place on. Each lexeme takes at least one character, so fuel of the length of
the text is enough. -/
def scanFrom (position : Position) : (fuel : Nat) → List Char → Except ScanFault Scan
  | _, [] => .ok ⟨[], position⟩
  | 0, c :: _ => .error ⟨c, position⟩
  | fuel + 1, c :: rest =>
    match Lexeme.first? c rest with
    | none => .error ⟨c, position⟩
    | some lexeme =>
      match scanFrom (position.advance lexeme.chars) fuel lexeme.rest with
      | .error e => .error e
      | .ok s =>
        match lexeme.kind with
        | none => .ok s
        | some kind => .ok { s with tokens := ⟨kind, lexeme.chars, position⟩ :: s.tokens }

def scan (cs : List Char) : Except ScanFault Scan := scanFrom .start cs.length cs

end PhraseGrammar.Notation
