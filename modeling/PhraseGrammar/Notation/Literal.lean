import PhraseGrammar.Host
import PhraseGrammar.Text
import PhraseGrammar.Text.Hex
import PhraseGrammar.Text.Lines

/-!
# PhraseGrammar.Notation.Literal

Quoted symbols read as texts.

* `Literal.decode` — the text of a quoted lexeme, or why it has none.

A backslash begins an escape; one before a line end makes both vanish, and one before a letter that
names no escape stays. A literal without a backslash is its own text. Escape faults are placed in
the literal with every character beyond ASCII spelled as an eight-digit escape, ten octets long.
-/

namespace PhraseGrammar.Notation.Literal

inductive EscapeProblem where
  | shortHex2
  | shortHex4
  | shortHex8
  | beyondUnicode
  | malformedName
  | unknownName
deriving DecidableEq, Repr

def EscapeProblem.text : EscapeProblem → String
  | .shortHex2 => "truncated \\xXX escape"
  | .shortHex4 => "truncated \\uXXXX escape"
  | .shortHex8 => "truncated \\UXXXXXXXX escape"
  | .beyondUnicode => "illegal Unicode character"
  | .malformedName => "malformed \\N character escape"
  | .unknownName => "unknown Unicode character name"

/-- A bad escape: the offsets of its first and last octets. -/
structure EscapeFault where
  problem : EscapeProblem
  first : Nat
  last : Nat
deriving DecidableEq, Repr

/-- Why a quoted lexeme has no text. Lines are counted within the literal. -/
inductive Fault where
  | nul
  | lineEnd (line : Nat)
  | escape (fault : EscapeFault) (line : Nat)
deriving DecidableEq, Repr

def Fault.message : Fault → String
  | .nul => "source code string cannot contain null bytes"
  | .lineEnd line =>
    "unterminated string literal (detected at line " ++ toString line ++ ") (<unknown>, line 1)"
  | .escape fault line =>
    "(unicode error) 'unicodeescape' codec can't decode bytes in position "
      ++ toString fault.first ++ "-" ++ toString fault.last ++ ": " ++ fault.problem.text
      ++ " (<unknown>, line " ++ toString line ++ ")"

/-- The line of the first line end that no backslash precedes. -/
def lineEnd? (line : Nat) : List Char → Option Nat
  | [] => none
  | '\\' :: '\n' :: rest => lineEnd? (line + 1) rest
  | '\\' :: _ :: rest => lineEnd? line rest
  | '\n' :: _ => some line
  | _ :: rest => lineEnd? line rest

/-- The line of the end of a literal: every line end that a backslash precedes adds one. -/
def lastLine (line : Nat) : List Char → Nat
  | [] => line
  | '\\' :: '\n' :: rest => lastLine (line + 1) rest
  | '\\' :: _ :: rest => lastLine line rest
  | _ :: rest => lastLine line rest

def isWide (c : Char) : Bool := 0x80 ≤ c.toNat

/-- The number of octets of a character. -/
def charWidth (c : Char) : Nat := if isWide c then 10 else 1

/-- The number of octets of a backslash before a character: before a wide one it is spelled as an
escape itself. -/
def backslashWidth (next : Char) : Nat := if isWide next then 6 else 1

def spelledWidth : List Char → Nat
  | [] => 0
  | '\\' :: c :: rest => backslashWidth c + charWidth c + spelledWidth rest
  | c :: rest => charWidth c + spelledWidth rest

def letterEscape? : Char → Option Char
  | '\\' => some '\\'
  | '\'' => some '\''
  | '"' => some '"'
  | 'b' => some '\x08'
  | 'f' => some '\x0c'
  | 't' => some '\t'
  | 'n' => some '\n'
  | 'r' => some '\r'
  | 'v' => some '\x0b'
  | 'a' => some '\x07'
  | _ => none

/-- How many hexadecimal digits an escape of a letter takes, and what it is called if they are
missing. -/
def hexEscape? : Char → Option (Nat × EscapeProblem)
  | 'x' => some (2, .shortHex2)
  | 'u' => some (4, .shortHex4)
  | 'U' => some (8, .shortHex8)
  | _ => none

def isOctalDigit (c : Char) : Bool := '0' ≤ c && c ≤ '7'

/-- Splits off the characters that satisfy a test, at most `limit` of them. -/
def spanAtMost (test : Char → Bool) : (limit : Nat) → List Char → List Char × List Char
  | 0, cs => ([], cs)
  | _ + 1, [] => ([], [])
  | limit + 1, c :: cs =>
    if test c then
      let (taken, rest) := spanAtMost test limit cs
      (c :: taken, rest)
    else ([], c :: cs)

def octalValue (digits : List Char) : Nat :=
  digits.foldl (fun n c => 8 * n + (c.toNat - '0'.toNat)) 0

/-- The code point of a hexadecimal escape whose letter has been read, and the rest. -/
def readHex (first count : Nat) (short : EscapeProblem) (cs : List Char) :
    Except EscapeFault (CodePoint × List Char) :=
  let (digits, rest) := spanAtMost (fun c => (Text.hexDigit? c).isSome) count cs
  if digits.length < count then .error ⟨short, first, first + 1 + digits.length⟩
  else
    let n := (Text.hexValue? digits).getD 0
    if 0x10FFFF < n then .error ⟨.beyondUnicode, first, first + 1 + count⟩
    else .ok (.ofNat n, rest)

/-- The name in the braces of an escape by name whose letter has been read, and the rest. -/
def readName (first : Nat) (cs : List Char) : Except EscapeFault (List Char × List Char) :=
  match cs with
  | '\x7b' :: rest =>
    let name := rest.takeWhile (· != '\x7d')
    if name.length = rest.length then .error ⟨.malformedName, first, first + 2 + spelledWidth rest⟩
    else if name.isEmpty then .error ⟨.malformedName, first, first + 2⟩
    else .ok (name, rest.drop (name.length + 1))
  | _ => .error ⟨.malformedName, first, first + 1⟩

section

variable [Host]

/-- The text of the inside of a literal that begins at an offset. -/
def decodeFrom (offset : Nat) : (fuel : Nat) → List Char → Except EscapeFault Text
  | 0, _ => .ok []
  | _ + 1, [] => .ok []
  | fuel + 1, '\\' :: c :: rest =>
    if c = '\n' then decodeFrom (offset + 2) fuel rest
    else
      match letterEscape? c, hexEscape? c with
      | some d, _ => (decodeFrom (offset + 2) fuel rest).map (.char d :: ·)
      | none, some (count, short) =>
        match readHex offset count short rest with
        | .error e => .error e
        | .ok (d, rest) => (decodeFrom (offset + 2 + count) fuel rest).map (d :: ·)
      | none, none =>
        if isOctalDigit c then
          let (digits, rest) := spanAtMost isOctalDigit 2 rest
          (decodeFrom (offset + 2 + digits.length) fuel rest).map
            (.char (Char.ofNat (octalValue (c :: digits))) :: ·)
        else if c = 'N' then
          match readName offset rest with
          | .error e => .error e
          | .ok (name, rest) =>
            match Host.named? name with
            | none => .error ⟨.unknownName, offset, offset + 3 + spelledWidth name⟩
            | some d => (decodeFrom (offset + 4 + spelledWidth name) fuel rest).map (.char d :: ·)
        else
          (decodeFrom (offset + backslashWidth c + charWidth c) fuel rest).map
            (.char '\\' :: .char c :: ·)
  | fuel + 1, c :: rest => (decodeFrom (offset + charWidth c) fuel rest).map (.char c :: ·)

def decodeInside (inside : List Char) : Except Fault Text :=
  match lineEnd? 1 inside with
  | some line => .error (.lineEnd line)
  | none =>
    if inside.contains '\\' then
      match decodeFrom 0 inside.length inside with
      | .ok t => .ok t
      | .error e => .error (.escape e (lastLine 1 inside))
    else .ok (.ofChars inside)

def decode (lexeme : List Char) : Except Fault Text :=
  if lexeme.contains '\x00' then .error .nul
  else decodeInside (Text.unifyNewlines (lexeme.drop 1).dropLast)

end

end PhraseGrammar.Notation.Literal
