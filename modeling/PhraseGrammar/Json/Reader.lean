import PhraseGrammar.Host
import PhraseGrammar.Text.Hex
import PhraseGrammar.Text.Lines
import PhraseGrammar.Value

/-!
# PhraseGrammar.Json.Reader

JSON text read into values.

* `Json.read` — the value of a text, or the first fault.
* `Json.Fault` — what is wrong, and the number of characters left from where it is wrong.
* `Json.ReadError` — a fault with its place in the text, or what there is no room for.

`NaN`, `Infinity` and `-Infinity` are numbers, and the last of several fields of one name wins while
the first keeps its place. A number ends where it can: `1e` is the number `1` before an `e`.

A list or an object is read in a call inside that of the value it lies in. Only so many calls may
lie in each other, and it takes some of them to raise a problem.
-/

namespace PhraseGrammar.Json

open Text (hexValue?)

inductive Problem where
  | byteOrderMark
  | expectedValue
  | expectedName
  | expectedColon
  | expectedComma
  | unterminatedString
  | controlCharacter
  | invalidEscape
  | invalidUnicodeEscape
  | extraData
deriving DecidableEq, Repr

def Problem.text : Problem → String
  | .byteOrderMark => "Unexpected UTF-8 BOM (decode using utf-8-sig)"
  | .expectedValue => "Expecting value"
  | .expectedName => "Expecting property name enclosed in double quotes"
  | .expectedColon => "Expecting ':' delimiter"
  | .expectedComma => "Expecting ',' delimiter"
  | .unterminatedString => "Unterminated string starting at"
  | .controlCharacter => "Invalid control character at"
  | .invalidEscape => "Invalid \\escape"
  | .invalidUnicodeEscape => "Invalid \\uXXXX escape"
  | .extraData => "Extra data"

/-- How many calls it takes to raise a problem where it is found. That a value is missing is raised
where the reading began. -/
def Problem.calls : Problem → Nat
  | .expectedValue => 0
  | _ => 3

/-- A fault while reading: the number of characters left tells where. -/
inductive Fault where
  | problem (p : Problem) (left : Nat)
  | hugeInteger (digits : Nat)
  | tooDeep
deriving DecidableEq, Repr

/-- A fault found where there is room for some calls. -/
def Fault.within (calls : Nat) : Fault → Fault
  | .problem p left => if calls < p.calls then .tooDeep else .problem p left
  | e => e

/-- A reader takes the characters it reads and leaves the rest. -/
abbrev Reading (α : Type) := Except Fault (α × List Char)

/-- A problem where the given characters are left. -/
def failAt {α : Type} (p : Problem) (rest : List Char) : Except Fault α :=
  .error (.problem p rest.length)

def isSpace (c : Char) : Bool := c == ' ' || c == '\t' || c == '\n' || c == '\r'

def skipSpace (cs : List Char) : List Char := cs.dropWhile isSpace

/-- Four hexadecimal digits after the `u` of an escape. The string has to go on after them. -/
def readHex4 (afterU : List Char) : Reading Nat :=
  match afterU with
  | a :: b :: c :: d :: e :: rest =>
    match hexValue? [a, b, c, d] with
    | some n => .ok (n, e :: rest)
    | none => .error (.problem .invalidUnicodeEscape (afterU.length + 1))
  | _ => .error (.problem .invalidUnicodeEscape (afterU.length + 1))

def isHighHalf (n : Nat) : Bool := 0xD800 ≤ n && n < 0xDC00

def isLowHalf (n : Nat) : Bool := 0xDC00 ≤ n && n < 0xE000

/-- The code point of an escape with four digits, two escapes if they are a pair of halves. -/
def readUnicodeEscape (afterU : List Char) : Reading CodePoint :=
  match readHex4 afterU with
  | .error e => .error e
  | .ok (high, rest) =>
    match rest with
    | '\\' :: 'u' :: more =>
      if isHighHalf high && 5 ≤ more.length then
        match readHex4 more with
        | .error e => .error e
        | .ok (low, afterPair) =>
          if isLowHalf low then
            .ok (.ofNat (0x10000 + (high - 0xD800) * 0x400 + (low - 0xDC00)), afterPair)
          else .ok (.ofNat high, rest)
      else .ok (.ofNat high, rest)
    | _ => .ok (.ofNat high, rest)

def simpleEscape? : Char → Option Char
  | '"' => some '"'
  | '\\' => some '\\'
  | '/' => some '/'
  | 'b' => some '\x08'
  | 'f' => some '\x0c'
  | 'n' => some '\n'
  | 'r' => some '\r'
  | 't' => some '\t'
  | _ => none

/-- The rest of a string whose opening quote has been read; `opened` is the number of characters
left at that quote. -/
def readString (opened : Nat) : (fuel : Nat) → List Char → Reading Text
  | 0, _ => .error (.problem .unterminatedString opened)
  | _ + 1, [] => .error (.problem .unterminatedString opened)
  | _ + 1, '"' :: rest => .ok ([], rest)
  | _ + 1, ['\\'] => .error (.problem .unterminatedString opened)
  | fuel + 1, '\\' :: 'u' :: rest =>
    match readUnicodeEscape rest with
    | .error e => .error e
    | .ok (p, rest) =>
      match readString opened fuel rest with
      | .error e => .error e
      | .ok (t, rest) => .ok (p :: t, rest)
  | fuel + 1, '\\' :: letter :: rest =>
    match simpleEscape? letter with
    | none => failAt .invalidEscape ('\\' :: letter :: rest)
    | some c =>
      match readString opened fuel rest with
      | .error e => .error e
      | .ok (t, rest) => .ok (.char c :: t, rest)
  | fuel + 1, c :: rest =>
    if c.toNat ≤ 0x1F then failAt .controlCharacter (c :: rest)
    else
      match readString opened fuel rest with
      | .error e => .error e
      | .ok (t, rest) => .ok (.char c :: t, rest)

def spanDigits (cs : List Char) : List Char × List Char := cs.span Char.isDigit

def decimalValue (digits : List Char) : Nat :=
  digits.foldl (fun n c => 10 * n + (c.toNat - '0'.toNat)) 0

/-- The longest integer that is read. -/
def integerLimit : Nat := 4300

/-- The digits after a point, if there is at least one. -/
def readFraction : List Char → Option (List Char) × List Char
  | '.' :: rest =>
    match spanDigits rest with
    | ([], _) => (none, '.' :: rest)
    | (digits, rest) => (some digits, rest)
  | cs => (none, cs)

/-- An exponent, if it has at least one digit. -/
def readExponent (cs : List Char) : Option Int × List Char :=
  let digitsOf (negative : Bool) (rest : List Char) : Option Int × List Char :=
    match spanDigits rest with
    | ([], _) => (none, cs)
    | (digits, rest) =>
      let n : Int := decimalValue digits
      (some (if negative then -n else n), rest)
  match cs with
  | e :: rest =>
    if e = 'e' ∨ e = 'E' then
      match rest with
      | '-' :: rest => digitsOf true rest
      | '+' :: rest => digitsOf false rest
      | _ => digitsOf false rest
    else (none, cs)
  | [] => (none, cs)

/-- The integer digits at the front: one zero, or digits that do not begin with one. -/
def readIntegerDigits : List Char → List Char × List Char
  | '0' :: rest => (['0'], rest)
  | cs => spanDigits cs

def readNumber (cs : List Char) : Reading Value :=
  let (negative, unsigned) :=
    match cs with
    | '-' :: rest => (true, rest)
    | _ => (false, cs)
  match readIntegerDigits unsigned with
  | ([], _) => failAt .expectedValue cs
  | (whole, rest) =>
    let (fraction, rest) := readFraction rest
    let (exponent, rest) := readExponent rest
    match fraction, exponent with
    | none, none =>
      if integerLimit < whole.length then .error (.hugeInteger whole.length)
      else
        let n : Int := decimalValue whole
        .ok (.int (if negative then -n else n), rest)
    | _, _ =>
      let decimals := fraction.getD []
      let scale := exponent.getD 0 - decimals.length
      .ok (.float (.ofDecimal negative (decimalValue (whole ++ decimals)) scale), rest)

def literals : List (List Char × Value) := [
  ("null".toList, .null),
  ("true".toList, .bool true),
  ("false".toList, .bool false),
  ("NaN".toList, .float .nan),
  ("Infinity".toList, .float (.infinite false)),
  ("-Infinity".toList, .float (.infinite true))]

/-- How many calls it takes to find the value of a literal: a number is looked up. -/
def literalCalls : Value → Nat
  | .float _ => 1
  | _ => 0

def readScalar (calls : Nat) (cs : List Char) : Reading Value :=
  match literals.find? fun l => l.1.isPrefixOf cs with
  | some (word, v) =>
    if calls < literalCalls v then .error .tooDeep else .ok (v, cs.drop word.length)
  | none => readNumber cs

/-- Adds a field: the last of several values wins, and the first name keeps its place. -/
def setField (fields : List (Text × Value)) (name : Text) (v : Value) : List (Text × Value) :=
  if fields.any (fun f => f.1 == name) then
    fields.map fun f => if f.1 == name then (f.1, v) else f
  else fields ++ [(name, v)]

/-- A string whose opening quote is at the front, and has been read. -/
def readQuoted (calls : Nat) (rest : List Char) : Reading Text :=
  (readString (rest.length + 1) (rest.length + 1) rest).mapError (Fault.within calls)

/-- A problem found where there is room for some calls. -/
def failWithin {α : Type} (calls : Nat) (p : Problem) (rest : List Char) : Except Fault α :=
  .error ((Fault.problem p rest.length).within calls)

mutual

/-- The value at the front, where there is room for some calls. -/
def readValue : (calls fuel : Nat) → List Char → Reading Value
  | _, 0, cs => failAt .expectedValue cs
  | calls, fuel + 1, cs =>
    match cs with
    | '"' :: rest =>
      match readQuoted calls rest with
      | .error e => .error e
      | .ok (t, rest) => .ok (.text t, rest)
    | '[' :: rest =>
      if calls = 0 then .error .tooDeep
      else
        match skipSpace rest with
        | ']' :: rest => .ok (.list [], rest)
        | rest =>
          match readElements (calls - 1) fuel rest with
          | .error e => .error e
          | .ok (vs, rest) => .ok (.list vs, rest)
    | '\x7b' :: rest =>
      if calls = 0 then .error .tooDeep
      else
        match skipSpace rest with
        | '\x7d' :: rest => .ok (.object [], rest)
        | rest =>
          match readFields (calls - 1) fuel [] rest with
          | .error e => .error e
          | .ok (fields, rest) => .ok (.object fields, rest)
    | _ => readScalar calls cs

/-- The elements of a list, from the first one to the closing bracket. -/
def readElements : (calls fuel : Nat) → List Char → Reading (List Value)
  | _, 0, cs => failAt .expectedValue cs
  | calls, fuel + 1, cs =>
    match readValue calls fuel cs with
    | .error e => .error e
    | .ok (v, rest) =>
      match skipSpace rest with
      | ']' :: rest => .ok ([v], rest)
      | ',' :: rest =>
        match readElements calls fuel (skipSpace rest) with
        | .error e => .error e
        | .ok (vs, rest) => .ok (v :: vs, rest)
      | rest => failWithin calls .expectedComma rest

/-- The fields of an object, from the first name to the closing brace. -/
def readFields : (calls fuel : Nat) → List (Text × Value) → List Char →
    Reading (List (Text × Value))
  | _, 0, _, cs => failAt .expectedValue cs
  | calls, fuel + 1, fields, cs =>
    match cs with
    | '"' :: rest =>
      match readQuoted calls rest with
      | .error e => .error e
      | .ok (name, rest) =>
        match skipSpace rest with
        | ':' :: rest =>
          match readValue calls fuel (skipSpace rest) with
          | .error e => .error e
          | .ok (v, rest) =>
            let fields := setField fields name v
            match skipSpace rest with
            | '\x7d' :: rest => .ok (fields, rest)
            | ',' :: rest => readFields calls fuel fields (skipSpace rest)
            | rest => failWithin calls .expectedComma rest
        | rest => failWithin calls .expectedColon rest
    | _ => failWithin calls .expectedName cs

end

section

variable [Host]

/-- The value of a whole text. Every nested reading takes at least one character, so the length of
the text bounds how often reading goes on. -/
def readChars (cs : List Char) : Except Fault Value :=
  match cs with
  | '\uFEFF' :: _ => failAt .byteOrderMark cs
  | _ =>
    match readValue Host.readingCalls (2 * cs.length + 2) (skipSpace cs) with
    | .error e => .error e
    | .ok (v, rest) =>
      match skipSpace rest with
      | [] => .ok v
      | rest => failAt .extraData rest

end

inductive ReadError where
  | malformed (p : Problem) (line column offset : Nat)
  | hugeInteger (digits : Nat)
  | tooDeep
deriving DecidableEq, Repr

def ReadError.message : ReadError → String
  | .malformed p line column offset =>
    p.text ++ ": line " ++ toString line ++ " column " ++ toString column
      ++ " (char " ++ toString offset ++ ")"
  | .hugeInteger digits =>
    "Exceeds the limit (" ++ toString integerLimit
      ++ " digits) for integer string conversion: value has " ++ toString digits
      ++ " digits; use sys.set_int_max_str_digits() to increase the limit"
  | .tooDeep => "maximum recursion depth exceeded"

/-- A fault with its place: lines and columns count from one, offsets from zero. -/
def Fault.locate (cs : List Char) : Fault → ReadError
  | .problem p left =>
    let before := cs.take (cs.length - left)
    .malformed p (before.count '\n' + 1) ((Text.lastLine before).length + 1) before.length
  | .hugeInteger digits => .hugeInteger digits
  | .tooDeep => .tooDeep

def read [Host] (s : String) : Except ReadError Value :=
  match readChars s.toList with
  | .ok v => .ok v
  | .error e => .error (e.locate s.toList)

end PhraseGrammar.Json
