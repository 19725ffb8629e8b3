import PhraseGrammar.Text.Quoted

/-!
# PhraseGrammar.Text.Utf8

Reading and writing text as UTF-8.

* `Utf8.encode` — the octets of a text.
* `Utf8.decode` — the text of some octets, or the first fault.
* `Utf8.encodable` — a text that has octets, as a string.

A fault spans the octets that could still have begun a character: it ends before the octet that
rules the character out.
-/

namespace PhraseGrammar.Text.Utf8

inductive Reason where
  | invalidStart
  | invalidContinuation
  | unexpectedEnd
deriving DecidableEq, Repr

/-- The first fault in some octets: the offset where it begins and how many octets it spans. -/
structure Fault where
  reason : Reason
  offset : Nat
  span : Nat
  first : UInt8
deriving DecidableEq, Repr

def encodeChar (c : Char) : List UInt8 :=
  let n := c.toNat
  let tail (shift : Nat) : UInt8 := UInt8.ofNat (0x80 + n / shift % 64)
  if n < 0x80 then [UInt8.ofNat n]
  else if n < 0x800 then [UInt8.ofNat (0xC0 + n / 64), tail 1]
  else if n < 0x10000 then [UInt8.ofNat (0xE0 + n / 4096), tail 64, tail 1]
  else [UInt8.ofNat (0xF0 + n / 262144), tail 4096, tail 64, tail 1]

def encode (cs : List Char) : List UInt8 := cs.flatMap encodeChar

/-- The payload of a continuation octet. -/
def low (b : UInt8) : Nat := b.toNat % 64

def continues (b : UInt8) : Bool := 0x80 ≤ b.toNat && b.toNat ≤ 0xBF

/-- Whether an octet can stand second after the given first one: this rules out overlong forms,
surrogates and code points beyond the last. -/
def continuesAfter (first second : UInt8) : Bool :=
  let least := if first.toNat = 0xE0 then 0xA0 else if first.toNat = 0xF0 then 0x90 else 0x80
  let greatest := if first.toNat = 0xED then 0x9F else if first.toNat = 0xF4 then 0x8F else 0xBF
  least ≤ second.toNat && second.toNat ≤ greatest

/-- How many octets a character with this first octet has; `none` if no character starts so. -/
def width? (first : UInt8) : Option Nat :=
  let n := first.toNat
  if n < 0x80 then some 1
  else if n < 0xC2 then none
  else if n < 0xE0 then some 2
  else if n < 0xF0 then some 3
  else if n < 0xF5 then some 4
  else none

def decodeFrom (offset : Nat) : List UInt8 → Except Fault (List Char)
  | [] => .ok []
  | b :: rest =>
    let fault (reason : Reason) (span : Nat) : Except Fault (List Char) :=
      .error ⟨reason, offset, span, b⟩
    match width? b, rest with
    | none, _ => fault .invalidStart 1
    | some 1, rest => (decodeFrom (offset + 1) rest).map (Char.ofNat b.toNat :: ·)
    | some _, [] => fault .unexpectedEnd 1
    | some 2, c :: rest =>
      if continuesAfter b c then
        (decodeFrom (offset + 2) rest).map (Char.ofNat (b.toNat % 32 * 64 + low c) :: ·)
      else fault .invalidContinuation 1
    | some _, [c] =>
      if continuesAfter b c then fault .unexpectedEnd 2 else fault .invalidContinuation 1
    | some 3, c :: d :: rest =>
      if !continuesAfter b c then fault .invalidContinuation 1
      else if !continues d then fault .invalidContinuation 2
      else
        (decodeFrom (offset + 3) rest).map
          (Char.ofNat (b.toNat % 16 * 4096 + low c * 64 + low d) :: ·)
    | some _, [c, d] =>
      if !continuesAfter b c then fault .invalidContinuation 1
      else if !continues d then fault .invalidContinuation 2
      else fault .unexpectedEnd 3
    | some _, c :: d :: e :: rest =>
      if !continuesAfter b c then fault .invalidContinuation 1
      else if !continues d then fault .invalidContinuation 2
      else if !continues e then fault .invalidContinuation 3
      else
        (decodeFrom (offset + 4) rest).map
          (Char.ofNat (b.toNat % 8 * 262144 + low c * 4096 + low d * 64 + low e) :: ·)

def decode (octets : List UInt8) : Except Fault (List Char) := decodeFrom 0 octets

def hexOctet (b : UInt8) : String :=
  String.ofList [Nat.digitChar (b.toNat / 16), Nat.digitChar (b.toNat % 16)]

def Reason.text : Reason → String
  | .invalidStart => "invalid start byte"
  | .invalidContinuation => "invalid continuation byte"
  | .unexpectedEnd => "unexpected end of data"

/-- The wording of a fault: a single octet is shown, several are given by their offsets. -/
def Fault.message (f : Fault) : String :=
  let place :=
    if f.span = 1 then "byte 0x" ++ hexOctet f.first ++ " in position " ++ toString f.offset
    else "bytes in position " ++ toString f.offset ++ "-" ++ toString (f.offset + f.span - 1)
  "'utf-8' codec can't decode " ++ place ++ ": " ++ f.reason.text

/-- The first halves of pairs in a text, which have no octets, and the offset where they begin. -/
structure EncodeFault where
  offset : Nat
  halves : Text
deriving DecidableEq, Repr

def encodeFault (t : Text) : EncodeFault :=
  { offset := (t.takeWhile CodePoint.isChar).length
    halves := (t.dropWhile CodePoint.isChar).takeWhile (!·.isChar) }

def encodable (t : Text) : Except EncodeFault String :=
  match t.string? with
  | some s => .ok s
  | none => .error (encodeFault t)

def EncodeFault.message (f : EncodeFault) : String :=
  let place :=
    if f.halves.length = 1 then
      "character '" ++ escaped f.halves ++ "' in position " ++ toString f.offset
    else
      "characters in position " ++ toString f.offset ++ "-"
        ++ toString (f.offset + f.halves.length - 1)
  "'utf-8' codec can't encode " ++ place ++ ": surrogates not allowed"

end PhraseGrammar.Text.Utf8
