import PhraseGrammar.Hierarchy
import PhraseGrammar.Notation.Literal
import PhraseGrammar.Notation.Scan
import PhraseGrammar.Text.Quoted

/-!
# PhraseGrammar.Notation.Fault

What can be wrong with a grammar text.

* `Problem` — something wrong at one token.
* `Fault` — a problem with its place, or one of the faults that are placed in another way.
* `caret` — a line of the text with a mark under one of its characters.
* `ParseError` — a fault together with the text that it is in.
-/

namespace PhraseGrammar.Notation

inductive Problem where
  | expected (wanted got : TokenKind)
  | unexpected (kind : TokenKind)
  | unknownInRule (name : List Char)
  | unknownDirective (name : List Char)
  | bareHeadDirective
  | notOneValue (name : List Char) (got : Nat)
  | unknownType (name : Text)
  | emptyHead
  | noArrow
deriving DecidableEq, Repr

def Problem.text : Problem → Text
  | .expected wanted got => "Expected " ++ wanted.name ++ ", got " ++ got.name
  | .unexpected kind => "Unexpected token " ++ kind.name
  | .unknownInRule name =>
    "Unknown directive %" ++ String.ofList name ++ " inside a rule; did you mean '%empty'?"
  | .unknownDirective name => "Unknown directive %" ++ String.ofList name
  | .bareHeadDirective => "%head expects at least one symbol"
  | .notOneValue name got =>
    "%" ++ String.ofList name ++ " expects exactly one value, got " ++ toString got
  | .unknownType name =>
    "Unknown grammar type '" ++ name ++ "' (expected one of: " ++ GrammarType.allNames ++ ")"
  | .emptyHead => "Empty production head"
  | .noArrow => "Expected ':' or '->' after production head"

/-- The statements that end with a semicolon. -/
inductive Statement where
  | directive (name : List Char)
  | rule
deriving DecidableEq, Repr

namespace Statement

def text : Statement → String
  | .directive name => "%" ++ String.ofList name ++ " declaration"
  | .rule => "production rule"

def sample : Statement → String
  | .directive name => "%" ++ String.ofList name ++ " ...;"
  | .rule => "S : a S | a ;"

end Statement

inductive Fault where
  | scan (fault : ScanFault)
  | located (problem : Problem) (position : Position)
  | missingSemicolon (statement : Statement) (found : Token) (anchor : Nat)
  | literal (fault : Literal.Fault)
  | noStart
deriving DecidableEq, Repr

/-- The line that holds an offset, and under it a mark at the offset. -/
def caret (text : List Char) (offset : Nat) : String :=
  let (before, after) := Text.lineAround text offset
  String.ofList (before ++ after ++ '\n' :: List.replicate before.length ' ' ++ ['^'])

def Position.text (p : Position) : String := toString p.line ++ ":" ++ toString p.column

def Fault.message (text : List Char) : Fault → Text
  | .scan fault =>
    "Unexpected char " ++ Text.quoted (String.singleton fault.char) ++ " at " ++ fault.position.text
  | .located problem position =>
    problem.text ++ " at " ++ position.text ++ "\n" ++ caret text position.offset
  | .missingSemicolon statement found anchor =>
    "Missing ';' after " ++ statement.text ++ " (semicolon is mandatory).\n"
      ++ "- Found: " ++ found.kind.name ++ " at " ++ found.position.text ++ "\n"
      ++ "- Example: " ++ statement.sample ++ "\n\n"
      ++ caret text anchor
  | .literal fault => fault.message
  | .noStart => "Missing %start declaration (no rules to infer it from)"

/-- A fault and the text that it is in. -/
structure ParseError where
  source : List Char
  fault : Fault
deriving DecidableEq, Repr

def ParseError.message (e : ParseError) : Text := e.fault.message e.source

end PhraseGrammar.Notation
