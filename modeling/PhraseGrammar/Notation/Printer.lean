import PhraseGrammar.Json.Writer
import PhraseGrammar.Notation.Token
import PhraseGrammar.View

/-!
# PhraseGrammar.Notation.Printer

Grammars written in the notation.

* `symbolText`, `wordText` — symbols and words; a symbol that is no identifier is quoted.
* `print` — the declarations of a grammar, then one line for every head.
* `printProductions` — one line for every head with one of its bodies.
-/

namespace PhraseGrammar.Notation

/-- Whether a text can stand without quotes. Half of a pair cannot. -/
def isBare (t : Text) : Bool :=
  match t.chars? with
  | some cs => isIdent cs
  | none => false

def symbolText (s : Symbol) : Text :=
  if s = Symbol.epsilon then "ε"
  else if isBare s.text then s.text
  else Json.quote s.text

def wordText (w : Word) : Text :=
  if Word.isEmptyWord w then "ε" else List.intercalate " " (w.map symbolText)

def alphabetLine (directive : String) (symbols : List Symbol) : Text :=
  if symbols.isEmpty then "%" ++ directive ++ ";"
  else "%" ++ directive ++ " " ++ List.intercalate " " (symbols.map symbolText) ++ ";"

/-- The line of a head: a declaration of the head if it has no bodies, else a rule. -/
def ruleLine (head : Word) (bodies : List Word) : Text :=
  if bodies.isEmpty then "%head " ++ wordText head ++ ";"
  else wordText head ++ " : " ++ List.intercalate " | " (bodies.map wordText) ++ " ;"

def lines (v : View) : List Text :=
  [ "%id " ++ Json.quote v.id ++ ";",
    "%name " ++ Json.quote v.name ++ ";",
    "%type " ++ v.type.name ++ ";",
    "%start " ++ symbolText v.start ++ ";",
    alphabetLine "terminals" v.terminals,
    alphabetLine "nonterminals" v.nonterminals,
    "" ] ++ v.rules.map fun r => ruleLine r.1 r.2

/-- A grammar as a text that reads back as the grammar. -/
def print (v : View) : Text := List.intercalate "\n" (lines v) ++ "\n"

def productionLines (v : View) : List Text :=
  v.rules.flatMap fun r => r.2.map fun body => wordText r.1 ++ " -> " ++ wordText body

def printProductions (v : View) : Text := List.intercalate "\n" (productionLines v)

end PhraseGrammar.Notation
