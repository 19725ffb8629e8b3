import PhraseGrammar.Files.Error
import PhraseGrammar.Files.Path
import PhraseGrammar.Notation.Declarations
import PhraseGrammar.Record.Text
import PhraseGrammar.Text.Utf8

/-!
# PhraseGrammar.Load

Grammars read from files.

* `loadText` — the text of some octets, with line ends written in one way.
* `loadGrammar` — the grammar of a file: a record if its name says so, else a text in the notation.
* `LogLine` — what is worth knowing about the way from a file to a grammar.
-/

namespace PhraseGrammar

inductive LoadError where
  | file (e : FileError)
  | encoding (e : Text.Utf8.Fault)
  | text (e : Notation.ParseError)
  | record (e : RecordTextError)
deriving Repr

def LoadError.message : LoadError → Text
  | .file e => e.message
  | .encoding e => e.message
  | .text e => e.message
  | .record e => e.message

/-- Something that happened on the way from a file to a grammar. -/
inductive LogLine where
  | stageFailed (id : Text) (stage : Stage)
  | recordLoaded (id : Text) (heads : Nat)
deriving DecidableEq, Repr

/-- The text of a log line, which begins with the part of the program that speaks. -/
def LogLine.text : LogLine → Text
  | .stageFailed id stage =>
    "chomsky.grammar.classify: grammar " ++ id ++ ": " ++ stage.name ++ " stage failed"
  | .recordLoaded id heads =>
    "chomsky.grammar.record: loaded grammar " ++ id ++ " (" ++ toString heads ++ " heads)"

/-- What finding the type of a grammar tells: the stage that failed, if one did. -/
def View.classifyLog (v : View) : List LogLine :=
  match v.failedStage? with
  | some stage => [.stageFailed v.id stage]
  | none => []

structure Loaded where
  grammar : Grammar
  log : List LogLine
deriving DecidableEq, Repr

section

variable [Host]

def loadRecord (text : String) : Except LoadError Loaded :=
  match Record.read text with
  | .error e => .error (.record e)
  | .ok r =>
    let g := Grammar.ofRecord r
    let inferred := if r.type.isNone then g.view.classifyLog else []
    .ok ⟨g, inferred ++ [.recordLoaded g.id g.relation.heads.length]⟩

def loadNotation (text : List Char) (givenId : Option Text)
    (freshId : Text := Notation.unnamedId) : Except LoadError Loaded :=
  match Notation.declarations text with
  | .error e => .error (.text ⟨text, e⟩)
  | .ok d =>
    match d.grammar givenId freshId with
    | .error e => .error (.text ⟨text, e⟩)
    | .ok g => .ok ⟨g, if d.type.isNone then g.view.classifyLog else []⟩

/-- The text of some octets; every line end becomes a line feed. -/
def loadText (octets : List UInt8) : Except LoadError (List Char) :=
  match Text.Utf8.decode octets with
  | .error e => .error (.encoding e)
  | .ok cs => .ok (Text.unifyNewlines cs)

/-- The grammar of a file. An id that is given counts for the notation only; a record has its
own. -/
def loadGrammar (path : String) (octets : List UInt8) (givenId : Option Text)
    (freshId : Text := Notation.unnamedId) : Except LoadError Loaded :=
  match loadText octets with
  | .error e => .error e
  | .ok text =>
    if Files.isRecordPath path then loadRecord (String.ofList text)
    else loadNotation text givenId freshId

end

end PhraseGrammar
