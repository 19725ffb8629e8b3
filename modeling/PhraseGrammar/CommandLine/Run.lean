import PhraseGrammar.CommandLine.Options
import PhraseGrammar.Files.Tree
import PhraseGrammar.Load
import PhraseGrammar.Notation.Printer

/-!
# PhraseGrammar.CommandLine.Run

What the program does.

* `Storage` — the files that the program reads and writes.
* `Outcome` — how a run ends, and what it prints.
* `run` — a run on some arguments.

Faults in grammar texts, records and files are reported and end the run with the code 2. Faults in
the encoding of a file, nul characters, integers that are too long, lists that nest too deep, rules
that cannot be gone through, directories that are missing too deep down, an indentation that is
missing or too wide, and halves of pairs in what is printed are not reported: they end the run as
they are. Only messages may show a half, as an escape.
-/

namespace PhraseGrammar.CommandLine

/-- The files that the program reads and writes. -/
structure Storage (m : Type → Type) where
  read : String → m (Except FileError (List UInt8))
  write : Files.FilePath → String → m (Except FileError Unit)

inductive RunError where
  | load (e : LoadError)
  | layout (e : Json.LayoutError)
  | missingIndentation
  | unencodable (e : Text.Utf8.EncodeFault)
deriving Repr

def RunError.message : RunError → Text
  | .load e => e.message
  | .layout e => e.message
  | .missingIndentation => "can't multiply sequence by non-int of type 'list'"
  | .unencodable e => e.message

/-- How a run ends: with an exit code, or with an error that is not reported. -/
inductive Ending where
  | exit (code : Nat)
  | unreported (e : RunError)
deriving Repr

structure Outcome where
  ending : Ending
  stdout : String
  stderr : String
deriving Repr

/-- Messages as they are printed, each on lines of its own. -/
def printed (messages : List Text) : String :=
  String.join (messages.map fun t => Text.escaped t ++ "\n")

namespace Outcome

def success (stdout : String) (stderr : List Text) : Outcome :=
  ⟨.exit 0, stdout, printed stderr⟩

def failure (stderr : List Text) : Outcome := ⟨.exit 2, "", printed stderr⟩

end Outcome

/-- How an error is reported; `none` for one that is not. -/
def report? : RunError → Option (List Text)
  | .load (.file (.system problem path)) =>
    some ["[IO ERROR] " ++ (FileError.system problem path).message]
  | .load (.file _) => none
  | .load (.encoding _) => none
  | .load (.text ⟨_, .literal .nul⟩) => none
  | .load (.text e) => some ["[SYNTAX ERROR]", e.message]
  | .load (.record (.json (.hugeInteger _))) => none
  | .load (.record (.json .tooDeep)) => none
  | .load (.record (.record (.notIterable _))) => none
  | .load (.record (.record (.noText _))) => none
  | .load (.record e) => some ["[RECORD ERROR] " ++ e.message]
  | .layout _ | .missingIndentation | .unencodable _ => none

def failed (before : List Text) (e : RunError) : Outcome :=
  match report? e with
  | some lines => .failure (before ++ lines)
  | none => ⟨.unreported e, "", printed before⟩

def logText (line : LogLine) : Text := "[DEBUG] " ++ line.text

def loadTrace (l : Loaded) : List Text :=
  let g := l.grammar
  let loaded : Text :=
    "[DEBUG] grammar loaded | id=" ++ g.id
      ++ " heads=" ++ toString g.relation.heads.length
      ++ " terms=" ++ toString g.terminals.size
      ++ " nonterms=" ++ toString g.nonterminals.size
  let classified :=
    "[DEBUG] classified | stored=" ++ g.type.name ++ " computed=" ++ g.view.classify.name
  l.log.map logText ++ [loaded] ++ g.view.classifyLog.map logText ++ [Text.ofString classified]

def productionTrace (v : View) : List Text :=
  let listing := Notation.printProductions v
  ["", "[Productions]", if listing.isEmpty then "(none)" else listing]

def productionCount (v : View) : Nat := (v.rules.flatMap fun r => r.2).length

/-- The warning about a type that its rules do not have. -/
def typeWarning (v : View) : List Text :=
  if v.type = v.classify then []
  else
    ["[WARN] stored type " ++ v.type.name ++ " differs from computed type " ++ v.classify.name]

def checkLine (v : View) : String :=
  "[CHECK OK] type=" ++ v.classify.name ++ " heads=" ++ toString v.rules.length
    ++ " productions=" ++ toString (productionCount v)

def widthOf : Indentation → Except RunError (Option Int)
  | .none => .ok none
  | .width n => .ok (some n)
  | .missing => .error .missingIndentation

section

variable [Host]

/-- The record of a grammar, with the type that its rules have, as text. -/
def dumpText (g : Grammar) (indentation : Indentation) : Except RunError Text :=
  match widthOf indentation with
  | .error e => .error e
  | .ok indent =>
    match g.reclassify.view.record.writeIndented indent with
    | .error e => .error (.layout e)
    | .ok text => .ok text

end

/-- The file that a text is to be written to; an empty path is none. -/
def outputPath? (r : Request) : Option Files.FilePath :=
  match r.output with
  | some path => if path.isEmpty then none else some (.ofText path)
  | none => none

/-- The outcome of printing a text. -/
def shown (trace : List Text) (text : Text) : Outcome :=
  match Text.Utf8.encodable text with
  | .error e => failed trace (.unencodable e)
  | .ok s => .success s trace

section

variable [Host] {m : Type → Type} [Monad m]

/-- Writes a text to a file; one that cannot be written leaves an empty file. -/
def save (storage : Storage m) (path : Files.FilePath) (text : Text) :
    m (Except RunError Unit) := do
  match Text.Utf8.encodable text with
  | .error e =>
    match ← storage.write path "" with
    | .error e => return .error (.load (.file e))
    | .ok () => return .error (.unencodable e)
  | .ok s =>
    match ← storage.write path s with
    | .error e => return .error (.load (.file e))
    | .ok () => return .ok ()

/-- Prints a text, or writes it to the file that is asked for. -/
def emit (storage : Storage m) (r : Request) (trace : List Text) (text : Text) : m Outcome :=
  match outputPath? r with
  | none => return shown trace (text ++ "\n")
  | some path => do
    match ← save storage path (text ++ "\n") with
    | .error e => return failed trace e
    | .ok () =>
      let size : List Text :=
        if r.debug then [Text.ofString ("[DEBUG] bytes=" ++ toString text.length)] else []
      return .success ("[EMIT] record -> " ++ path.text ++ "\n") (trace ++ size)

def perform (storage : Storage m) (r : Request) (l : Loaded) : m Outcome :=
  let v := l.grammar.view
  let trace := if r.debug then loadTrace l else []
  match r.command with
  | .check =>
    let productions := if r.debug then productionTrace v else []
    return .success (checkLine v ++ "\n") (trace ++ productions ++ typeWarning v)
  | .dump =>
    match dumpText l.grammar r.indentation with
    | .error e => return failed trace e
    | .ok text => emit storage r trace text
  | .fmt => return shown trace (Notation.print v)

def answer (storage : Storage m) (r : Request) : m Outcome := do
  match ← storage.read r.file with
  | .error e => return failed [] (.load (.file e))
  | .ok octets =>
    match loadGrammar r.file octets (r.id.map Text.ofString) with
    | .error e => return failed [] (.load e)
    | .ok l => perform storage r l

def run (storage : Storage m) (arguments : List String) : m Outcome :=
  match parseArguments arguments with
  | .error (.usage e) => return ⟨.exit 2, "", e.message⟩
  | .error (.help scope) => return ⟨.exit 0, scope.usage ++ "\n", ""⟩
  | .ok r => answer storage r

end

def treeStorage [Host] : Storage (StateM Files.Tree) where
  read path := do return (← get).read path
  write path text := do
    match (← get).makeDirectories path.parent with
    | .error e => return .error e
    | .ok t =>
      set t
      match t.write path.text (Text.Utf8.encode text.toList) with
      | .error e => return .error e
      | .ok t =>
        set t
        return .ok ()

end PhraseGrammar.CommandLine
