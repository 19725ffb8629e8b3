import PhraseGrammar.Text.Integer
import PhraseGrammar.Text.Quoted

/-!
# PhraseGrammar.CommandLine.Options

The arguments of a command line.

* `Command`, `Request` — what the program is asked to do.
* `Setting` — one option with its value.
* `UsageError` — what is wrong with the arguments.
* `parseArguments` — the request that arguments make.

Options may stand anywhere after the command. A long option may be cut short while only one option
begins that way. The last of several values of an option counts, and after `--` nothing is an
option.
-/

namespace PhraseGrammar.CommandLine

inductive Command where
  | check
  | dump
  | fmt
deriving DecidableEq, Repr

namespace Command

def all : List Command := [.check, .dump, .fmt]

def name : Command → String
  | .check => "check"
  | .dump => "dump"
  | .fmt => "fmt"

def ofName? (s : String) : Option Command := all.find? fun c => c.name == s

end Command

inductive Flag where
  | help
  | output
  | indent
  | id
  | debug
deriving DecidableEq, Repr

namespace Flag

def names : Flag → List String
  | .help => ["-h", "--help"]
  | .output => ["-o", "--output"]
  | .indent => ["--indent"]
  | .id => ["--id"]
  | .debug => ["-D", "--debug"]

def hasValue : Flag → Bool
  | .help | .debug => false
  | .output | .indent | .id => true

end Flag

/-- The part of the command line that an argument is read for: the program or a command. -/
inductive Scope where
  | program
  | command (c : Command)
deriving DecidableEq, Repr

namespace Scope

def flags : Scope → List Flag
  | .program => [.help]
  | .command .check => [.help, .debug]
  | .command .dump => [.help, .output, .indent, .id, .debug]
  | .command .fmt => [.help, .id, .debug]

def spellings (s : Scope) : List (String × Flag) :=
  s.flags.flatMap fun f => f.names.map fun n => (n, f)

def name : Scope → String
  | .program => "chomskyc"
  | .command c => "chomskyc " ++ c.name

def usage : Scope → String
  | .program => "usage: chomskyc [-h] \x7bcheck,dump,fmt\x7d ..."
  | .command .check => "usage: chomskyc check [-h] [-D] file"
  | .command .dump =>
    "usage: chomskyc dump [-h] [-o OUTPUT] [--indent INDENT] [--id ID] [-D] file"
  | .command .fmt => "usage: chomskyc fmt [-h] [--id ID] [-D] file"

end Scope

inductive UsageProblem where
  | ambiguous (option : String) (candidates : List String)
  | needsValue (flag : Flag)
  | takesNoValue (flag : Flag) (value : String)
  | notInteger (value : String)
  | noCommand
  | unknownCommand (name : String)
  | noFile
  | unrecognized (arguments : List String)
deriving DecidableEq, Repr

def Flag.label (f : Flag) : String := "argument " ++ "/".intercalate f.names

def UsageProblem.text : UsageProblem → String
  | .ambiguous option candidates =>
    "ambiguous option: " ++ option ++ " could match " ++ ", ".intercalate candidates
  | .needsValue flag => flag.label ++ ": expected one argument"
  | .takesNoValue flag value =>
    flag.label ++ ": ignored explicit argument " ++ Text.quoted value
  | .notInteger value => Flag.indent.label ++ ": invalid int value: " ++ Text.quoted value
  | .noCommand => "the following arguments are required: cmd"
  | .unknownCommand name =>
    "argument cmd: invalid choice: " ++ Text.quoted name ++ " (choose from "
      ++ ", ".intercalate (Command.all.map fun c => "'" ++ c.name ++ "'") ++ ")"
  | .noFile => "the following arguments are required: file"
  | .unrecognized arguments => "unrecognized arguments: " ++ " ".intercalate arguments

/-- A usage problem and the scope that reports it. -/
structure UsageError where
  scope : Scope
  problem : UsageProblem
deriving DecidableEq, Repr

def UsageError.message (e : UsageError) : String :=
  e.scope.usage ++ "\n" ++ e.scope.name ++ ": error: " ++ e.problem.text ++ "\n"

/-- Why there is no request: wrong arguments, or a call for help. -/
inductive Refusal where
  | usage (e : UsageError)
  | help (scope : Scope)
deriving DecidableEq, Repr

/-- An option that an argument begins with, and what is attached to it. -/
structure Match where
  flag : Flag
  spelling : String
  attached : Option String
deriving DecidableEq, Repr

inductive Argument where
  | plain (text : String)
  | separator
  | option (text : String) (found : Option Match)
deriving DecidableEq, Repr

/-- Splits a text at its first equals sign. -/
def splitMark (s : String) : String × Option String :=
  match s.toList.dropWhile (· != '=') with
  | [] => (s, none)
  | _ :: value => (String.ofList (s.toList.takeWhile (· != '=')), some (String.ofList value))

/-- The options that an argument may be short for. -/
def candidates (scope : Scope) (s : String) : List Match :=
  match s.toList with
  | '-' :: '-' :: _ =>
    let (front, value) := splitMark s
    (scope.spellings.filter fun p => front.toList.isPrefixOf p.1.toList).map fun p =>
      ⟨p.2, p.1, value⟩
  | a :: b :: attached =>
    (scope.spellings.filter fun p => p.1.toList == [a, b]).map fun p =>
      ⟨p.2, p.1, some (String.ofList attached)⟩
  | _ => []

/-- What an argument is that does not stand after a separator. -/
def classify (scope : Scope) (s : String) : Except UsageProblem Argument :=
  match s.toList with
  | '-' :: _ :: _ =>
    match scope.spellings.lookup s with
    | some flag => .ok (.option s (some ⟨flag, s, none⟩))
    | none =>
      let (front, value) := splitMark s
      match (if value.isSome then scope.spellings.lookup front else none) with
      | some flag => .ok (.option s (some ⟨flag, front, value⟩))
      | none =>
        match candidates scope s with
        | [m] => .ok (.option s (some m))
        | [] =>
          if Text.looksNegative s || s.contains ' ' then .ok (.plain s)
          else .ok (.option s none)
        | ms => .error (.ambiguous s (ms.map (·.spelling)))
  | _ => .ok (.plain s)

def classifyAll (scope : Scope) : List String → Except UsageProblem (List Argument)
  | [] => .ok []
  | s :: rest =>
    if s = "--" then .ok (.separator :: rest.map .plain)
    else
      match classify scope s with
      | .error e => .error e
      | .ok a =>
        match classifyAll scope rest with
        | .error e => .error e
        | .ok as => .ok (a :: as)

/-- An option with its value. An option that is `cleared` is given without one. -/
inductive Setting where
  | help
  | output (path : String)
  | indent (width : Int)
  | id (text : String)
  | debug
  | cleared (flag : Flag)
deriving DecidableEq, Repr

namespace Flag

def setting (f : Flag) (value : String) : Except UsageProblem Setting :=
  match f with
  | .help => .ok .help
  | .debug => .ok .debug
  | .output => .ok (.output value)
  | .id => .ok (.id value)
  | .indent =>
    match Text.readInteger value with
    | some width => .ok (.indent width)
    | none => .error (.notInteger value)

/-- The setting of an option with a value attached to it; an attached separator is no value. -/
def settingAttached (f : Flag) (value : String) : Except UsageProblem Setting :=
  if value = "--" then .ok (.cleared f) else f.setting value

end Flag

/-- The settings of one argument, and the option in it that still needs a value. -/
structure Reading where
  settings : List Setting
  pending : Option Flag
deriving DecidableEq, Repr

def Reading.cons (s : Setting) (r : Reading) : Reading := { r with settings := s :: r.settings }

/-- Reads an option and what is attached to it. Letters attached to an option of one letter that has
no value are options themselves. -/
def readMatch (scope : Scope) : (fuel : Nat) → Match → Except UsageProblem Reading
  | fuel, m =>
    match m.attached with
    | none =>
      if m.flag.hasValue then .ok ⟨[], some m.flag⟩
      else
        match m.flag.setting "" with
        | .error e => .error e
        | .ok s => .ok ⟨[s], none⟩
    | some attached =>
      if m.flag.hasValue then
        match m.flag.settingAttached attached with
        | .error e => .error e
        | .ok s => .ok ⟨[s], none⟩
      else
        match fuel, attached.toList with
        | fuel + 1, c :: rest =>
          let spelling := String.ofList ['-', c]
          match (if m.spelling.startsWith "--" then none else scope.spellings.lookup spelling) with
          | none => .error (.takesNoValue m.flag attached)
          | some flag =>
            let more := if rest.isEmpty then none else some (String.ofList rest)
            match m.flag.setting "", readMatch scope fuel ⟨flag, spelling, more⟩ with
            | .error e, _ => .error e
            | _, .error e => .error e
            | .ok s, .ok r => .ok (r.cons s)
        | _, _ => .error (.takesNoValue m.flag attached)

structure Progress where
  settings : List Setting
  file : Option String
  extras : List String
deriving DecidableEq, Repr

namespace Progress

def start : Progress := ⟨[], none, []⟩

def addSettings (p : Progress) (settings : List Setting) : Progress :=
  { p with settings := p.settings ++ settings }

def addExtras (p : Progress) (extras : List String) : Progress :=
  { p with extras := p.extras ++ extras }

end Progress

/-- Reads the arguments of a command one by one. The first plain argument is the file, and a
separator right before or after it is dropped. -/
def readArguments (scope : Scope) (p : Progress) : List Argument → Except Refusal Progress
  | [] => .ok p
  | .plain s :: rest =>
    match p.file with
    | some _ => readArguments scope (p.addExtras [s]) rest
    | none =>
      match rest with
      | .separator :: rest => readArguments scope { p with file := some s } rest
      | rest => readArguments scope { p with file := some s } rest
  | .separator :: rest =>
    match p.file, rest with
    | none, .plain s :: rest => readArguments scope { p with file := some s } rest
    | _, rest => readArguments scope (p.addExtras ["--"]) rest
  | .option s none :: rest => readArguments scope (p.addExtras [s]) rest
  | .option s (some m) :: rest =>
    match readMatch scope s.length m with
    | .error e => .error (.usage ⟨scope, e⟩)
    | .ok r =>
      let p := p.addSettings r.settings
      match r.pending, rest with
      | none, rest =>
        if r.settings.contains .help then .error (.help scope) else readArguments scope p rest
      | some flag, .plain value :: rest =>
        if r.settings.contains .help then .error (.help scope)
        else
          match flag.setting value with
          | .error e => .error (.usage ⟨scope, e⟩)
          | .ok s => readArguments scope (p.addSettings [s]) rest
      | some flag, _ => .error (.usage ⟨scope, .needsValue flag⟩)

/-- The indentation that is asked for. It is `missing` if the option is given without a value. -/
inductive Indentation where
  | none
  | width (n : Int)
  | missing
deriving DecidableEq, Repr

structure Request where
  command : Command
  file : String
  output : Option String
  indentation : Indentation
  id : Option String
  debug : Bool
deriving DecidableEq, Repr

namespace Request

def plain (command : Command) (file : String) : Request :=
  ⟨command, file, none, .none, none, false⟩

def set (r : Request) : Setting → Request
  | .output path => { r with output := some path }
  | .indent width => { r with indentation := .width width }
  | .id text => { r with id := some text }
  | .debug => { r with debug := true }
  | .cleared .output => { r with output := none }
  | .cleared .indent => { r with indentation := .missing }
  | .cleared .id => { r with id := none }
  | .cleared _ | .help => r

end Request

/-- The request that the arguments of a command make, and the arguments that it leaves over. -/
def readCommand (command : Command) (arguments : List String) :
    Except Refusal (Request × List String) :=
  let scope := Scope.command command
  match classifyAll scope arguments with
  | .error e => .error (.usage ⟨scope, e⟩)
  | .ok arguments =>
    match readArguments scope .start arguments with
    | .error e => .error e
    | .ok p =>
      match p.file with
      | none => .error (.usage ⟨scope, .noFile⟩)
      | some file => .ok (p.settings.foldl Request.set (Request.plain command file), p.extras)

/-- Reads options before the command, and then the command; options that are unknown are left
over. -/
def readProgram (extras : List String) : List String → Except Refusal Request
  | [] => .error (.usage ⟨.program, .noCommand⟩)
  | s :: rest =>
    if s = "--" then
      if rest.isEmpty then .error (.usage ⟨.program, .noCommand⟩)
      else .error (.usage ⟨.program, .unknownCommand s⟩)
    else
      match classify .program s with
      | .error e => .error (.usage ⟨.program, e⟩)
      | .ok (.option s none) => readProgram (extras ++ [s]) rest
      | .ok (.option s (some m)) =>
        match readMatch .program s.length m with
        | .error e => .error (.usage ⟨.program, e⟩)
        | .ok _ => .error (.help .program)
      | .ok _ =>
        match Command.ofName? s with
        | none => .error (.usage ⟨.program, .unknownCommand s⟩)
        | some command =>
          match readCommand command rest with
          | .error e => .error e
          | .ok (request, more) =>
            match extras ++ more with
            | [] => .ok request
            | arguments => .error (.usage ⟨.program, .unrecognized arguments⟩)

/-- The request that arguments make. -/
def parseArguments (arguments : List String) : Except Refusal Request :=
  readProgram [] arguments

end PhraseGrammar.CommandLine
