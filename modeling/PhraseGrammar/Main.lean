import PhraseGrammar.CommandLine.Run

/-!
# PhraseGrammar.Main

The program.

* `main` — a run on the files of the machine.
-/

namespace PhraseGrammar.CommandLine

def problemOfNumber (number : UInt32) : FileProblem :=
  match number.toNat with
  | 2 => .notFound
  | 13 => .permissionDenied
  | 17 => .alreadyExists
  | 20 => .notDirectory
  | 21 => .isDirectory
  | 36 => .nameTooLong
  | _ => .deviceError

/-- The problem that an error of the machine stands for. -/
def problemOf : IO.Error → FileProblem
  | .noFileOrDirectory _ number _ => problemOfNumber number
  | .permissionDenied _ number _ => problemOfNumber number
  | .alreadyExists _ number _ => problemOfNumber number
  | .inappropriateType _ number _ => problemOfNumber number
  | .invalidArgument _ number _ => problemOfNumber number
  | .illegalOperation number _ => problemOfNumber number
  | _ => .deviceError

def readFile (path : String) : IO (Except FileError (List UInt8)) := do
  if path.contains '\x00' then return .error .nulInFilePath
  try
    let octets ← IO.FS.readBinFile path
    return .ok octets.toList
  catch e => return .error (.system (problemOf e) path)

/-- Writes a file of the machine, with the directories on the way to it. -/
def writeFile (path : Files.FilePath) (text : String) : IO (Except FileError Unit) := do
  if path.text.contains '\x00' then return .error .nulInFilePath
  let directory := path.parent.text
  try
    IO.FS.createDirAll directory
  catch e => return .error (.system (problemOf e) directory)
  try
    IO.FS.writeFile path.text text
    return .ok ()
  catch e => return .error (.system (problemOf e) path.text)

def machineStorage : Storage IO where
  read := readFile
  write := writeFile

end PhraseGrammar.CommandLine

open PhraseGrammar Host in
/-- A run on the files of the machine. -/
def main (arguments : List String) : IO UInt32 := do
  let outcome ← CommandLine.run CommandLine.machineStorage arguments
  IO.print outcome.stdout
  IO.eprint outcome.stderr
  match outcome.ending with
  | .exit code => return code.toUInt32
  | .unreported e =>
    IO.eprintln (Text.escaped e.message)
    return 1
