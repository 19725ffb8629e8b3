import PhraseGrammar.Text.Quoted

/-!
# PhraseGrammar.Files.Error

What can go wrong with a file.

* `FileProblem` — the problems that a file system reports, with their numbers.
* `FileError` — a problem with a path, a path that is none, or too many directories to make.
-/

namespace PhraseGrammar

inductive FileProblem where
  | notFound
  | permissionDenied
  | alreadyExists
  | notDirectory
  | isDirectory
  | nameTooLong
  | deviceError
deriving DecidableEq, Repr

def FileProblem.number : FileProblem → Nat
  | .notFound => 2
  | .deviceError => 5
  | .permissionDenied => 13
  | .alreadyExists => 17
  | .notDirectory => 20
  | .isDirectory => 21
  | .nameTooLong => 36

def FileProblem.text : FileProblem → String
  | .notFound => "No such file or directory"
  | .deviceError => "Input/output error"
  | .permissionDenied => "Permission denied"
  | .alreadyExists => "File exists"
  | .notDirectory => "Not a directory"
  | .isDirectory => "Is a directory"
  | .nameTooLong => "File name too long"

inductive FileError where
  | system (problem : FileProblem) (path : String)
  | nulInFilePath
  | nulInDirectoryPath
  | missingTooDeep
deriving DecidableEq, Repr

def FileError.message : FileError → String
  | .system problem path =>
    "[Errno " ++ toString problem.number ++ "] " ++ problem.text ++ ": " ++ Text.quoted path
  | .nulInFilePath => "embedded null byte"
  | .nulInDirectoryPath => "mkdir: embedded null character in path"
  | .missingTooDeep => "too many missing directories"

end PhraseGrammar
