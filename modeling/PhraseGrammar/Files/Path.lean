/-!
# PhraseGrammar.Files.Path

Paths of files.

* `components` — the parts of a path between slashes.
* `FilePath` — a path without its empty parts and dots.
* `isRecordPath` — whether a file holds a record, which the end of its name tells.
-/

namespace PhraseGrammar.Files

def components : List Char → List (List Char)
  | [] => [[]]
  | c :: rest =>
    if c = '/' then [] :: components rest
    else
      match components rest with
      | [] => [[c]]
      | part :: parts => (c :: part) :: parts

/-- A path in normal form: its root, and its parts below the root. -/
structure FilePath where
  root : String
  parts : List String
deriving DecidableEq, Repr

namespace FilePath

/-- The root of a path: two slashes are a root of their own, more are as good as one. -/
def rootOf (cs : List Char) : String :=
  match (cs.takeWhile (· == '/')).length with
  | 0 => ""
  | 2 => "//"
  | _ => "/"

/-- The path of a text; empty parts and single dots say nothing. -/
def ofText (s : String) : FilePath :=
  ⟨rootOf s.toList,
    ((components s.toList).filter fun part => part != [] && part != ['.']).map String.ofList⟩

def text (p : FilePath) : String :=
  if p.root.isEmpty && p.parts.isEmpty then "." else p.root ++ "/".intercalate p.parts

def parent (p : FilePath) : FilePath := { p with parts := p.parts.dropLast }

def name (p : FilePath) : String := p.parts.getLast?.getD ""

end FilePath

/-- What a name ends with from its last dot on; a dot at either end of the name does not count. -/
def suffix (name : List Char) : List Char :=
  let tail := (name.reverse.takeWhile (· != '.')).reverse
  if tail.isEmpty ∨ name.length ≤ tail.length + 1 then [] else '.' :: tail

/-- Whether the file at a path holds a record: its name ends with `.json`, in either case. -/
def isRecordPath (path : String) : Bool :=
  (suffix (FilePath.ofText path).name.toList).map Char.toLower == ".json".toList

end PhraseGrammar.Files
