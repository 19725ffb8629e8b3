import PhraseGrammar.Files.Error
import PhraseGrammar.Files.Path
import PhraseGrammar.Host
import PhraseGrammar.Text.Utf8

/-!
# PhraseGrammar.Files.Tree

A tree of files around a working directory.

* `Location` — the names on the way to a directory or a file.
* `Tree` — directories and files with their locations.
* `Tree.locate` — where a path leads.
* `Tree.read`, `Tree.write`, `Tree.makeDirectories` — using the files.

Where the working directory lies is not known, so a path that leaves it upwards does not come to the
root. At the root are the directories that every machine has.
-/

namespace PhraseGrammar.Files

/-- Where the way to a location begins: in the working directory, somewhere above it, or at the
root. -/
inductive Origin where
  | working
  | above
  | root
deriving DecidableEq, Repr

structure Location where
  origin : Origin
  names : List String
deriving DecidableEq, Repr

namespace Location

def working : Location := ⟨.working, []⟩

def root : Location := ⟨.root, []⟩

def child (l : Location) (name : String) : Location := { l with names := l.names ++ [name] }

/-- The directory that a location is in; the root is in itself. -/
def parent (l : Location) : Location :=
  match l.origin, l.names with
  | .working, [] => ⟨.above, []⟩
  | _, names => { l with names := names.dropLast }

end Location

structure Tree where
  directories : List Location
  files : List (Location × List UInt8)
deriving DecidableEq, Repr

/-- Where a path leads: to something that is there, or to a name that a directory does not have. -/
inductive Place where
  | directory (location : Location)
  | file (location : Location) (octets : List UInt8)
  | absent (location : Location)
deriving DecidableEq, Repr

namespace Tree

/-- The directories at the root of every machine. -/
def rootDirectories : List String :=
  ["bin", "boot", "dev", "etc", "home", "lib", "media", "mnt", "opt", "proc", "root", "run", "sbin",
    "srv", "sys", "tmp", "usr", "var"]

/-- The tree with an empty working directory. Of the files elsewhere only the empty device is
known. -/
def fresh : Tree :=
  ⟨rootDirectories.map Location.root.child, [(⟨.root, ["dev", "null"]⟩, [])]⟩

def look (t : Tree) (l : Location) : Place :=
  match t.files.find? fun f => f.1 == l with
  | some (_, octets) => .file l octets
  | none => if l.names.isEmpty || t.directories.contains l then .directory l else .absent l

/-- The longest name, in octets. -/
def nameLimit : Nat := 255

/-- The longest path, in octets. -/
def pathLimit : Nat := 4095

def octetCount (cs : List Char) : Nat := (Text.Utf8.encode cs).length

def step (t : Tree) (place : Place) (part : List Char) : Except FileProblem Place :=
  match place with
  | .absent _ => .error .notFound
  | .file _ _ => .error .notDirectory
  | .directory location =>
    if part = [] ∨ part = ['.'] then .ok place
    else if part = ['.', '.'] then .ok (.directory location.parent)
    else if nameLimit < octetCount part then .error .nameTooLong
    else .ok (t.look (location.child (String.ofList part)))

def walk (t : Tree) (place : Place) : List (List Char) → Except FileProblem Place
  | [] => .ok place
  | part :: parts =>
    match t.step place part with
    | .error e => .error e
    | .ok place => walk t place parts

def locate (t : Tree) (path : String) : Except FileProblem Place :=
  if pathLimit < octetCount path.toList then .error .nameTooLong
  else
    match path.toList with
    | [] => .error .notFound
    | '/' :: cs => t.walk (.directory .root) (components cs)
    | cs => t.walk (.directory .working) (components cs)

def read (t : Tree) (path : String) : Except FileError (List UInt8) :=
  if path.contains '\x00' then .error .nulInFilePath
  else
    match t.locate path with
    | .error e => .error (.system e path)
    | .ok (.file _ octets) => .ok octets
    | .ok (.directory _) => .error (.system .isDirectory path)
    | .ok (.absent _) => .error (.system .notFound path)

/-- Puts a file at a location, in place of one that is there. -/
def putFile (t : Tree) (l : Location) (octets : List UInt8) : Tree :=
  { t with files := t.files.filter (fun f => f.1 != l) ++ [(l, octets)] }

/-- Writes a file; its directory has to be there. -/
def write (t : Tree) (path : String) (octets : List UInt8) : Except FileError Tree :=
  if path.contains '\x00' then .error .nulInFilePath
  else
    match t.locate path with
    | .error e => .error (.system e path)
    | .ok (.file l _) | .ok (.absent l) => .ok (t.putFile l octets)
    | .ok (.directory _) => .error (.system .isDirectory path)

def makeDirectory (t : Tree) (path : String) : Except FileError Tree :=
  if path.contains '\x00' then .error .nulInDirectoryPath
  else
    match t.locate path with
    | .error e => .error (.system e path)
    | .ok (.file _ _) | .ok (.directory _) => .error (.system .alreadyExists path)
    | .ok (.absent l) => .ok { t with directories := t.directories ++ [l] }

def isDirectory (t : Tree) (path : String) : Bool :=
  match t.locate path with
  | .ok (.directory _) => true
  | _ => false

/-- A tree in which a directory could not be made is good all the same if the directory is there. -/
def orPresent (t : Tree) (path : String) (e : FileError) : Except FileError Tree :=
  if t.isDirectory path then .ok t else .error e

/-- Makes the directory of `parts` below a root, and those on the way to it that are missing. -/
def makeDirectoriesBelow (t : Tree) (root : String) : (depth : Nat) → (parts : List String) →
    Except FileError Tree
  | depth, parts =>
    let path := (FilePath.mk root parts).text
    match t.makeDirectory path with
    | .ok t => .ok t
    | .error (.system .notFound _) =>
      match depth with
      | 0 => .error .missingTooDeep
      | depth + 1 =>
        match makeDirectoriesBelow t root depth parts.dropLast with
        | .error e => .error e
        | .ok t =>
          match t.makeDirectory path with
          | .ok t => .ok t
          | .error (.system .notFound p) => .error (.system .notFound p)
          | .error e => t.orPresent path e
    | .error e => t.orPresent path e

/-- Makes a directory unless it is there, and those on the way to it that are missing. -/
def makeDirectories [Host] (t : Tree) (path : FilePath) : Except FileError Tree :=
  t.makeDirectoriesBelow path.root Host.missingDirectories path.parts

def addFile (t : Tree) (path : String) (octets : List UInt8) : Tree :=
  let names := (FilePath.ofText path).parts
  let onTheWay := (List.range names.length).map fun n => Location.mk .working (names.take n)
  let directories := onTheWay.filter fun d => !d.names.isEmpty && !t.directories.contains d
  { t with directories := t.directories ++ directories }.putFile ⟨.working, names⟩ octets

def workingFiles (t : Tree) : List (List String × List UInt8) :=
  (t.files.filter fun f => f.1.origin == .working).map fun f => (f.1.names, f.2)

end Tree

end PhraseGrammar.Files
