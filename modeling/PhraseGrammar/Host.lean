/-!
# PhraseGrammar.Host

What the program takes from the machine that it runs on.

* `Host` — the names of characters, and how far calls and memory reach.
* `Host.ordinary` — a machine that knows the names of a few characters.
-/

namespace PhraseGrammar

/-- How many calls lie in each other where the document of a record is read. -/
def recordCalls : Nat := 5

/-- A machine. How far its calls reach is counted from where they are made. -/
class Host where
  /-- The character of a name. -/
  named? : List Char → Option Char
  /-- How many calls may lie in each other where a document is read. -/
  readingCalls : Nat
  /-- How many calls may lie in each other where a value is shown. All places where one is shown are
  taken to lie equally deep. -/
  showingCalls : Nat
  /-- How many directories may be missing on the way to one that is made. -/
  missingDirectories : Nat
  /-- The widest indentation that there is room for. -/
  widest : Int
  recordCalls_le : recordCalls ≤ readingCalls

namespace Host

def digitNames : List String :=
  ["ZERO", "ONE", "TWO", "THREE", "FOUR", "FIVE", "SIX", "SEVEN", "EIGHT", "NINE"]

/-- The decimal digits, and their names. -/
def ordinaryNames : List (List Char × Char) :=
  digitNames.zipIdx.map fun d => ("DIGIT ".toList ++ d.1.toList, Nat.digitChar d.2)

scoped instance ordinary : Host where
  named? name := ordinaryNames.lookup (name.map Char.toUpper)
  readingCalls := 992
  showingCalls := 995
  missingDirectories := 984
  widest := 100000000
  recordCalls_le := by decide

end Host

end PhraseGrammar
