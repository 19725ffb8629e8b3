import PhraseGrammar.Text

/-!
# PhraseGrammar.Hierarchy

The four types of phrase structure grammars.

* `GrammarType` — from the most to the least constrained.
* `GrammarType.name`, `GrammarType.ofName?` — their written names.
-/

namespace PhraseGrammar

/-- The type of a grammar; each type constrains the rules less than the one before. -/
inductive GrammarType where
  | regular
  | contextFree
  | contextSensitive
  | unrestricted
deriving DecidableEq, Repr, Inhabited

namespace GrammarType

def all : List GrammarType := [.regular, .contextFree, .contextSensitive, .unrestricted]

def name : GrammarType → String
  | .regular => "REGULAR"
  | .contextFree => "CONTEXT_FREE"
  | .contextSensitive => "CONTEXT_SENSITIVE"
  | .unrestricted => "UNRESTRICTED"

def ofName? (s : Text) : Option GrammarType := all.find? fun t => (t.name : Text) == s

theorem ofName?_eq_some_iff {s : Text} {t : GrammarType} : ofName? s = some t ↔ s = t.name := by
  constructor
  · intro h
    unfold ofName? at h
    have ht := List.find?_some h
    exact (beq_iff_eq.1 ht).symm
  · rintro rfl
    cases t <;> rfl

theorem ofName?_eq_none_iff {s : Text} : ofName? s = none ↔ ∀ t : GrammarType, s ≠ t.name := by
  simp only [Option.eq_none_iff_forall_ne_some, ne_eq, ofName?_eq_some_iff]

def allNames : String := ", ".intercalate (all.map name)

end GrammarType

end PhraseGrammar
