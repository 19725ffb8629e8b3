import PhraseGrammar.Notation.Printer
import PhraseGrammar.Proofs.Merging

/-!
# PhraseGrammar.Proofs.Conversion

From one kind of grammar to the other and back.

* `Grammar.thaw_freeze`, `FrozenGrammar.freeze_thaw`: on well-formed grammars the two conversions
  undo each other, so each is injective.
* `FrozenGrammar.same_eq`: frozen grammars are compared like the grammars they thaw to.
* `View.ReadAlike`: no reader tells two views apart.

`unchanged_of_reachable` says it of all grammars that a caller can come by.
-/

namespace PhraseGrammar

/-! ## There and back -/

theorem Grammar.thaw_freeze {g : Grammar} (h : g.WellFormed) : g.freeze.thaw = g := by
  rw [FrozenGrammar.thaw_eq (wellFormed_freeze h), freeze_eq h]

theorem FrozenGrammar.freeze_thaw {p : FrozenGrammar} (h : p.WellFormed) : p.thaw.freeze = p := by
  rw [Grammar.freeze_eq (wellFormed_thaw h), thaw_eq h]

theorem FrozenGrammar.same_eq {p q : FrozenGrammar} (hp : p.WellFormed) (hq : q.WellFormed) :
    p.same q = p.thaw.same q.thaw := by
  have hfreeze := Grammar.same_freeze (wellFormed_thaw hp) (wellFormed_thaw hq)
  rwa [freeze_thaw hp, freeze_thaw hq] at hfreeze

section

variable [Host]

/-! ## Readers -/

/-- Everything that is read off a view comes out the same on both: the record, the document and the
texts that store it, the two printed forms, and the type. -/
structure View.ReadAlike (v w : View) : Prop where
  record : v.record = w.record
  document : v.record.document = w.record.document
  text : ∀ indent, v.record.writeIndented indent = w.record.writeIndented indent
  print : Notation.print v = Notation.print w
  productions : Notation.printProductions v = Notation.printProductions w
  type : v.classify = w.classify

theorem View.readAlike_self (v : View) : v.ReadAlike v :=
  ⟨rfl, rfl, fun _ => rfl, rfl, rfl, rfl⟩

/-- Freezing and thawing a grammar gives it back with every order kept, and so does copying it;
thawing and freezing a frozen grammar gives that back. Both kinds show every reader the same. -/
theorem unchanged_of_reachable :
    (∀ g : Grammar, g.Reachable →
      g.freeze.thaw = g ∧ g.copy = g ∧ g.freeze.view = g.view ∧ g.view.ReadAlike g.freeze.view) ∧
      ∀ p : FrozenGrammar, p.Reachable →
        p.thaw.freeze = p ∧ p.thaw.view = p.view ∧ p.view.ReadAlike p.thaw.view := by
  constructor
  · intro g hg
    have hview := Grammar.view_freeze hg.wellFormed
    refine ⟨Grammar.thaw_freeze hg.wellFormed, Grammar.copy_eq hg.wellFormed, hview, ?_⟩
    rw [hview]
    exact g.view.readAlike_self
  · intro p hp
    have hview := FrozenGrammar.view_thaw hp.wellFormed
    refine ⟨FrozenGrammar.freeze_thaw hp.wellFormed, hview, ?_⟩
    rw [hview]
    exact p.view.readAlike_self

end

section

open scoped Host

/-- A grammar after a merge that breaks off, with a body that was taken away and brought back. -/
def reorderedGrammar : Grammar :=
  [.addTerminal (.text "b"), .addTerminal (.text "a"),
    .rule (.addProduction (.text "S") (.list [.text "a", .list [.text "b", .text "S"], .null])),
    .rule (.addHead (.list [])),
    .rule (.removeBody (.text "S") (.text "a")),
    .rule (.addBody (.text "S") (.text "a"))].foldl
    (fun g e => (g.apply e).1) (.new "g" ⟨"S"⟩ "")

theorem unchanged_reorderedGrammar :
    reorderedGrammar.Reachable ∧ reorderedGrammar.freeze.thaw = reorderedGrammar ∧
      reorderedGrammar.copy = reorderedGrammar ∧
      reorderedGrammar.freeze.thaw.freeze = reorderedGrammar.freeze ∧
      Notation.printProductions reorderedGrammar.freeze.view = "S -> b S\nS -> a" ∧
      reorderedGrammar.freeze.view.rules =
        [([⟨"S"⟩], [[⟨"b"⟩, ⟨"S"⟩], [⟨"a"⟩]]), (Word.empty, [])] := by
  have hreach : reorderedGrammar.Reachable :=
    .edit _ (.edit _ (.edit _ (.edit _ (.edit _ (.edit _ (.new "g" ⟨"S"⟩ ""))))))
  obtain ⟨hthaw, hcopy, hview, hread⟩ := unchanged_of_reachable.1 _ hreach
  have hfreeze := (unchanged_of_reachable.2 _ (.freeze hreach)).1
  refine ⟨hreach, hthaw, hcopy, hfreeze, ?_, ?_⟩
  · rw [← hread.productions]
    decide +kernel
  · rw [hview]
    decide +kernel

end

end PhraseGrammar
