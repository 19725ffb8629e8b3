import PhraseGrammar.Proofs.Reachable

/-!
# PhraseGrammar.Proofs.Classification

The type of a grammar, read off its rules.

* `View.HasUnrestrictedHead`: some head is not one symbol, or it is the start symbol alone.
* `View.IsRightLinear`: every body is the empty word, or one or two symbols of which the first is a
  terminal.
* `View.classify_eq`: the type that the tests find, where no body is without symbols.

`classified_of_reachable` says which type a grammar has. The test of lengths never decides it alone,
because a word that is stored has a symbol.
-/

namespace PhraseGrammar

/-- Some head, with or without bodies, is not a single symbol other than the start symbol. -/
def View.HasUnrestrictedHead (v : View) : Prop := ∃ r ∈ v.rules, r.1.length ≠ 1 ∨ r.1 = [v.start]

instance (v : View) : Decidable v.HasUnrestrictedHead :=
  inferInstanceAs (Decidable (∃ r ∈ v.rules, r.1.length ≠ 1 ∨ r.1 = [v.start]))

/-- The body is the empty word, or one or two symbols of which the first is a terminal. -/
def Word.IsRightLinear (terminals : List Symbol) (body : Word) : Prop :=
  body = Word.empty ∨ (body.length = 1 ∨ body.length = 2) ∧ ∃ s ∈ terminals, body.head? = some s

theorem isRightLinearBody_iff {terminals : List Symbol} {body : Word} :
    isRightLinearBody terminals body = true ↔ Word.IsRightLinear terminals body := by
  unfold isRightLinearBody Word.IsRightLinear
  cases body with
  | nil => simp [Word.empty]
  | cons s tail => simp

instance (terminals : List Symbol) (body : Word) :
    Decidable (Word.IsRightLinear terminals body) :=
  decidable_of_iff _ isRightLinearBody_iff

def View.IsRightLinear (v : View) : Prop :=
  ∀ r ∈ v.rules, ∀ b ∈ r.2, Word.IsRightLinear v.terminals b

instance (v : View) : Decidable v.IsRightLinear :=
  inferInstanceAs (Decidable (∀ r ∈ v.rules, ∀ b ∈ r.2, Word.IsRightLinear v.terminals b))

/-- The test of lengths holds of a head of one symbol, because every body has a symbol. -/
theorem isMonotoneUnitRule_eq (start : Symbol) (head : Word) {bodies : List Word}
    (h : ∀ b ∈ bodies, b ≠ []) :
    isMonotoneUnitRule start head bodies = (head.length == 1 && head != [start]) := by
  unfold isMonotoneUnitRule
  by_cases hone : head.length = 1
  · have hlengths : bodies.all (fun body => decide (head.realLength ≤ body.length)) = true := by
      rw [List.all_eq_true]
      intro b hb
      have hreal : head.realLength ≤ head.length := List.countP_le_length
      have hpos : 0 < b.length := List.length_pos_iff.2 (h b hb)
      exact decide_eq_true (by omega)
    rw [hlengths, Bool.true_and]
  · rw [beq_false_of_ne hone, Bool.and_false]

namespace View

def HasFullBodies (v : View) : Prop := ∀ r ∈ v.rules, ∀ b ∈ r.2, b ≠ []

theorem all_isMonotoneUnitRule_iff {v : View} (h : v.HasFullBodies) :
    v.rules.all (fun r => isMonotoneUnitRule v.start r.1 r.2) = true ↔ ¬v.HasUnrestrictedHead := by
  rw [List.all_eq_true]
  simp only [HasUnrestrictedHead, not_exists, not_and, not_or, Decidable.not_not]
  refine forall_congr' fun r => forall_congr' fun hr => ?_
  rw [isMonotoneUnitRule_eq v.start r.1 (h r hr), Bool.and_eq_true, beq_iff_eq, bne_iff_ne]

theorem all_isRightLinearBody_iff {v : View} :
    v.rules.all (fun r => r.2.all (isRightLinearBody v.terminals)) = true ↔ v.IsRightLinear := by
  simp only [List.all_eq_true, isRightLinearBody_iff]
  rfl

theorem classify_eq {v : View} (h : v.HasFullBodies) :
    v.classify =
      if v.HasUnrestrictedHead then .unrestricted
      else if v.IsRightLinear then .regular
      else .contextFree := by
  unfold classify failedStage?
  by_cases hfree : v.HasUnrestrictedHead
  · have hfail := mt (all_isMonotoneUnitRule_iff h).1 (not_not_intro hfree)
    rw [Bool.not_eq_true] at hfail
    simp [hfail, hfree, Stage.type]
  · have hpass := (all_isMonotoneUnitRule_iff h).2 hfree
    have hone : v.rules.all (fun r => r.1.length == 1) = true := by
      rw [List.all_eq_true]
      intro r hr
      have hhead := List.all_eq_true.1 hpass r hr
      rw [isMonotoneUnitRule_eq v.start r.1 (h r hr), Bool.and_eq_true] at hhead
      exact hhead.1
    by_cases hlinear : v.IsRightLinear
    · have hbodies := all_isRightLinearBody_iff.2 hlinear
      simp [hpass, hone, hbodies, hfree, hlinear]
    · have hbodies := mt all_isRightLinearBody_iff.1 hlinear
      rw [Bool.not_eq_true] at hbodies
      simp [hpass, hone, hbodies, hfree, hlinear, Stage.type]

theorem classify_eq_regular_iff {v : View} (h : v.HasFullBodies) :
    v.classify = .regular ↔ ¬v.HasUnrestrictedHead ∧ v.IsRightLinear := by
  rw [classify_eq h]
  by_cases hfree : v.HasUnrestrictedHead <;> by_cases hlinear : v.IsRightLinear <;>
    simp [hfree, hlinear]

structure Classified (v : View) : Prop where
  unrestricted : v.classify = .unrestricted ↔ v.HasUnrestrictedHead
  regular : ¬v.HasUnrestrictedHead → (v.classify = .regular ↔ v.IsRightLinear)
  contextFree : ¬v.HasUnrestrictedHead → ¬v.IsRightLinear → v.classify = .contextFree
  /-- A rule that the test of lengths keeps out is kept out by its head as well. -/
  lengths : ∀ r ∈ v.rules,
    isMonotoneUnitRule v.start r.1 r.2 = (r.1.length == 1 && r.1 != [v.start])
  never : v.classify ≠ .contextSensitive

theorem classified_of_fullBodies {v : View} (h : v.HasFullBodies) : v.Classified := by
  have heq := classify_eq h
  constructor
  case unrestricted =>
    rw [heq]
    by_cases hfree : v.HasUnrestrictedHead
    · simp [hfree]
    · rw [if_neg hfree]
      by_cases hlinear : v.IsRightLinear <;> simp [hlinear, hfree]
  case regular =>
    intro hfree
    rw [heq, if_neg hfree]
    by_cases hlinear : v.IsRightLinear <;> simp [hlinear]
  case contextFree =>
    intro hfree hlinear
    rw [heq, if_neg hfree, if_neg hlinear]
  case lengths => exact fun r hr => isMonotoneUnitRule_eq v.start r.1 (h r hr)
  case never =>
    rw [heq]
    by_cases hfree : v.HasUnrestrictedHead <;> by_cases hlinear : v.IsRightLinear <;>
      simp [hfree, hlinear]

end View

theorem WellFormedRules.ne_nil {m : OrderedMap Word Bodies} (h : WellFormedRules m) :
    ∀ r ∈ m.entries.map (fun e => (e.1, e.2.toList)), ∀ b ∈ r.2, b ≠ [] := by
  intro r hr b hb
  obtain ⟨e, he, rfl⟩ := List.mem_map.1 hr
  exact ((h.bodies e he).normal b hb).ne_nil

section

variable [Host]

/-- Which type every grammar has, editable or frozen. -/
theorem classified_of_reachable :
    (∀ g : Grammar, g.Reachable → g.view.Classified) ∧
      ∀ p : FrozenGrammar, p.Reachable → p.view.Classified := by
  constructor
  · intro g hg
    exact View.classified_of_fullBodies hg.wellFormed.rules.ne_nil
  · intro p hp
    exact View.classified_of_fullBodies hp.wellFormed.rules.ne_nil

end

section

open scoped Host

/-- The head and the first body are empty words, and the second body ends with `ε`. -/
def emptyHead : Grammar :=
  let edits : List GrammarEdit := [
    .addTerminal (.text "a"),
    .rule (.addProduction (.list []) (.list [.list [], .list [.text "a", .text "ε"]]))]
  edits.foldl (fun g e => (g.apply e).1) (Grammar.new "g" ⟨"S"⟩ "")

theorem classified_emptyHead :
    ¬emptyHead.view.HasUnrestrictedHead ∧ emptyHead.view.IsRightLinear ∧
      emptyHead.view.classify = .regular := by
  have hreachable : emptyHead.Reachable := .edit _ (.edit _ (.new "g" ⟨"S"⟩ ""))
  have hclassified := classified_of_reachable.1 emptyHead hreachable
  have hhead : ¬emptyHead.view.HasUnrestrictedHead := by decide +kernel
  have hbodies : emptyHead.view.IsRightLinear := by decide +kernel
  exact ⟨hhead, hbodies, (hclassified.regular hhead).2 hbodies⟩

end

end PhraseGrammar
