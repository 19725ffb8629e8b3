import Mathlib.Order.MinMax
import PhraseGrammar.Proofs.Canonical
import PhraseGrammar.Proofs.Equality

/-!
# PhraseGrammar.Proofs.TypeOrder

The type of a grammar is the greatest that one of its rules asks for.

* `GrammarType.rank`: the types in order, from the most to the least constrained.
* `GrammarType.AllowsHead`, `GrammarType.AllowsBody`: the heads and the bodies that a grammar of
  some type may have.
* `View.Shows`: a view lists some rules. `View.classify_le_iff`: its type is at most the types that
  allow all its heads and all its bodies, so no test depends on two rules at once.
* `View.only`: a grammar with one of the rules. `View.classify_eq_foldr`: the type is the greatest
  of theirs.
* `Grows`: some rules are among others. `View.classify_mono`: the type grows with the rules.
* `RuleSteps`: what the edits of the rules do in either kind of grammar.

`RuleSteps.classify_merge` merges one rule, `RuleSteps.classify_merges` any number.
`type_is_join` puts together what follows for the grammars that a caller can come by.
-/

namespace PhraseGrammar

/-! ## Types in order -/

namespace GrammarType

def rank : GrammarType → Nat
  | .regular => 0
  | .contextFree => 1
  | .contextSensitive => 2
  | .unrestricted => 3

theorem rank_injective : Function.Injective rank := by
  intro s t h
  cases s <;> cases t <;> first | rfl | cases h

/-- A type is greater if it constrains the rules less. -/
instance : LinearOrder GrammarType := LinearOrder.lift' rank rank_injective

example : regular < contextFree ∧ contextFree < contextSensitive ∧
    contextSensitive < unrestricted := by decide

theorem regular_le (t : GrammarType) : regular ≤ t := Nat.zero_le t.rank

theorem contextFree_le_iff {t : GrammarType} : contextFree ≤ t ↔ t ≠ regular := by
  cases t <;> decide

theorem unrestricted_le_iff {t : GrammarType} : unrestricted ≤ t ↔ t = unrestricted := by
  cases t <;> decide

def AllowsHead (t : GrammarType) (start : Symbol) (head : Word) : Prop :=
  t = .unrestricted ∨ head.length = 1 ∧ head ≠ [start]

def AllowsBody (t : GrammarType) (terminals : List Symbol) (body : Word) : Prop :=
  t ≠ .regular ∨ Word.IsRightLinear terminals body

theorem AllowsBody.mono {t : GrammarType} {terminals more : List Symbol} {body : Word}
    (hmore : ∀ s ∈ terminals, s ∈ more) (h : t.AllowsBody terminals body) :
    t.AllowsBody more body := by
  rcases h with ht | hempty | ⟨hlength, s, hs, hhead⟩
  · exact .inl ht
  · exact .inr (.inl hempty)
  · exact .inr (.inr ⟨hlength, s, hmore s hs, hhead⟩)

theorem foldr_max_le_iff {ts : List GrammarType} {t : GrammarType} :
    ts.foldr max .regular ≤ t ↔ ∀ s ∈ ts, s ≤ t := by
  induction ts with
  | nil => simp [regular_le]
  | cons s ts ih => rw [List.foldr_cons, max_le_iff, ih, List.forall_mem_cons]

end GrammarType

namespace View

variable {v w : View} {m n : OrderedMap Word Bodies} {t : GrammarType}

theorem classify_le_iff_allows (h : v.HasFullBodies) :
    v.classify ≤ t ↔ (∀ r ∈ v.rules, t.AllowsHead v.start r.1) ∧
      ∀ r ∈ v.rules, ∀ b ∈ r.2, t.AllowsBody v.terminals b := by
  have hheads : (∀ r ∈ v.rules, t.AllowsHead v.start r.1) ↔
      t = .unrestricted ∨ ¬v.HasUnrestrictedHead := by
    simp only [GrammarType.AllowsHead, HasUnrestrictedHead]
    by_cases ht : t = .unrestricted <;> simp [ht]
  have hbodies : (∀ r ∈ v.rules, ∀ b ∈ r.2, t.AllowsBody v.terminals b) ↔
      t ≠ .regular ∨ v.IsRightLinear := by
    simp only [GrammarType.AllowsBody, IsRightLinear]
    by_cases ht : t = .regular <;> simp [ht]
  rw [hheads, hbodies, classify_eq h]
  by_cases hfree : v.HasUnrestrictedHead
  · have ht : t = .unrestricted → t ≠ .regular ∨ v.IsRightLinear := by
      rintro rfl
      exact .inl GrammarType.noConfusion
    simpa [hfree, GrammarType.unrestricted_le_iff] using ht
  · by_cases hlinear : v.IsRightLinear <;>
      simp [hfree, hlinear, GrammarType.contextFree_le_iff, GrammarType.regular_le]

/-- The view lists the rules, and they are well-formed. -/
structure Shows (v : View) (m : OrderedMap Word Bodies) : Prop where
  rules : v.rules = m.entries.map fun e => (e.1, e.2.toList)
  wellFormed : WellFormedRules m

theorem Shows.hasFullBodies (h : v.Shows m) : v.HasFullBodies := by
  unfold HasFullBodies
  rw [h.rules]
  exact h.wellFormed.ne_nil

theorem Shows.normal (h : v.Shows m) {r : Word × List Word} (hr : r ∈ v.rules) :
    Word.IsNormal r.1 ∧ Bodies.WellFormed ⟨r.2⟩ := by
  rw [h.rules] at hr
  obtain ⟨e, he, rfl⟩ := List.mem_map.1 hr
  exact ⟨h.wellFormed.normal e he, h.wellFormed.bodies e he⟩

theorem classify_le_iff (h : v.Shows m) :
    v.classify ≤ t ↔ (∀ w ∈ m.keys, t.AllowsHead v.start w) ∧
      ∀ w b, HasBody m w b → t.AllowsBody v.terminals b := by
  have hheads : (∀ r ∈ v.rules, t.AllowsHead v.start r.1) ↔
      ∀ w ∈ m.keys, t.AllowsHead v.start w := by
    rw [h.rules, OrderedMap.keys, List.forall_mem_map, List.forall_mem_map]
  rw [classify_le_iff_allows h.hasFullBodies, hheads, h.rules,
    forall_body_iff h.wellFormed.nodup (p := t.AllowsBody v.terminals)]

/-- The view of a grammar with one rule, and else the same. -/
def only (v : View) (r : Word × List Word) : View := { v with rules := [r] }

theorem classify_only_le_iff {r : Word × List Word} (hr : ∀ b ∈ r.2, b ≠ []) :
    (v.only r).classify ≤ t ↔
      t.AllowsHead v.start r.1 ∧ ∀ b ∈ r.2, t.AllowsBody v.terminals b := by
  have hfull : (v.only r).HasFullBodies := by simpa [HasFullBodies, only] using hr
  rw [classify_le_iff_allows hfull]
  simp [only]

theorem classify_only_congr (hstart : v.start = w.start)
    (hterminals : ∀ s, s ∈ v.terminals ↔ s ∈ w.terminals) (hr : ∀ b ∈ r.2, b ≠ []) :
    (v.only r).classify = (w.only r).classify := by
  have hbody : ∀ (t : GrammarType) b, t.AllowsBody v.terminals b ↔ t.AllowsBody w.terminals b :=
    fun t b => ⟨.mono fun s => (hterminals s).1, .mono fun s => (hterminals s).2⟩
  refine eq_of_forall_ge_iff fun t => ?_
  rw [classify_only_le_iff hr, classify_only_le_iff hr, hstart]
  simp only [hbody]

/-- The type is the greatest that the rules have one by one, and regular if there are none. -/
theorem classify_eq_foldr (h : v.HasFullBodies) :
    v.classify = (v.rules.map fun r => (v.only r).classify).foldr max .regular := by
  refine eq_of_forall_ge_iff fun t => ?_
  rw [classify_le_iff_allows h, GrammarType.foldr_max_le_iff, List.forall_mem_map,
    ← forall₂_and]
  exact forall₂_congr fun r hr => (classify_only_le_iff (h r hr)).symm

end View

/-! ## More rules and fewer -/

/-- All the heads are heads of the others, and have all their bodies there. -/
def Grows (m n : OrderedMap Word Bodies) : Prop :=
  (∀ h ∈ m.keys, h ∈ n.keys) ∧ ∀ h b, HasBody m h b → HasBody n h b

theorem Grows.refl (m : OrderedMap Word Bodies) : Grows m m := ⟨fun _ hh => hh, fun _ _ hb => hb⟩

theorem View.classify_mono {v w : View} {m n : OrderedMap Word Bodies} (hv : v.Shows m)
    (hw : w.Shows n) (hstart : v.start = w.start)
    (hterminals : ∀ s ∈ w.terminals, s ∈ v.terminals) (h : Grows m n) :
    v.classify ≤ w.classify := by
  obtain ⟨hheads, hbodies⟩ := (classify_le_iff hw).1 le_rfl
  refine (classify_le_iff hv).2 ⟨fun k hk => ?_, fun k b hb => ?_⟩
  · rw [hstart]
    exact hheads k (h.1 k hk)
  · exact (hbodies k b (h.2 k b hb)).mono hterminals

namespace Deed

variable {m : OrderedMap Word Bodies} {d : Deed}

def isRemoval : Deed → Bool
  | .add _ _ => false
  | .remove _ _ | .drop _ => true

theorem grows_apply (hm : WellFormedRules m) (hd : d.isRemoval = false) : Grows m (d.apply m) := by
  cases d with
  | add h bs =>
    refine ⟨fun k hk => mem_keys_apply.2 (.inr ⟨hk, Deed.noConfusion⟩), fun k b hb => ?_⟩
    exact (hasBody_apply hm).2 (.inr ⟨hb, by simp⟩)
  | remove | drop => cases hd

theorem apply_grows (hm : WellFormedRules m) (hd : d.isRemoval = true) : Grows (d.apply m) m := by
  have hadd : ∀ h bs, d ≠ .add h bs := by
    rintro h bs rfl
    cases hd
  constructor
  · intro k hk
    rcases mem_keys_apply.1 hk with ⟨bs, heq⟩ | ⟨hk, -⟩
    · exact absurd heq (hadd k bs)
    · exact hk
  · intro k b hb
    rcases (hasBody_apply hm).1 hb with ⟨bs, heq, -⟩ | ⟨hb, -⟩
    · exact absurd heq (hadd k bs)
    · exact hb

end Deed

/-! ## Edits of rules -/

namespace RuleEdit

/-- The rules after an edit are those before it, or what a deed leaves that removes if the edit
does. The deed need not be that of the edit: an edit in place may break off. -/
def Leads (e : RuleEdit) (m n : OrderedMap Word Bodies) : Prop :=
  n = m ∨ ∃ d : Deed, d.isRemoval = e.isRemoval ∧ n = d.apply m

theorem Leads.grows {e : RuleEdit} {m n : OrderedMap Word Bodies} (hm : WellFormedRules m)
    (h : e.Leads m n) (he : e.isRemoval = false) : Grows m n := by
  rcases h with rfl | ⟨d, hd, rfl⟩
  · exact .refl n
  · exact Deed.grows_apply hm (hd.trans he)

theorem Leads.shrinks {e : RuleEdit} {m n : OrderedMap Word Bodies} (hm : WellFormedRules m)
    (h : e.Leads m n) (he : e.isRemoval = true) : Grows n m := by
  rcases h with rfl | ⟨d, hd, rfl⟩
  · exact .refl n
  · exact Deed.apply_grows hm (hd.trans he)

end RuleEdit

section

variable [Host]

theorem Value.toWords_symbols {bs : List Word} (h : ∀ b ∈ bs, Word.IsNormal b) :
    Value.toWords (bs.map fun b => .list (b.map .symbol)) = .ok bs := by
  induction bs with
  | nil => rfl
  | cons b bs ih =>
    obtain ⟨hb, hbs⟩ := List.forall_mem_cons.1 h
    have hnormal : Word.normalize b = b := hb
    simp only [List.map_cons, Value.toWords, Value.toWord_symbols, hnormal, ih hbs]

namespace RuleEdit

theorem isRemoval_deed {e : RuleEdit} {d : Deed} (h : e.deed = .ok d) :
    d.isRemoval = e.isRemoval := by
  cases e with
  | addHead | removeHead | removeBody | removeProduction =>
    simp only [deed, bind_eq_ok_iff] at h
    obtain ⟨_, -, h⟩ := h
    cases h
    rfl
  | addBody =>
    simp only [deed, bind_eq_ok_iff] at h
    obtain ⟨_, -, _, -, h⟩ := h
    cases h
    rfl
  | addProduction =>
    simp only [deed, bind_eq_ok_iff] at h
    obtain ⟨_, -, _, -, _, -, h⟩ := h
    cases h
    rfl

/-- The edit that merges a head with its bodies. -/
def merge (r : Word × List Word) : RuleEdit :=
  .addProduction (.list (r.1.map .symbol)) (.list (r.2.map fun b => .list (b.map .symbol)))

theorem deed_merge {r : Word × List Word} (hhead : Word.IsNormal r.1)
    (hbodies : ∀ b ∈ r.2, Word.IsNormal b) : (merge r).deed = .ok (.add r.1 r.2) := by
  have hnormal : Word.normalize r.1 = r.1 := hhead
  have helements : (Value.list (r.2.map fun b => .list (b.map .symbol))).elements =
      .ok (r.2.map fun b => .list (b.map .symbol)) := rfl
  simp only [merge, deed, Value.toWord_symbols, hnormal, helements, Value.toWords_symbols hbodies,
    bind, Except.bind, pure, Except.pure]

end RuleEdit

theorem Relation.apply_merge {r : Relation} (hr : WellFormedRules r.rules)
    {p : Word × List Word} (hhead : Word.IsNormal p.1) (hbodies : ∀ b ∈ p.2, Word.IsNormal b) :
    r.apply (.merge p) = (r.addProduction p.1 p.2, none) :=
  apply_addProduction hr hhead.canonical.toWord rfl (Value.toWords_symbols hbodies)

/-- What is left where an edit in place fails is what it leaves, as a deed, with fewer bodies. -/
theorem Relation.leads_apply {r : Relation} (hr : WellFormedRules r.rules) (e : RuleEdit) :
    e.Leads r.rules (r.apply e).1.rules := by
  have hok : ∀ {e : RuleEdit}, (r.apply e).2 = none → e.Leads r.rules (r.apply e).1.rules := by
    intro e hnone
    obtain ⟨d, hd, hrules⟩ := rules_apply hr hnone
    exact .inr ⟨d, e.isRemoval_deed hd, hrules⟩
  rcases e.ok_or_refused r with hnone | ⟨err, r', hrefused⟩
  · exact hok hnone
  · rw [hrefused.apply_eq hr]
    cases hrefused with
    | head | missing | addBody | removeBody => exact .inl rfl
    | addProduction _ _ hbefore | removeProduction _ _ _ hbefore =>
      have hleads := hok (congrArg Prod.snd hbefore)
      rw [hbefore] at hleads
      exact hleads

theorem FrozenRules.leads_apply {r : FrozenRules} (hr : WellFormedRules r.rules) {e : RuleEdit}
    {u : Update FrozenRules} (hu : r.apply e = .ok u) : e.Leads r.rules (u.on r).rules := by
  obtain ⟨d, hd, hrules⟩ := rules_on_apply hr hu
  exact .inr ⟨d, RuleEdit.isRemoval_deed hd, hrules⟩

/-! ## Both kinds of grammars -/

/-- The edits of the rules, in grammars of one kind. Well-formed ones have the invariant. -/
structure RuleSteps {G ε : Type} (view : G → View) (rules : G → OrderedMap Word Bodies)
    (step : G → GrammarEdit → G × Option ε) (Inv : G → Prop) : Prop where
  shows {g : G} : Inv g → (view g).Shows (rules g)
  inv {g : G} (e : RuleEdit) : Inv g → Inv (step g (.rule e)).1
  frame (g : G) (e : RuleEdit) :
    view (step g (.rule e)).1 = { view g with rules := (view (step g (.rule e)).1).rules }
  leads {g : G} (e : RuleEdit) : Inv g → e.Leads (rules g) (rules (step g (.rule e)).1)
  merge {g : G} {r : Word × List Word} :
    Inv g → Word.IsNormal r.1 → (∀ b ∈ r.2, Word.IsNormal b) →
      (step g (.rule (.merge r))).2 = none ∧
        rules (step g (.rule (.merge r))).1 = (Deed.add r.1 r.2).apply (rules g)

theorem Grammar.ruleSteps :
    RuleSteps view (fun g => g.relation.rules) apply Grammar.WellFormed where
  shows hg := ⟨rfl, hg.rules⟩
  inv e hg := wellFormed_apply hg (.rule e)
  frame _ _ := rfl
  leads e hg := Relation.leads_apply hg.rules e
  merge {g r} hg hhead hbodies := by
    have hnone : (g.relation.apply (.merge r)).2 = none := by
      rw [Relation.apply_merge hg.rules hhead hbodies]
    obtain ⟨d, hd, hrules⟩ := Relation.rules_apply hg.rules hnone
    rw [RuleEdit.deed_merge hhead hbodies] at hd
    cases hd
    exact ⟨hnone, hrules⟩

theorem FrozenGrammar.ruleSteps :
    RuleSteps view (fun p => p.rules.rules) step FrozenGrammar.WellFormed where
  shows hp := ⟨rfl, hp.rules⟩
  inv e hp := wellFormed_step hp (.rule e)
  frame p e := by
    cases hu : p.rules.apply e with
    | error err =>
      rw [step_rule_of_error hu]
    | ok u =>
      rw [step_rule_of_ok hu]
      rfl
  leads {p} e hp := by
    cases hu : p.rules.apply e with
    | error err =>
      rw [step_rule_of_error hu]
      exact .inl rfl
    | ok u =>
      rw [step_rule_of_ok hu]
      exact FrozenRules.leads_apply hp.rules hu
  merge {p r} hp hhead hbodies := by
    have happly : p.rules.apply (.merge r) = .ok (p.rules.addProduction r.1 r.2) :=
      FrozenRules.apply_addProduction hhead.canonical.toWord rfl (Value.toWords_symbols hbodies)
    obtain ⟨d, hd, hrules⟩ := FrozenRules.rules_on_apply hp.rules happly
    rw [RuleEdit.deed_merge hhead hbodies] at hd
    cases hd
    rw [step_rule_of_ok happly]
    exact ⟨rfl, hrules⟩

end

namespace RuleSteps

variable {G ε : Type} {view : G → View} {rules : G → OrderedMap Word Bodies}
  {step : G → GrammarEdit → G × Option ε} {Inv : G → Prop} (steps : RuleSteps view rules step Inv)
  {g : G}

include steps

theorem start_eq (g : G) (e : RuleEdit) : (view (step g (.rule e)).1).start = (view g).start := by
  rw [steps.frame]

theorem terminals_eq (g : G) (e : RuleEdit) :
    (view (step g (.rule e)).1).terminals = (view g).terminals := by
  rw [steps.frame]

theorem only_eq (g : G) (e : RuleEdit) (r : Word × List Word) :
    (view (step g (.rule e)).1).only r = (view g).only r := by
  rw [steps.frame]
  rfl

/-- Adding heads or bodies does not lower the type, even if it breaks off. -/
theorem le_classify (hg : Inv g) {e : RuleEdit} (he : e.isRemoval = false) :
    (view g).classify ≤ (view (step g (.rule e)).1).classify := by
  refine View.classify_mono (steps.shows hg) (steps.shows (steps.inv e hg))
    (steps.start_eq g e).symm ?_ ((steps.leads e hg).grows (steps.shows hg).wellFormed he)
  rw [steps.terminals_eq]
  exact fun s hs => hs

/-- Removing them does not raise it. -/
theorem classify_le (hg : Inv g) {e : RuleEdit} (he : e.isRemoval = true) :
    (view (step g (.rule e)).1).classify ≤ (view g).classify := by
  refine View.classify_mono (steps.shows (steps.inv e hg)) (steps.shows hg)
    (steps.start_eq g e) ?_ ((steps.leads e hg).shrinks (steps.shows hg).wellFormed he)
  rw [steps.terminals_eq]
  exact fun s hs => hs

theorem run_keeps {P : G → Prop} {es : List RuleEdit}
    (hstep : ∀ e ∈ es, ∀ g, Inv g → P g → P (step g (.rule e)).1) :
    ∀ {g : G}, Inv g → P g → P (afterEdits step g (es.map .rule)).1 := by
  induction es with
  | nil => exact fun _ hP => hP
  | cons e es ih =>
    intro g hg hP
    obtain ⟨he, hes⟩ := List.forall_mem_cons.1 hstep
    exact ih hes (steps.inv e hg) (he g hg hP)

theorem le_classify_run (hg : Inv g) {es : List RuleEdit} (hes : ∀ e ∈ es, e.isRemoval = false) :
    (view g).classify ≤ (view (afterEdits step g (es.map .rule)).1).classify :=
  steps.run_keeps (P := fun h => (view g).classify ≤ (view h).classify)
    (fun e he _ hh hle => hle.trans (steps.le_classify hh (hes e he))) hg le_rfl

theorem classify_run_le (hg : Inv g) {es : List RuleEdit} (hes : ∀ e ∈ es, e.isRemoval = true) :
    (view (afterEdits step g (es.map .rule)).1).classify ≤ (view g).classify :=
  steps.run_keeps (P := fun h => (view h).classify ≤ (view g).classify)
    (fun e he _ hh hle => (steps.classify_le hh (hes e he)).trans hle) hg le_rfl

/-- A rule merged into a grammar raises its type to that of the rule. -/
theorem classify_merge (hg : Inv g) {r : Word × List Word} (hhead : Word.IsNormal r.1)
    (hbodies : ∀ b ∈ r.2, Word.IsNormal b) :
    (view (step g (.rule (.merge r))).1).classify =
      max (view g).classify ((view g).only r).classify := by
  have hshows := steps.shows (steps.inv (.merge r) hg)
  rw [(steps.merge hg hhead hbodies).2] at hshows
  refine eq_of_forall_ge_iff fun t => ?_
  rw [max_le_iff, View.classify_le_iff hshows, View.classify_le_iff (steps.shows hg),
    View.classify_only_le_iff fun b hb => (hbodies b hb).ne_nil, steps.start_eq, steps.terminals_eq]
  simp only [Deed.mem_keys_apply, Deed.hasBody_apply (steps.shows hg).wellFormed]
  constructor
  · rintro ⟨hkeys, hall⟩
    refine ⟨⟨fun h hh => hkeys h (.inr ⟨hh, Deed.noConfusion⟩),
      fun h b hb => hall h b (.inr ⟨hb, by simp⟩)⟩, hkeys r.1 (.inl ⟨r.2, rfl⟩),
      fun b hb => hall r.1 b (.inl ⟨r.2, rfl, hb⟩)⟩
  · rintro ⟨⟨hkeys, hall⟩, hrhead, hrbodies⟩
    constructor
    · rintro h (⟨bs, heq⟩ | ⟨hh, -⟩)
      · cases heq
        exact hrhead
      · exact hkeys h hh
    · rintro h b (⟨bs, heq, hb⟩ | ⟨hb, -⟩)
      · cases heq
        exact hrbodies b hb
      · exact hall h b hb

/-- Rules merged one after the other raise it to the greatest of theirs, and none fails. -/
theorem classify_merges {rs : List (Word × List Word)}
    (hrs : ∀ r ∈ rs, Word.IsNormal r.1 ∧ ∀ b ∈ r.2, Word.IsNormal b) : ∀ {g : G}, Inv g →
      (∀ err ∈ (afterEdits step g (rs.map fun r => .rule (.merge r))).2, err = none) ∧
      (view (afterEdits step g (rs.map fun r => .rule (.merge r))).1).classify =
        max (view g).classify
          ((rs.map fun r => ((view g).only r).classify).foldr max .regular) := by
  induction rs with
  | nil =>
    intro g _
    refine ⟨List.forall_mem_nil _, ?_⟩
    exact (max_eq_left (GrammarType.regular_le _)).symm
  | cons r rs ih =>
    intro g hg
    obtain ⟨⟨hhead, hbodies⟩, hrs⟩ := List.forall_mem_cons.1 hrs
    obtain ⟨herrs, htype⟩ := ih hrs (steps.inv (.merge r) hg)
    refine ⟨List.forall_mem_cons.2 ⟨(steps.merge hg hhead hbodies).1, herrs⟩, ?_⟩
    simp only [List.map_cons, List.foldr_cons, afterEdits]
    rw [htype, steps.classify_merge hg hhead hbodies, max_assoc]
    simp only [steps.only_eq]

end RuleSteps

section

variable [Host]

/-! ## Grammars that a caller can come by -/

/-- What a reader sees of a grammar that a caller can come by, of either kind. -/
inductive View.Reachable : View → Prop where
  | editable {g : Grammar} : g.Reachable → Reachable g.view
  | frozen {p : FrozenGrammar} : p.Reachable → Reachable p.view

namespace View

variable {v w : View} {r : Word × List Word}

theorem Reachable.shows (h : v.Reachable) : ∃ m, v.Shows m := by
  cases h with
  | editable hg => exact ⟨_, Grammar.ruleSteps.shows hg.wellFormed⟩
  | frozen hp => exact ⟨_, FrozenGrammar.ruleSteps.shows hp.wellFormed⟩

theorem Reachable.canonical (h : v.Reachable) : v.Canonical := by
  cases h with
  | editable hg => exact hg.canonical
  | frozen hp => exact hp.canonical

theorem Reachable.only (h : v.Reachable) (hr : r ∈ v.rules) : (v.only r).Reachable := by
  obtain ⟨m, hm⟩ := h.shows
  obtain ⟨hhead, hbodies⟩ := hm.normal hr
  have hterminals : OrderedSet.ofList v.terminals = ⟨v.terminals⟩ :=
    OrderedSet.ofList_toList (s := ⟨v.terminals⟩) h.canonical.terminals
  have hnonterminals : OrderedSet.ofList v.nonterminals = ⟨v.nonterminals⟩ :=
    OrderedSet.ofList_toList (s := ⟨v.nonterminals⟩) h.canonical.nonterminals
  have hrelation : (Relation.empty.apply (.merge r)).1 = ⟨⟨[(r.1, ⟨r.2⟩)]⟩⟩ := by
    rw [Relation.apply_merge (r := .empty) .empty hhead hbodies.normal]
    exact Relation.addProduction_new hhead List.not_mem_nil hbodies
  have hempty : Relation.Reachable Relation.empty := .build (v := .null) rfl
  have hgrammar := Grammar.Reachable.ofParts v.id v.start v.name v.type (.ofList v.terminals)
    (.ofList v.nonterminals) (.edit (.merge r) hempty)
  rw [hterminals, hnonterminals, hrelation] at hgrammar
  exact .editable hgrammar

def merges (v : View) : List GrammarEdit := v.rules.map fun r => .rule (.merge r)

end View

structure TypeIsJoin {G ε : Type} (view : G → View) (step : G → GrammarEdit → G × Option ε)
    (g : G) : Prop where
  /-- Merging in the rules of another grammar, of whatever kind, joins the types. -/
  merged : ∀ v : View, v.Reachable → v.start = (view g).start →
    (∀ s, s ∈ v.terminals ↔ s ∈ (view g).terminals) →
    (∀ err ∈ (afterEdits step g v.merges).2, err = none) ∧
      (view (afterEdits step g v.merges).1).classify = max (view g).classify v.classify
  /-- The type is the greatest of the grammars with one of the rules. -/
  single : (∀ r ∈ (view g).rules, ((view g).only r).Reachable) ∧
    (view g).classify =
      ((view g).rules.map fun r => ((view g).only r).classify).foldr max .regular
  added : ∀ es : List RuleEdit, (∀ e ∈ es, e.isRemoval = false) →
    (view g).classify ≤ (view (afterEdits step g (es.map .rule)).1).classify
  removed : ∀ es : List RuleEdit, (∀ e ∈ es, e.isRemoval = true) →
    (view (afterEdits step g (es.map .rule)).1).classify ≤ (view g).classify

theorem RuleSteps.typeIsJoin {G ε : Type} {view : G → View} {rules : G → OrderedMap Word Bodies}
    {step : G → GrammarEdit → G × Option ε} {Inv : G → Prop}
    (steps : RuleSteps view rules step Inv) {g : G} (hg : Inv g) (hview : (view g).Reachable) :
    TypeIsJoin view step g where
  merged v hv hstart hterminals := by
    obtain ⟨m, hm⟩ := hv.shows
    have hrs : ∀ r ∈ v.rules, Word.IsNormal r.1 ∧ ∀ b ∈ r.2, Word.IsNormal b := fun r hr =>
      ⟨(hm.normal hr).1, (hm.normal hr).2.normal⟩
    obtain ⟨herrs, htype⟩ := steps.classify_merges hrs hg
    have honly : v.rules.map (fun r => ((view g).only r).classify) =
        v.rules.map fun r => (v.only r).classify := by
      refine List.map_congr_left fun r hr => ?_
      exact (View.classify_only_congr hstart hterminals (hm.hasFullBodies r hr)).symm
    rw [honly, ← View.classify_eq_foldr hm.hasFullBodies] at htype
    exact ⟨herrs, htype⟩
  single := ⟨fun _ hr => hview.only hr, View.classify_eq_foldr (steps.shows hg).hasFullBodies⟩
  added _ hes := steps.le_classify_run hg hes
  removed _ hes := steps.classify_run_le hg hes

/-- **Join.** The type of every grammar that a caller can come by is a join over its rules. -/
theorem type_is_join :
    (∀ g : Grammar, g.Reachable → TypeIsJoin Grammar.view Grammar.apply g) ∧
      ∀ p : FrozenGrammar, p.Reachable → TypeIsJoin FrozenGrammar.view FrozenGrammar.step p := by
  constructor
  · exact fun g hg => Grammar.ruleSteps.typeIsJoin hg.wellFormed (.editable hg)
  · exact fun p hp => FrozenGrammar.ruleSteps.typeIsJoin hp.wellFormed (.frozen hp)

end

section

open scoped Host

/-- A head with a right linear and an empty body, and one without bodies. -/
def linearRules : Grammar :=
  [.addTerminal (.text "a"),
    .rule (.addProduction (.text "A") (.list [.list [.text "a", .text "A"], .list []])),
    .rule (.addHead (.text "T"))].foldl (fun g e => (g.apply e).1) (.new "g" ⟨"S"⟩ "")

/-- The first of these heads, with one body that is not right linear, and the empty head. -/
def nestedRules : Grammar :=
  [.addTerminal (.text "a"),
    .rule (.addProduction (.text "A") (.list [.list [.text "a", .text "A", .text "a"],
      .list [.text "a", .text "A"]])),
    .rule (.addHead (.list []))].foldl (fun g e => (g.apply e).1) (.new "h" ⟨"S"⟩ "")

def faultyUnnesting : RuleEdit :=
  .removeProduction (.text "A") (.list [.list [.text "a", .text "A", .text "a"], .null])

theorem type_linearRules_merged :
    linearRules.view.classify = .regular ∧ nestedRules.view.classify = .contextFree ∧
      (afterEdits Grammar.apply linearRules nestedRules.freeze.view.merges).1.view.rules =
        [([⟨"A"⟩], [[⟨"a"⟩, ⟨"A"⟩], Word.empty, [⟨"a"⟩, ⟨"A"⟩, ⟨"a"⟩]]), ([⟨"T"⟩], []),
          (Word.empty, [])] ∧
      (afterEdits Grammar.apply linearRules nestedRules.freeze.view.merges).1.view.classify =
        .contextFree ∧
      (afterEdits FrozenGrammar.step nestedRules.freeze linearRules.view.merges).1.view.classify =
        .contextFree ∧
      (afterEdits Grammar.apply nestedRules [.rule faultyUnnesting]).2 =
        [some (.argument (.notIterable .null))] ∧
      (afterEdits Grammar.apply nestedRules [.rule faultyUnnesting]).1.view.classify ≤
        .contextFree := by
  have hlinear : linearRules.Reachable := .edit _ (.edit _ (.edit _ (.new "g" ⟨"S"⟩ "")))
  have hnested : nestedRules.Reachable := .edit _ (.edit _ (.edit _ (.new "h" ⟨"S"⟩ "")))
  have hregular : linearRules.view.classify = .regular := by decide +kernel
  have hcontextFree : nestedRules.view.classify = .contextFree := by decide +kernel
  have hfrozen : nestedRules.freeze.view = nestedRules.view :=
    Grammar.view_freeze hnested.wellFormed
  obtain ⟨-, hmerged⟩ := (type_is_join.1 linearRules hlinear).merged nestedRules.freeze.view
    (.frozen (.freeze hnested)) rfl fun s => Iff.rfl
  obtain ⟨-, hmerged'⟩ := (type_is_join.2 nestedRules.freeze (.freeze hnested)).merged
    linearRules.view (.editable hlinear) rfl fun s => Iff.rfl
  have hremoved := (type_is_join.1 nestedRules hnested).removed [faultyUnnesting] (by decide)
  rw [hfrozen, hregular, hcontextFree] at hmerged hmerged'
  rw [hcontextFree] at hremoved
  refine ⟨hregular, hcontextFree, by decide +kernel, ?_, hmerged', by decide +kernel, hremoved⟩
  rw [hfrozen]
  exact hmerged

end

end PhraseGrammar
