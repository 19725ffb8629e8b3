import PhraseGrammar.Proofs.Reachable

/-!
# PhraseGrammar.Proofs.Lockstep

Editing a grammar in place and editing its frozen form lead to the same contents.

* `GrammarEdit.isRemoval`: the edits that take rules away. In place they miss a head that is not
  there; on a frozen grammar they then keep everything.
* `Grammar.Follows`: the edit in place succeeds, or is a removal that misses its head.
* `Grammar.states`, `FrozenGrammar.states`: the grammars after each edit of a run.

`Grammar.freeze_apply` is one step: freezing after the edit in place is editing the frozen grammar.
`Grammar.lockstep` is the whole run.
-/

namespace PhraseGrammar

theorem Relation.get?_addHead (r : Relation) (head : Word) :
    (r.addHead head).rules.get? (Word.normalize head) =
      some ((r.rules.get? (Word.normalize head)).getD .empty) := by
  unfold addHead
  rw [OrderedMap.get?_insertNew]
  by_cases h : Word.normalize head ∈ r.rules.keys
  · obtain ⟨s, hs⟩ := Option.isSome_iff_exists.1 (OrderedMap.get?_isSome_iff.2 h)
    simp [h, hs]
  · simp [h, OrderedMap.get?_eq_none_iff.2 h]

section

variable [Host]

def RuleEdit.isRemoval : RuleEdit → Bool
  | .removeHead _ | .removeBody _ _ | .removeProduction _ _ => true
  | _ => false

def GrammarEdit.isRemoval : GrammarEdit → Bool
  | .rule e => e.isRemoval
  | _ => false

/-- The edit in place succeeds, or it is a removal that misses its head. -/
def Grammar.Follows (g : Grammar) (e : GrammarEdit) : Prop :=
  (g.apply e).2 = none ∨ e.isRemoval = true ∧ ∃ head, (g.apply e).2 = some (.missingHead head)

/-- Each edit of a run does so, in the grammar that the edits before it leave. -/
def Grammar.FollowsAll : Grammar → List GrammarEdit → Prop
  | _, [] => True
  | g, e :: es => g.Follows e ∧ (g.apply e).1.FollowsAll es

def Grammar.states : Grammar → List GrammarEdit → List Grammar
  | _, [] => []
  | g, e :: es => (g.apply e).1 :: (g.apply e).1.states es

/-- The frozen grammars after each of some edits; the first bad argument is the error. -/
def FrozenGrammar.states : FrozenGrammar → List GrammarEdit →
    Except ArgumentError (List FrozenGrammar)
  | _, [] => .ok []
  | p, e :: es =>
    match p.apply e with
    | .error err => .error err
    | .ok u =>
      match (u.on p).states es with
      | .error err => .error err
      | .ok ps => .ok (u.on p :: ps)

/-! ## Arguments of edits in place -/

/-- The words that values stand for, up to the first that is no word, and what is wrong with that
one. -/
def Value.readWords : List Value → List Word × Option ArgumentError
  | [] => ([], none)
  | v :: vs =>
    match v.toWord with
    | .error e => ([], some e)
    | .ok w => (w :: (readWords vs).1, (readWords vs).2)

theorem Value.toWords_eq_ok_iff {vs : List Value} {ws : List Word} :
    toWords vs = .ok ws ↔ readWords vs = (ws, none) := by
  induction vs generalizing ws with
  | nil => simp [toWords, readWords, eq_comm]
  | cons v vs ih =>
    simp only [toWords, readWords]
    cases v.toWord with
    | error e => simp
    | ok w =>
      cases hvs : toWords vs with
      | error e =>
        simp only [reduceCtorEq, Prod.mk.injEq, false_iff]
        rintro ⟨-, hnone⟩
        have hrest := ih.2 (Prod.ext rfl hnone)
        rw [hvs] at hrest
        cases hrest
      | ok ws' =>
        rw [ih.1 hvs]
        simp

namespace Bodies

theorem addEach_eq (s : Bodies) (vs : List Value) :
    s.addEach vs = (OrderedSet.insertAll s (Value.readWords vs).1, (Value.readWords vs).2) := by
  induction vs generalizing s with
  | nil => rfl
  | cons v vs ih =>
    simp only [addEach, Value.readWords]
    cases v.toWord with
    | error e => rfl
    | ok w => exact ih (OrderedSet.insert s w)

theorem removeEach_eq (s : Bodies) (vs : List Value) :
    s.removeEach vs = (OrderedSet.eraseAll s (Value.readWords vs).1, (Value.readWords vs).2) := by
  induction vs generalizing s with
  | nil => rfl
  | cons v vs ih =>
    simp only [removeEach, Value.readWords]
    cases v.toWord with
    | error e => rfl
    | ok w => exact ih (OrderedSet.erase s w)

theorem addEach_ok {s : Bodies} {vs : List Value} (h : (s.addEach vs).2 = none) :
    ∃ ws, Value.toWords vs = .ok ws ∧ (s.addEach vs).1 = OrderedSet.insertAll s ws := by
  rw [addEach_eq] at h ⊢
  exact ⟨_, Value.toWords_eq_ok_iff.2 (Prod.ext rfl h), rfl⟩

theorem removeEach_ok {s : Bodies} {vs : List Value} (h : (s.removeEach vs).2 = none) :
    ∃ ws, Value.toWords vs = .ok ws ∧ (s.removeEach vs).1 = OrderedSet.eraseAll s ws := by
  rw [removeEach_eq] at h ⊢
  exact ⟨_, Value.toWords_eq_ok_iff.2 (Prod.ext rfl h), rfl⟩

end Bodies

namespace Relation

variable {r : Relation}

theorem withHead_ok {head : Value} {edit : Word → Bodies → Relation × Option EditError}
    (h : (r.withHead head edit).2 = none) :
    ∃ k s, head.toWord = .ok k ∧ r.rules.get? k = some s ∧ (edit k s).2 = none ∧
      r.withHead head edit = edit k s := by
  unfold withHead at h ⊢
  cases hk : head.toWord with
  | error e => rw [hk] at h; cases h
  | ok k =>
    rw [hk] at h
    cases hs : r.rules.get? k with
    | none => simp only [hs] at h; cases h
    | some s =>
      simp only [hs] at h
      exact ⟨k, s, rfl, hs, h, by simp only [hs]⟩

theorem withHead_missing {head : Value} {edit : Word → Bodies → Relation × Option EditError}
    (hedit : ∀ k s j, (edit k s).2 ≠ some (.missingHead j)) {j : Word}
    (h : (r.withHead head edit).2 = some (.missingHead j)) :
    head.toWord = .ok j ∧ r.rules.get? j = none ∧ (r.withHead head edit).1 = r := by
  unfold withHead at h ⊢
  cases hk : head.toWord with
  | error e => rw [hk] at h; cases h
  | ok k =>
    rw [hk] at h
    cases hs : r.rules.get? k with
    | none =>
      simp only [hs] at h
      cases h
      exact ⟨rfl, hs, by simp only [hs]⟩
    | some s =>
      simp only [hs] at h
      exact absurd h (hedit k s j)

theorem withBody_ok {head : Word} {body : Value} {change : Word → Bodies}
    (h : (r.withBody head body change).2 = none) :
    ∃ w, body.toWord = .ok w ∧ (r.withBody head body change).1 = ⟨r.rules.set head (change w)⟩ := by
  unfold withBody at h ⊢
  cases hw : body.toWord with
  | error e => rw [hw] at h; cases h
  | ok w => exact ⟨w, rfl, rfl⟩

theorem withBody_notMissing (r : Relation) (head : Word) (body : Value) (change : Word → Bodies)
    (j : Word) : (r.withBody head body change).2 ≠ some (.missingHead j) := by
  unfold withBody
  cases body.toWord with
  | error e => intro h; cases h
  | ok w => intro h; cases h

theorem removeProductionOf_ok {head : Word} {old : Bodies} {bodies : Value}
    (h : (r.removeProductionOf head old bodies).2 = none) :
    ∃ vs ws, bodies.elements = .ok vs ∧ Value.toWords vs = .ok ws ∧
      (r.removeProductionOf head old bodies).1 =
        ⟨r.rules.set head (OrderedSet.eraseAll old ws)⟩ := by
  unfold removeProductionOf at h ⊢
  cases hvs : bodies.elements with
  | error e => rw [hvs] at h; cases h
  | ok vs =>
    rw [hvs] at h
    obtain ⟨ws, hws, hs⟩ := Bodies.removeEach_ok (Option.map_eq_none_iff.1 h)
    exact ⟨vs, ws, rfl, hws, by simp only [hs]⟩

theorem removeProductionOf_notMissing (r : Relation) (head : Word) (old : Bodies) (bodies : Value)
    (j : Word) : (r.removeProductionOf head old bodies).2 ≠ some (.missingHead j) := by
  unfold removeProductionOf
  cases bodies.elements with
  | error e => intro h; cases h
  | ok vs =>
    intro h
    obtain ⟨e, _, he⟩ := Option.map_eq_some_iff.1 h
    cases he

theorem addProductionOf_ok (hw : WellFormedRules r.rules) {head : Word}
    (hhead : Word.IsNormal head) {bodies : Value} (h : (r.addProductionOf head bodies).2 = none) :
    ∃ vs ws, bodies.elements = .ok vs ∧ Value.toWords vs = .ok ws ∧
      (r.addProductionOf head bodies).1 = r.addProduction head ws := by
  unfold addProductionOf at h ⊢
  cases hvs : bodies.elements with
  | error e => rw [hvs] at h; cases h
  | ok vs =>
    rw [hvs] at h
    obtain ⟨ws, hws, hs⟩ := Bodies.addEach_ok (Option.map_eq_none_iff.1 h)
    refine ⟨vs, ws, rfl, hws, ?_⟩
    have hnormal : Word.normalize head = head := hhead
    have hget := get?_addHead r head
    rw [hnormal] at hget
    rw [hget, Option.getD_some] at hs
    have hmodify := OrderedMap.modify_eq_set (wellFormed_addHead hw head).nodup hget
      fun s => OrderedSet.insertAll s ws
    unfold addProduction
    rw [hnormal, Word.map_normalize (Value.isNormal_of_toWords hws), hmodify]
    simp only [hget, hs, Option.getD_some]

end Relation

/-! ## One step on rules -/

namespace FrozenRules

variable {r : Relation}

/-- Where an edit in place succeeds, the edit of the frozen rules has the same result. -/
theorem apply_of_ok (h : WellFormedRules r.rules) {e : RuleEdit} (hok : (r.apply e).2 = none) :
    ∃ u, FrozenRules.apply ⟨r.rules⟩ e = .ok u ∧ u.on ⟨r.rules⟩ = ⟨(r.apply e).1.rules⟩ := by
  cases e with
  | addHead head =>
    simp only [Relation.apply] at hok ⊢
    cases hk : head.toWord with
    | error e => rw [hk] at hok; cases hok
    | ok k =>
      refine ⟨FrozenRules.addHead ⟨r.rules⟩ k, ?_, on_addHead ⟨r.rules⟩ k⟩
      simp only [apply, hk, bind, Except.bind, pure, Except.pure]
  | removeHead head =>
    obtain ⟨k, s, hk, hs, -, heq⟩ := Relation.withHead_ok hok
    have hnormal : Word.normalize k = k := Value.isNormal_of_toWord hk
    refine ⟨FrozenRules.removeHead ⟨r.rules⟩ k, ?_, ?_⟩
    · simp only [apply, hk, bind, Except.bind, pure, Except.pure]
    · simp only [Relation.apply]
      rw [heq, on_removeHead, hnormal]
  | addBody head body =>
    obtain ⟨k, s, hk, hs, hedit, heq⟩ := Relation.withHead_ok hok
    obtain ⟨w, hw, hr⟩ := Relation.withBody_ok hedit
    have hnormal : Word.normalize k = k := Value.isNormal_of_toWord hk
    have hwords : [w].map Word.normalize = [w] :=
      Word.map_normalize (by simpa using Value.isNormal_of_toWord hw)
    refine ⟨FrozenRules.addProduction ⟨r.rules⟩ k [w], ?_, ?_⟩
    · simp only [apply, hk, hw, bind, Except.bind, pure, Except.pure]
    · have hget : r.rules.get? (Word.normalize k) = some s := by rw [hnormal, hs]
      simp only [Relation.apply]
      rw [heq, hr, on_addProduction h, Relation.addProduction_old h hget, hnormal, hwords]
      rfl
  | removeBody head body =>
    obtain ⟨k, s, hk, hs, hedit, heq⟩ := Relation.withHead_ok hok
    obtain ⟨w, hw, hr⟩ := Relation.withBody_ok hedit
    have hnormal : Word.normalize k = k := Value.isNormal_of_toWord hk
    have hwords : [w].map Word.normalize = [w] :=
      Word.map_normalize (by simpa using Value.isNormal_of_toWord hw)
    have hmem : k ∈ r.rules.keys := OrderedMap.get?_isSome_iff.1 (by rw [hs]; rfl)
    refine ⟨FrozenRules.removeProduction ⟨r.rules⟩ k [w], ?_, ?_⟩
    · simp only [apply, hk, hw, OrderedMap.contains_iff.2 hmem, bind, Except.bind, pure,
        Except.pure, if_true]
    · have hget : r.rules.get? (Word.normalize k) = some s := by rw [hnormal, hs]
      simp only [Relation.apply]
      rw [heq, hr, on_removeProduction (r := ⟨r.rules⟩) h hget, hnormal, hwords]
      rfl
  | addProduction head bodies =>
    simp only [Relation.apply] at hok ⊢
    cases hk : head.toWord with
    | error e => rw [hk] at hok; cases hok
    | ok k =>
      rw [hk] at hok
      obtain ⟨vs, ws, hvs, hws, hr⟩ :=
        Relation.addProductionOf_ok h (Value.isNormal_of_toWord hk) hok
      refine ⟨FrozenRules.addProduction ⟨r.rules⟩ k ws, ?_, ?_⟩
      · simp only [apply, hk, hvs, hws, bind, Except.bind, pure, Except.pure]
      · rw [on_addProduction h]
        simp only [hr]
  | removeProduction head bodies =>
    obtain ⟨k, s, hk, hs, hedit, heq⟩ := Relation.withHead_ok hok
    obtain ⟨vs, ws, hvs, hws, hr⟩ := Relation.removeProductionOf_ok hedit
    have hnormal : Word.normalize k = k := Value.isNormal_of_toWord hk
    have hmem : k ∈ r.rules.keys := OrderedMap.get?_isSome_iff.1 (by rw [hs]; rfl)
    refine ⟨FrozenRules.removeProduction ⟨r.rules⟩ k ws, ?_, ?_⟩
    · simp only [apply, hk, hvs, hws, OrderedMap.contains_iff.2 hmem, bind, Except.bind, pure,
        Except.pure, if_true]
    · have hget : r.rules.get? (Word.normalize k) = some s := by rw [hnormal, hs]
      simp only [Relation.apply]
      rw [heq, hr, on_removeProduction (r := ⟨r.rules⟩) h hget, hnormal,
        Word.map_normalize (Value.isNormal_of_toWords hws)]

theorem apply_of_missing {e : RuleEdit} (he : e.isRemoval = true) {j : Word}
    (h : (r.apply e).2 = some (.missingHead j)) :
    (r.apply e).1 = r ∧ FrozenRules.apply ⟨r.rules⟩ e = .ok .kept := by
  have hcontains : r.rules.get? j = none → r.rules.contains j = false := by
    intro hj
    rw [Bool.eq_false_iff]
    exact fun c => OrderedMap.get?_eq_none_iff.1 hj (OrderedMap.contains_iff.1 c)
  cases e with
  | addHead head => cases he
  | addBody head body => cases he
  | addProduction head bodies => cases he
  | removeHead head =>
    obtain ⟨hj, hnone, hr⟩ := Relation.withHead_missing (fun k s j => by simp) h
    have hnormal : Word.normalize j = j := Value.isNormal_of_toWord hj
    refine ⟨hr, ?_⟩
    simp only [apply, hj, bind, Except.bind, pure, Except.pure, removeHead, hnormal,
      hcontains hnone, Bool.false_eq_true, if_false]
  | removeBody head body =>
    obtain ⟨hj, hnone, hr⟩ :=
      Relation.withHead_missing (fun k s j => Relation.withBody_notMissing r k body _ j) h
    refine ⟨hr, ?_⟩
    simp only [apply, hj, bind, Except.bind, pure, Except.pure, hcontains hnone,
      Bool.false_eq_true, if_false]
  | removeProduction head bodies =>
    obtain ⟨hj, hnone, hr⟩ :=
      Relation.withHead_missing (fun k s j => Relation.removeProductionOf_notMissing r k s bodies j)
        h
    refine ⟨hr, ?_⟩
    simp only [apply, hj, bind, Except.bind, pure, Except.pure, hcontains hnone,
      Bool.false_eq_true, if_false]

end FrozenRules

/-! ## One step and whole runs on grammars -/

namespace Grammar

variable {g : Grammar}

theorem withSymbol_ok {symbol : Value} {edit : Symbol → Grammar}
    (h : (g.withSymbol symbol edit).2 = none) :
    ∃ s, symbol.toSymbol = .ok s ∧ (g.withSymbol symbol edit).1 = edit s := by
  unfold withSymbol at h ⊢
  cases hs : symbol.toSymbol with
  | error e =>
    rw [hs] at h
    cases h
  | ok s => exact ⟨s, rfl, rfl⟩

/-- Where an edit in place succeeds, freezing its result is editing the frozen grammar. -/
theorem freeze_apply (h : g.WellFormed) {e : GrammarEdit} (hok : (g.apply e).2 = none) :
    ∃ u, g.freeze.apply e = .ok u ∧ u.on g.freeze = (g.apply e).1.freeze := by
  have hafter := freeze_eq (wellFormed_apply h e)
  rw [hafter, freeze_eq h]
  cases e with
  | addTerminal symbol =>
    obtain ⟨s, hs, hg⟩ := withSymbol_ok hok
    refine ⟨_, FrozenGrammar.withSymbol_ok hs _, ?_⟩
    rw [FrozenGrammar.on_terminals, OrderedSet.on_add?, apply, hg]
  | removeTerminal symbol =>
    obtain ⟨s, hs, hg⟩ := withSymbol_ok hok
    refine ⟨_, FrozenGrammar.withSymbol_ok hs _, ?_⟩
    rw [FrozenGrammar.on_terminals, OrderedSet.on_remove? h.terminals, apply, hg]
  | addNonterminal symbol =>
    obtain ⟨s, hs, hg⟩ := withSymbol_ok hok
    refine ⟨_, FrozenGrammar.withSymbol_ok hs _, ?_⟩
    rw [FrozenGrammar.on_nonterminals, OrderedSet.on_add?, apply, hg]
  | removeNonterminal symbol =>
    obtain ⟨s, hs, hg⟩ := withSymbol_ok hok
    refine ⟨_, FrozenGrammar.withSymbol_ok hs _, ?_⟩
    rw [FrozenGrammar.on_nonterminals, OrderedSet.on_remove? h.nonterminals, apply, hg]
  | rule e =>
    obtain ⟨u, hu, hon⟩ := FrozenRules.apply_of_ok h.rules hok
    simp only [FrozenGrammar.apply, hu]
    have hrules := FrozenGrammar.on_rules
      ⟨g.id, g.start, g.name, g.type, g.terminals, g.nonterminals, ⟨g.relation.rules⟩⟩ u
    rw [hon] at hrules
    exact ⟨_, rfl, hrules⟩
  | setName name =>
    refine ⟨_, rfl, ?_⟩
    simp only [apply]
    split
    · rename_i hname
      rw [← hname]
      rfl
    · rfl
  | setStart symbol =>
    obtain ⟨s, hs, hg⟩ := withSymbol_ok hok
    refine ⟨_, FrozenGrammar.withSymbol_ok hs _, ?_⟩
    rw [apply, hg]
    unfold FrozenGrammar.setStart
    split
    · rename_i hstart
      rw [← hstart]
      rfl
    · rfl
  | setType type => exact ⟨_, rfl, FrozenGrammar.on_setType _ type⟩
  | reclassify => exact ⟨_, rfl, FrozenGrammar.on_setType _ _⟩

theorem freeze_apply_missing (h : g.WellFormed) {e : GrammarEdit} (he : e.isRemoval = true)
    {head : Word} (hm : (g.apply e).2 = some (.missingHead head)) :
    (g.apply e).1 = g ∧ g.freeze.apply e = .ok .kept := by
  cases e with
  | rule e =>
    obtain ⟨hr, hu⟩ := FrozenRules.apply_of_missing he hm
    refine ⟨by simp only [apply, hr], ?_⟩
    rw [freeze_eq h]
    simp only [FrozenGrammar.apply, hu, Update.map]
  | _ => cases he

/-- One step of a run: frozen, the grammar after the edit is the frozen grammar after the edit. -/
theorem freeze_step (h : g.WellFormed) {e : GrammarEdit} (hf : g.Follows e) :
    ∃ u, g.freeze.apply e = .ok u ∧ u.on g.freeze = (g.apply e).1.freeze := by
  rcases hf with hok | ⟨he, head, hm⟩
  · exact freeze_apply h hok
  · obtain ⟨hsame, hkept⟩ := freeze_apply_missing h he hm
    exact ⟨.kept, hkept, by rw [hsame]; rfl⟩

theorem wellFormed_states (h : g.WellFormed) :
    ∀ {es : List GrammarEdit}, ∀ g' ∈ g.states es, g'.WellFormed := by
  intro es
  induction es generalizing g with
  | nil => intro g' hg'; cases hg'
  | cons e es ih =>
    intro g' hg'
    rcases List.mem_cons.1 hg' with rfl | hg'
    · exact wellFormed_apply h e
    · exact ih (wellFormed_apply h e) g' hg'

theorem states_freeze (h : g.WellFormed) :
    ∀ {es : List GrammarEdit}, g.FollowsAll es →
      g.freeze.states es = .ok ((g.states es).map freeze) := by
  intro es
  induction es generalizing g with
  | nil => intro _; rfl
  | cons e es ih =>
    intro hf
    obtain ⟨u, hu, hon⟩ := freeze_step h hf.1
    have hrest := ih (wellFormed_apply h e) hf.2
    simp only [FrozenGrammar.states, hu, hon, hrest]
    rfl

/-- **Lockstep.** Whatever edits are made of a grammar in place, as long as none fails but a
removal that misses its head, the same edits of the frozen grammar succeed, and after each of them
the frozen grammar is the grammar frozen. A removal that misses its head changes neither. -/
theorem lockstep (h : g.Reachable) (es : List GrammarEdit) (hf : g.FollowsAll es) :
    g.freeze.states es = .ok ((g.states es).map freeze) ∧
      ∀ g' ∈ g :: g.states es, ∀ e : GrammarEdit, e.isRemoval = true →
        ∀ head, (g'.apply e).2 = some (.missingHead head) →
          (g'.apply e).1 = g' ∧ g'.freeze.apply e = .ok .kept := by
  refine ⟨states_freeze h.wellFormed hf, ?_⟩
  intro g' hg' e he head hm
  rcases List.mem_cons.1 hg' with rfl | hg'
  · exact freeze_apply_missing h.wellFormed he hm
  · exact freeze_apply_missing (wellFormed_states h.wellFormed g' hg') he hm

end Grammar

end

namespace Grammar

/-- A run that takes a body away and brings it back, after removing a head that is not there. -/
def reinsertion : List GrammarEdit := [
  .rule (.removeHead (.text "B")),
  .rule (.addProduction (.text "A") (.list [.text "a", .list [], .text "b"])),
  .rule (.removeBody (.text "A") (.text "a")),
  .addTerminal (.text "b"),
  .rule (.addBody (.text "A") (.text "a")),
  .setName "again",
  .reclassify]

section

open scoped Host

theorem lockstep_reinsertion :
    (new "g" ⟨"S"⟩ "").Reachable ∧ (new "g" ⟨"S"⟩ "").FollowsAll reinsertion ∧
      (new "g" ⟨"S"⟩ "").freeze.states reinsertion =
        .ok (((new "g" ⟨"S"⟩ "").states reinsertion).map freeze) ∧
      (new "g" ⟨"S"⟩ "").freeze.apply (.rule (.removeHead (.text "B"))) = .ok .kept := by
  have hreach : (new "g" ⟨"S"⟩ "").Reachable := .new "g" ⟨"S"⟩ ""
  have hfollows : (new "g" ⟨"S"⟩ "").FollowsAll reinsertion :=
    ⟨.inr ⟨rfl, _, rfl⟩, .inl rfl, .inl rfl, .inl rfl, .inl rfl, .inl rfl, .inl rfl, trivial⟩
  obtain ⟨hstates, hmissing⟩ := lockstep hreach reinsertion hfollows
  exact ⟨hreach, hfollows, hstates,
    (hmissing _ (List.mem_cons_self ..) (.rule (.removeHead (.text "B"))) rfl _ rfl).2⟩

end

end Grammar

end PhraseGrammar
