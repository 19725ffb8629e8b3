import PhraseGrammar.Proofs.WellFormed
import PhraseGrammar.Record

/-!
# PhraseGrammar.Proofs.Rebuild

Building a grammar anew from what it lists gives the grammar back, with every order kept.

* `OrderedSet.on_addAll?`, `OrderedSet.on_removeAll?`: an edit of a frozen set, seen from outside,
  is the edit in place.
* `FrozenRules.on_addProduction`: likewise for rules, hence `FrozenRules.ofPairs_eq`.
* `Relation.ofPairs_items`: well-formed rules are the rules of their items.
* `Grammar.freeze_eq`, `FrozenGrammar.thaw_eq`, `Grammar.copy_eq`: the conversions keep every part.
-/

namespace PhraseGrammar

namespace OrderedSet

variable {α : Type} [DecidableEq α]

theorem on_add? (s : OrderedSet α) (a : α) : (s.add? a).on s = s.insert a := by
  unfold add? insert
  split <;> rfl

theorem on_addAll? (s : OrderedSet α) (as : List α) : (s.addAll? as).on s = s.insertAll as := by
  induction as generalizing s with
  | nil => rfl
  | cons a as ih =>
    rw [insertAll_cons, ← on_add?]
    simp only [addAll?]
    cases s.add? a with
    | kept => exact ih s
    | changed t => exact ih t

theorem on_remove? {s : OrderedSet α} (h : s.toList.Nodup) (a : α) :
    (s.remove? a).on s = s.erase a := by
  unfold remove? erase
  by_cases ha : a ∈ s.toList
  · rw [if_pos (contains_iff.2 ha)]
    simp only [Update.on, mk.injEq]
    rw [h.erase_eq_filter a]
  · rw [if_neg fun c => ha (contains_iff.1 c), List.erase_of_not_mem ha]
    rfl

theorem on_removeAll? {s : OrderedSet α} (h : s.toList.Nodup) (as : List α) :
    (s.removeAll? as).on s = s.eraseAll as := by
  induction as generalizing s with
  | nil => rfl
  | cons a as ih =>
    have hstep : s.eraseAll (a :: as) = (s.erase a).eraseAll as := rfl
    have hnodup : ((s.remove? a).on s).toList.Nodup := by
      rw [on_remove? h]
      exact nodup_erase h a
    rw [hstep, ← on_remove? h]
    simp only [removeAll?]
    cases hu : s.remove? a with
    | kept => exact ih h
    | changed t =>
      rw [hu] at hnodup
      exact ih hnodup

end OrderedSet

namespace FrozenGrammar

theorem on_terminals (p : FrozenGrammar) (u : Update Alphabet) :
    (u.map fun terminals => { p with terminals }).on p =
      { p with terminals := u.on p.terminals } := by
  cases u <;> rfl

theorem on_nonterminals (p : FrozenGrammar) (u : Update Alphabet) :
    (u.map fun nonterminals => { p with nonterminals }).on p =
      { p with nonterminals := u.on p.nonterminals } := by
  cases u <;> rfl

theorem on_rules (p : FrozenGrammar) (u : Update FrozenRules) :
    (u.map fun rules => { p with rules }).on p = { p with rules := u.on p.rules } := by
  cases u <;> rfl

theorem on_setType (p : FrozenGrammar) (type : GrammarType) :
    (p.setType type).on p = { p with type } := by
  unfold setType
  split
  · rename_i h
    rw [← h]
    rfl
  · rfl

end FrozenGrammar

namespace Word

theorem map_normalize {ws : List Word} (h : ∀ w ∈ ws, IsNormal w) : ws.map normalize = ws :=
  (List.map_congr_left fun w hw => h w hw).trans (List.map_id ws)

end Word

namespace Relation

variable {r : Relation} {head : Word} {old : Bodies}

theorem addProduction_missing (h : r.rules.get? (Word.normalize head) = none)
    (bodies : List Word) :
    r.addProduction head bodies =
      ⟨r.rules.set (Word.normalize head)
        (OrderedSet.insertAll .empty (bodies.map Word.normalize))⟩ := by
  have hnew := OrderedMap.get?_eq_none_iff.1 h
  unfold addProduction addHead
  rw [OrderedMap.insertNew_of_notMem hnew, OrderedMap.modify_append_new hnew,
    OrderedMap.set_of_notMem hnew]

theorem addProduction_old (hw : WellFormedRules r.rules)
    (h : r.rules.get? (Word.normalize head) = some old) (bodies : List Word) :
    r.addProduction head bodies =
      ⟨r.rules.set (Word.normalize head)
        (OrderedSet.insertAll old (bodies.map Word.normalize))⟩ := by
  have hmem : Word.normalize head ∈ r.rules.keys :=
    OrderedMap.get?_isSome_iff.1 (by rw [h]; rfl)
  unfold addProduction addHead
  rw [OrderedMap.insertNew_of_mem hmem, OrderedMap.modify_eq_set hw.nodup h]

end Relation

namespace FrozenRules

theorem on_addHead (r : FrozenRules) (head : Word) :
    (r.addHead head).on r = ⟨((Relation.mk r.rules).addHead head).rules⟩ := by
  unfold addHead Relation.addHead
  by_cases h : Word.normalize head ∈ r.rules.keys
  · simp only [OrderedMap.contains_iff.2 h, if_true, Update.on, OrderedMap.insertNew_of_mem h]
  · simp only [if_neg fun c => h (OrderedMap.contains_iff.1 c), Update.on,
      OrderedMap.insertNew_of_notMem h, OrderedMap.set_of_notMem h]

/-- Merging bodies into a head of frozen rules is merging them in place. -/
theorem on_addProduction {r : FrozenRules} (h : WellFormedRules r.rules) (head : Word)
    (bodies : List Word) :
    (r.addProduction head bodies).on r =
      ⟨((Relation.mk r.rules).addProduction head bodies).rules⟩ := by
  cases hold : r.rules.get? (Word.normalize head) with
  | none =>
    rw [Relation.addProduction_missing hold, ← OrderedSet.on_addAll?]
    simp only [addProduction, hold]
    rfl
  | some old =>
    rw [Relation.addProduction_old h hold, ← OrderedSet.on_addAll?]
    simp only [addProduction, hold]
    cases OrderedSet.addAll? old (bodies.map Word.normalize) with
    | kept => simp only [Update.map, Update.on, OrderedMap.set_get? h.nodup hold]
    | changed new => rfl

theorem on_removeHead (r : FrozenRules) (head : Word) :
    (r.removeHead head).on r = ⟨r.rules.erase (Word.normalize head)⟩ := by
  unfold removeHead
  by_cases h : Word.normalize head ∈ r.rules.keys
  · simp only [OrderedMap.contains_iff.2 h, if_true, Update.on]
  · simp only [if_neg fun c => h (OrderedMap.contains_iff.1 c), Update.on,
      OrderedMap.erase_of_notMem h]

theorem on_removeProduction {r : FrozenRules} (h : WellFormedRules r.rules) {head : Word}
    {old : Bodies} (hold : r.rules.get? (Word.normalize head) = some old) (bodies : List Word) :
    (r.removeProduction head bodies).on r =
      ⟨r.rules.set (Word.normalize head)
        (OrderedSet.eraseAll old (bodies.map Word.normalize))⟩ := by
  simp only [removeProduction, hold]
  rw [← OrderedSet.on_removeAll? (h.of_get? hold).2.nodup]
  cases OrderedSet.removeAll? old (bodies.map Word.normalize) with
  | kept => simp only [Update.map, Update.on, OrderedMap.set_get? h.nodup hold]
  | changed new => rfl

theorem removeProduction_missing {r : FrozenRules} {head : Word}
    (h : r.rules.get? (Word.normalize head) = none) (bodies : List Word) :
    r.removeProduction head bodies = .kept := by
  simp only [removeProduction, h]

/-- Frozen rules built from pairs are the relation built from them. -/
theorem ofPairs_eq (pairs : List (Word × List Word)) :
    ofPairs pairs = ⟨(Relation.ofPairs pairs).rules⟩ := by
  have step : ∀ (ps : List (Word × List Word)) (r : FrozenRules), WellFormedRules r.rules →
      ps.foldl (fun r p => (r.addProduction p.1 p.2).on r) r =
        ⟨(ps.foldl (fun r p => r.addProduction p.1 p.2) (Relation.mk r.rules)).rules⟩ := by
    intro ps
    induction ps with
    | nil => intro r _; rfl
    | cons p ps ih =>
      intro r hr
      have hp : WellFormedRules ((Relation.mk r.rules).addProduction p.1 p.2).rules :=
        Relation.wellFormed_addProduction hr p.1 p.2
      simp only [List.foldl_cons]
      rw [on_addProduction hr]
      exact ih ⟨((Relation.mk r.rules).addProduction p.1 p.2).rules⟩ hp
  exact step pairs empty .empty

end FrozenRules

namespace Relation

/-- A head that is not there yet goes to the end, with its bodies as they are. -/
theorem addProduction_new {r : Relation} {head : Word} {bodies : List Word}
    (hhead : Word.IsNormal head) (hnew : head ∉ r.rules.keys)
    (hbodies : Bodies.WellFormed ⟨bodies⟩) :
    r.addProduction head bodies = ⟨⟨r.rules.entries ++ [(head, ⟨bodies⟩)]⟩⟩ := by
  have hnormal : Word.normalize head = head := hhead
  have hinsert : OrderedSet.insertAll OrderedSet.empty bodies = ⟨bodies⟩ :=
    OrderedSet.ofList_toList hbodies.nodup
  have hnone := OrderedMap.get?_eq_none_iff.2 hnew
  rw [← hnormal] at hnone
  rw [addProduction_missing hnone, hnormal, Word.map_normalize hbodies.normal, hinsert,
    OrderedMap.set_of_notMem hnew]

/-- Well-formed rules are what their items build. -/
theorem ofPairs_items {m : OrderedMap Word Bodies} (h : WellFormedRules m) :
    ofPairs (items ⟨m⟩) = ⟨m⟩ := by
  have step : ∀ (es : List (Word × Bodies)) (r : Relation),
      WellFormedRules ⟨r.rules.entries ++ es⟩ →
      (es.map fun e => (e.1, e.2.toList)).foldl (fun r p => r.addProduction p.1 p.2) r =
        ⟨⟨r.rules.entries ++ es⟩⟩ := by
    intro es
    induction es with
    | nil => intro r _; simp
    | cons e es ih =>
      intro r hr
      have he : e ∈ r.rules.entries ++ e :: es := by simp
      have hnew : e.1 ∉ r.rules.keys := by
        intro hmem
        have hnodup := hr.nodup
        simp only [OrderedMap.keys, List.map_append, List.map_cons, List.nodup_append] at hnodup
        exact hnodup.2.2 e.1 hmem e.1 (List.mem_cons_self ..) rfl
      have hadd := addProduction_new (hr.normal e he) hnew (hr.bodies e he)
      simp only [List.map_cons, List.foldl_cons]
      rw [hadd, ih _ (by simpa using hr)]
      simp
  exact step m.entries empty h

theorem copy_eq {r : Relation} (h : WellFormedRules r.rules) : r.copy = r := ofPairs_items h

end Relation

/-! ## Conversions -/

theorem Grammar.freeze_eq {g : Grammar} (h : g.WellFormed) :
    g.freeze =
      ⟨g.id, g.start, g.name, g.type, g.terminals, g.nonterminals, ⟨g.relation.rules⟩⟩ := by
  have hrules : FrozenRules.ofPairs g.relation.items = ⟨g.relation.rules⟩ := by
    rw [FrozenRules.ofPairs_eq, Relation.ofPairs_items h.rules]
  unfold freeze
  rw [OrderedSet.ofList_toList h.terminals, OrderedSet.ofList_toList h.nonterminals, hrules]

theorem FrozenGrammar.thaw_eq {p : FrozenGrammar} (h : p.WellFormed) :
    p.thaw = ⟨p.id, p.start, p.name, p.type, p.terminals, p.nonterminals, ⟨p.rules.rules⟩⟩ := by
  have hrules : Relation.ofPairs p.rules.items = ⟨p.rules.rules⟩ :=
    Relation.ofPairs_items h.rules
  unfold thaw
  rw [OrderedSet.ofList_toList h.terminals, OrderedSet.ofList_toList h.nonterminals, hrules]

theorem Grammar.view_freeze {g : Grammar} (h : g.WellFormed) : g.freeze.view = g.view := by
  rw [Grammar.freeze_eq h]
  rfl

theorem FrozenGrammar.view_thaw {p : FrozenGrammar} (h : p.WellFormed) : p.thaw.view = p.view := by
  rw [FrozenGrammar.thaw_eq h]
  rfl

theorem Grammar.copy_eq {g : Grammar} (h : g.WellFormed) : g.copy = g := by
  unfold copy
  rw [OrderedSet.ofList_toList h.terminals, OrderedSet.ofList_toList h.nonterminals,
    Relation.copy_eq h.rules]

end PhraseGrammar
