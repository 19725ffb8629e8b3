import PhraseGrammar.Proofs.Acceptance
import PhraseGrammar.Proofs.History

/-!
# PhraseGrammar.Proofs.Sharing

When an edit of a frozen value keeps the value, and what it changes otherwise.

* `Deed.rebuild`, `View.Rebuilt`: the contents made anew from what the value lists, with the edit
  done. Nothing is shared there.
* `SameOrder`, `RulesEdited`, `View.EditedIn`: contents that differ in one part only, where what
  remains keeps its order.
* `Update.Proper`: an update that never makes the old value again. The edits of sets, of rules and
  of grammars are such updates, each because those of its parts are.
* `Update.Exact`: an update that is kept exactly if the wanted contents are the old ones. A proper
  update is exact if its contents are the wanted ones.

`kept_iff_rebuilt` compares the edits with the rebuilding.
-/

namespace PhraseGrammar

/-! ## Rebuilding -/

/-- What an edit of rules comes to if its arguments are words. -/
inductive RuleEdit.Means [Host] : RuleEdit → Deed → Prop where
  | addHead {head : Value} {h : Word} :
      head.toWord = .ok h → Means (.addHead head) (.add h [])
  | removeHead {head : Value} {h : Word} :
      head.toWord = .ok h → Means (.removeHead head) (.drop h)
  | addBody {head body : Value} {h b : Word} :
      head.toWord = .ok h → body.toWord = .ok b → Means (.addBody head body) (.add h [b])
  | removeBody {head body : Value} {h b : Word} :
      head.toWord = .ok h → body.toWord = .ok b → Means (.removeBody head body) (.remove h [b])
  | addProduction {head bodies : Value} {h : Word} {vs : List Value} {bs : List Word} :
      head.toWord = .ok h → bodies.elements = .ok vs → Value.toWords vs = .ok bs →
      Means (.addProduction head bodies) (.add h bs)
  | removeProduction {head bodies : Value} {h : Word} {vs : List Value} {bs : List Word} :
      head.toWord = .ok h → bodies.elements = .ok vs → Value.toWords vs = .ok bs →
      Means (.removeProduction head bodies) (.remove h bs)

namespace Deed

def head : Deed → Word
  | .add h _ | .remove h _ | .drop h => h

/-- A list of rules, written again with a deed done. Bodies that are added stand where they first
occur, and a new head at the end. -/
def rebuild (d : Deed) (rules : List (Word × List Word)) : List (Word × List Word) :=
  match d with
  | .add h bs =>
    if h ∈ rules.map (·.1) then
      rules.map fun r => if r.1 = h then (h, (r.2 ++ bs).eraseDups) else r
    else rules ++ [(h, bs.eraseDups)]
  | .remove h bs => rules.map fun r => if r.1 = h then (h, r.2.filter (· ∉ bs)) else r
  | .drop h => rules.filter fun r => r.1 ≠ h

end Deed

inductive Part where
  | name
  | start
  | type
  | terminals
  | nonterminals
  | head (h : Word)

/-- The part that an edit changes, and the contents written again with the edit done. The arguments
of an edit of rules are words, and what stands for a symbol has a text. -/
inductive View.Rebuilt [Host] (v : View) : GrammarEdit → Part → View → Prop where
  | addTerminal {a : Value} {s : Symbol} : a.toSymbol = .ok s →
      Rebuilt v (.addTerminal a) .terminals
        { v with terminals := (v.terminals ++ [s]).eraseDups }
  | removeTerminal {a : Value} {s : Symbol} : a.toSymbol = .ok s →
      Rebuilt v (.removeTerminal a) .terminals
        { v with terminals := v.terminals.filter (· ≠ s) }
  | addNonterminal {a : Value} {s : Symbol} : a.toSymbol = .ok s →
      Rebuilt v (.addNonterminal a) .nonterminals
        { v with nonterminals := (v.nonterminals ++ [s]).eraseDups }
  | removeNonterminal {a : Value} {s : Symbol} : a.toSymbol = .ok s →
      Rebuilt v (.removeNonterminal a) .nonterminals
        { v with nonterminals := v.nonterminals.filter (· ≠ s) }
  | rule {edit : RuleEdit} {d : Deed} :
      edit.Means d → Rebuilt v (.rule edit) (.head d.head) { v with rules := d.rebuild v.rules }
  | setName (name : Text) : Rebuilt v (.setName name) .name { v with name }
  | setStart {a : Value} {s : Symbol} : a.toSymbol = .ok s →
      Rebuilt v (.setStart a) .start { v with start := s }
  | setType (type : GrammarType) : Rebuilt v (.setType type) .type { v with type }
  | reclassify : Rebuilt v .reclassify .type { v with type := v.classify }

/-! ## Differences -/

/-- What two lists have in common stands in one order in both. -/
def SameOrder {α : Type} [DecidableEq α] (as bs : List α) : Prop :=
  as.filter (· ∈ bs) = bs.filter (· ∈ as)

/-- Two lists of rules that differ at one head only. -/
structure RulesEdited (h : Word) (old new : List (Word × List Word)) : Prop where
  others : ∀ k, k ≠ h → ∀ bs, (k, bs) ∈ new ↔ (k, bs) ∈ old
  edited : ¬∀ bs, (h, bs) ∈ new ↔ (h, bs) ∈ old
  heads : SameOrder (old.map (·.1)) (new.map (·.1))
  bodies : ∀ k bs bs', (k, bs) ∈ old → (k, bs') ∈ new → SameOrder bs bs'

inductive View.EditedIn (v : View) : Part → View → Prop where
  | name {name : Text} : name ≠ v.name → EditedIn v .name { v with name }
  | start {start : Symbol} : start ≠ v.start → EditedIn v .start { v with start }
  | type {type : GrammarType} : type ≠ v.type → EditedIn v .type { v with type }
  | terminals {terminals : List Symbol} :
      terminals ≠ v.terminals → SameOrder v.terminals terminals →
      EditedIn v .terminals { v with terminals }
  | nonterminals {nonterminals : List Symbol} :
      nonterminals ≠ v.nonterminals → SameOrder v.nonterminals nonterminals →
      EditedIn v .nonterminals { v with nonterminals }
  | head {h : Word} {rules : List (Word × List Word)} :
      RulesEdited h v.rules rules → EditedIn v (.head h) { v with rules }

section

variable {α : Type} [DecidableEq α]

theorem filter_mem_of_sublist {as bs : List α} (hbs : bs.Nodup) (h : as.Sublist bs) :
    bs.filter (· ∈ as) = as := by
  induction h with
  | slnil => rfl
  | @cons as bs b h ih =>
    have hb : b ∉ as := fun hmem => (List.nodup_cons.1 hbs).1 (h.subset hmem)
    rw [List.filter_cons_of_neg (by simpa using hb), ih (List.nodup_cons.1 hbs).2]
  | @cons_cons as bs b h ih =>
    obtain ⟨hb, hbs⟩ := List.nodup_cons.1 hbs
    have hsame : bs.filter (· ∈ b :: as) = bs.filter (· ∈ as) := by
      refine List.filter_congr fun a ha => ?_
      have hne : a ≠ b := fun heq => hb (heq ▸ ha)
      simp [hne]
    rw [List.filter_cons_of_pos (by simp), hsame, ih hbs]

/-- Of the old elements some stay, and the new ones go to the end. -/
theorem sameOrder_of_append {as stay new : List α} (has : as.Nodup) (hstay : stay.Sublist as)
    (hnew : ∀ a ∈ new, a ∉ as) : SameOrder as (stay ++ new) := by
  have hold : as.filter (· ∈ stay ++ new) = as.filter (· ∈ stay) := by
    refine List.filter_congr fun a ha => ?_
    have hnot : a ∉ new := fun hmem => hnew a hmem ha
    simp [hnot]
  have hstay' : stay.filter (· ∈ as) = stay :=
    List.filter_eq_self.2 fun a ha => decide_eq_true (hstay.subset ha)
  have hnew' : new.filter (· ∈ as) = [] :=
    List.filter_eq_nil_iff.2 fun a ha => by simpa using hnew a ha
  unfold SameOrder
  rw [hold, filter_mem_of_sublist has hstay, List.filter_append, hstay', hnew', List.append_nil]

theorem SameOrder.eq {as bs : List α} (h : SameOrder as bs) (hmem : ∀ a, a ∈ as ↔ a ∈ bs) :
    as = bs := by
  have has : as.filter (· ∈ bs) = as :=
    List.filter_eq_self.2 fun a ha => decide_eq_true ((hmem a).1 ha)
  have hbs : bs.filter (· ∈ as) = bs :=
    List.filter_eq_self.2 fun a ha => decide_eq_true ((hmem a).2 ha)
  exact has.symm.trans (h.trans hbs)

end

/-! ## Updates that change something -/

namespace Update

variable {α β : Type} {u : Update α} {old : α}

def Proper (u : Update α) (old : α) : Prop := ∀ new, u = .changed new → new ≠ old

theorem proper_kept (old : α) : Proper .kept old := fun _ h => by cases h

theorem proper_changed {new : α} (h : new ≠ old) : Proper (.changed new) old := by
  intro new' heq
  cases heq
  exact h

theorem Proper.map {f : α → β} {whole : β} (h : u.Proper old)
    (hf : ∀ new, f new = whole → new = old) : (u.map f).Proper whole := by
  cases u with
  | kept => exact proper_kept whole
  | changed new => exact proper_changed fun heq => h new rfl (hf new heq)

/-- An update that is kept exactly if the wanted contents are the old ones, and otherwise makes the
wanted contents, which are the old ones edited. -/
structure Exact (u : Update α) (contents : α → β) (old : α) (wanted : β)
    (Edited : β → β → Prop) : Prop where
  kept : u = .kept ↔ wanted = contents old
  changed : ∀ new, u = .changed new → contents new = wanted ∧ Edited (contents old) (contents new)

theorem Exact.contents_on {contents : α → β} {wanted : β} {Edited : β → β → Prop}
    (h : u.Exact contents old wanted Edited) : contents (u.on old) = wanted := by
  cases u with
  | kept => exact (h.kept.1 rfl).symm
  | changed new => exact (h.changed new rfl).1

theorem Exact.edited {contents : α → β} {wanted : β} {Edited : β → β → Prop}
    (h : u.Exact contents old wanted Edited) (hne : wanted ≠ contents old) :
    Edited (contents old) wanted := by
  cases u with
  | kept => exact absurd (h.kept.1 rfl) hne
  | changed new =>
    obtain ⟨hwanted, hedited⟩ := h.changed new rfl
    rwa [hwanted] at hedited

/-- The value of an update tells whether it was kept, if the contents tell the value. -/
theorem Proper.exact {contents : α → β} {wanted : β} {Edited : β → β → Prop} (h : u.Proper old)
    (hcontents : ∀ new, contents new = contents old → new = old)
    (hwanted : contents (u.on old) = wanted)
    (hedited : u.on old ≠ old → Edited (contents old) wanted) :
    u.Exact contents old wanted Edited := by
  cases u with
  | kept =>
    refine ⟨⟨fun _ => hwanted.symm, fun _ => rfl⟩, fun new hnew => ?_⟩
    cases hnew
  | changed new =>
    have hne : new ≠ old := h new rfl
    refine ⟨⟨fun hkept => ?_, fun heq => ?_⟩, fun new' hnew => ?_⟩
    · cases hkept
    · exact absurd (hcontents new (hwanted.trans heq)) hne
    · cases hnew
      have hwanted : contents new = wanted := hwanted
      exact ⟨hwanted, hwanted ▸ hedited hne⟩

end Update

/-! ## Sets -/

namespace OrderedSet

theorem eq_of_toList {α : Type} {s t : OrderedSet α} (h : s.toList = t.toList) : s = t := by
  cases s
  cases t
  exact congrArg mk h

variable {α : Type} [DecidableEq α] {s : OrderedSet α}

theorem proper_add? (s : OrderedSet α) (a : α) : (s.add? a).Proper s := by
  unfold add?
  split
  · exact Update.proper_kept s
  · rename_i ha
    refine Update.proper_changed fun heq => ha (contains_iff.2 ?_)
    rw [← heq]
    simp

theorem proper_remove? (s : OrderedSet α) (a : α) : (s.remove? a).Proper s := by
  unfold remove?
  split
  · rename_i ha
    refine Update.proper_changed fun heq => ?_
    rw [contains_iff, ← heq] at ha
    simp at ha
  · exact Update.proper_kept s

theorem proper_addAll? (s : OrderedSet α) (as : List α) : (s.addAll? as).Proper s := by
  induction as with
  | nil => exact Update.proper_kept s
  | cons a as ih =>
    unfold addAll?
    by_cases ha : a ∈ s.toList
    · have hkept : s.add? a = .kept := if_pos (contains_iff.2 ha)
      rw [hkept]
      exact ih
    · have hchanged : s.add? a = .changed ⟨s.toList ++ [a]⟩ :=
        if_neg fun c => ha (contains_iff.1 c)
      rw [hchanged]
      refine Update.proper_changed fun heq => ha ?_
      rw [← heq, on_addAll?, mem_insertAll]
      exact .inl (List.mem_append_right _ List.mem_cons_self)

theorem proper_removeAll? (h : s.toList.Nodup) (as : List α) : (s.removeAll? as).Proper s := by
  induction as with
  | nil => exact Update.proper_kept s
  | cons a as ih =>
    unfold removeAll?
    by_cases ha : a ∈ s.toList
    · have hchanged : s.remove? a = .changed ⟨s.toList.filter (· != a)⟩ :=
        if_pos (contains_iff.2 ha)
      rw [hchanged]
      refine Update.proper_changed fun heq => ?_
      rw [← heq, on_removeAll? (h.filter _)] at ha
      have hrest := (sublist_eraseAll as _).subset ha
      simp at hrest
    · have hkept : s.remove? a = .kept := if_neg fun c => ha (contains_iff.1 c)
      rw [hkept]
      exact ih

theorem toList_insertAll_eq [BEq α] [LawfulBEq α] (h : s.toList.Nodup) (as : List α) :
    (s.insertAll as).toList = (s.toList ++ as).eraseDups := by
  rw [← toList_ofList, ofList, insertAll_append]
  exact congrArg (fun t => (insertAll t as).toList) (ofList_toList h).symm

theorem toList_eraseAll [BEq α] [LawfulBEq α] (h : s.toList.Nodup) (as : List α) :
    (s.eraseAll as).toList = s.toList.filter (· ∉ as) := by
  rw [← filter_mem_of_sublist h (sublist_eraseAll as s)]
  refine List.filter_congr fun a ha => ?_
  rw [decide_eq_decide, mem_eraseAll h]
  exact and_iff_right ha

theorem toList_erase_eq (h : s.toList.Nodup) (a : α) :
    (s.erase a).toList = s.toList.filter (· ≠ a) := by
  rw [toList_erase, h.erase_eq_filter]
  exact List.filter_congr fun b _ => by by_cases hb : b = a <;> simp [hb]

theorem sameOrder_erase (h : s.toList.Nodup) (a : α) : SameOrder s.toList (s.erase a).toList := by
  rw [← List.append_nil (s.erase a).toList]
  exact sameOrder_of_append h List.erase_sublist (List.forall_mem_nil _)

theorem sameOrder_insertAll (h : s.toList.Nodup) (as : List α) :
    SameOrder s.toList (s.insertAll as).toList := by
  obtain ⟨new, heq, hnew, -⟩ := toList_insertAll as s
  rw [heq]
  exact sameOrder_of_append h (List.Sublist.refl _) hnew

theorem exact_add? [BEq α] [LawfulBEq α] (h : s.toList.Nodup) (a : α) :
    (s.add? a).Exact toList s (s.toList ++ [a]).eraseDups SameOrder := by
  have hwanted : ((s.add? a).on s).toList = (s.toList ++ [a]).eraseDups := by
    rw [on_add?]
    exact toList_insertAll_eq h [a]
  refine (proper_add? s a).exact (fun _ => eq_of_toList) hwanted fun _ => ?_
  rw [← toList_insertAll_eq h]
  exact sameOrder_insertAll h [a]

theorem exact_remove? (h : s.toList.Nodup) (a : α) :
    (s.remove? a).Exact toList s (s.toList.filter (· ≠ a)) SameOrder := by
  have hwanted : ((s.remove? a).on s).toList = s.toList.filter (· ≠ a) := by
    rw [on_remove? h]
    exact toList_erase_eq h a
  refine (proper_remove? s a).exact (fun _ => eq_of_toList) hwanted fun _ => ?_
  rw [← toList_erase_eq h]
  exact sameOrder_erase h a

end OrderedSet

/-! ## Rules -/

namespace FrozenRules

variable {r new : FrozenRules} {h : Word} {bs : List Word}

theorem eq_of_items (heq : new.items = r.items) : new = r := by
  have hrelation : Relation.mk new.rules = ⟨r.rules⟩ := Relation.eq_of_items heq
  exact congrArg (fun t => FrozenRules.mk t.rules) hrelation

theorem map_fst_items (r : FrozenRules) : r.items.map (·.1) = r.rules.keys := by
  rw [items, List.map_map]
  rfl

theorem mem_items_iff (hr : WellFormedRules r.rules) :
    (h, bs) ∈ r.items ↔ r.rules.get? h = some ⟨bs⟩ := by
  unfold items
  constructor
  · intro hmem
    obtain ⟨⟨k, ⟨s⟩⟩, he, heq⟩ := List.mem_map.1 hmem
    cases heq
    exact OrderedMap.get?_of_mem hr.nodup he
  · intro hget
    exact List.mem_map.2 ⟨_, OrderedMap.mem_entries_of_get? hget, rfl⟩

/-! Each edit of rules changes something if it makes new ones. -/

theorem proper_addHead (r : FrozenRules) (head : Word) : (r.addHead head).Proper r := by
  unfold addHead
  simp only
  split
  · exact Update.proper_kept r
  · rename_i hmissing
    refine Update.proper_changed fun heq => hmissing (OrderedMap.contains_iff.2 ?_)
    rw [← heq, OrderedMap.keys_set]
    split
    · assumption
    · simp

theorem proper_removeHead (r : FrozenRules) (head : Word) : (r.removeHead head).Proper r := by
  unfold removeHead
  simp only
  split
  · rename_i hthere
    refine Update.proper_changed fun heq => ?_
    rw [OrderedMap.contains_iff, ← heq, OrderedMap.keys_erase] at hthere
    simp at hthere
  · exact Update.proper_kept r

theorem eq_of_set {k : Word} {old s : Bodies} (hold : r.rules.get? k = some old)
    (heq : FrozenRules.mk (r.rules.set k s) = r) : s = old := by
  rw [← heq, OrderedMap.get?_set, if_pos rfl] at hold
  exact Option.some.inj hold

theorem proper_addProduction (r : FrozenRules) (head : Word) (bodies : List Word) :
    (r.addProduction head bodies).Proper r := by
  unfold addProduction
  simp only
  split
  · rename_i hnone
    refine Update.proper_changed fun heq => OrderedMap.get?_eq_none_iff.1 hnone ?_
    rw [← heq, ← OrderedMap.get?_isSome_iff, OrderedMap.get?_set, if_pos rfl]
    rfl
  · rename_i hold
    exact (OrderedSet.proper_addAll? _ _).map fun s => eq_of_set hold

theorem proper_removeProduction (hr : WellFormedRules r.rules) (head : Word)
    (bodies : List Word) : (r.removeProduction head bodies).Proper r := by
  unfold removeProduction
  simp only
  split
  · exact Update.proper_kept r
  · rename_i hold
    exact (OrderedSet.proper_removeAll? (hr.of_get? hold).2.nodup _).map fun s => eq_of_set hold

theorem removeProduction_of_not_contains (hh : Word.IsNormal h)
    (hmissing : ¬r.rules.contains h = true) (bs : List Word) : r.removeProduction h bs = .kept := by
  refine removeProduction_missing ?_ bs
  rw [show Word.normalize h = h from hh, OrderedMap.get?_eq_none_iff]
  exact fun hk => hmissing (OrderedMap.contains_iff.2 hk)

/-- An edit with words for arguments has a result, which is the deed that it comes to. -/
theorem apply_of_means [Host] (hr : WellFormedRules r.rules) {edit : RuleEdit} {d : Deed}
    (hmeans : edit.Means d) :
    ∃ u, r.apply edit = .ok u ∧ u.Proper r ∧ (u.on r).rules = d.apply r.rules := by
  cases hmeans with
  | @addHead head h hhead =>
    refine ⟨r.addHead h, ?_, proper_addHead r h, rules_on_addHead (Value.isNormal_of_toWord hhead)⟩
    simp only [apply, bind_eq_ok_iff]
    exact ⟨h, hhead, rfl⟩
  | @removeHead head h hhead =>
    have hnormal : Word.normalize h = h := Value.isNormal_of_toWord hhead
    refine ⟨r.removeHead h, ?_, proper_removeHead r h, by rw [on_removeHead, hnormal]; rfl⟩
    simp only [apply, bind_eq_ok_iff]
    exact ⟨h, hhead, rfl⟩
  | @addBody head body h b hhead hbody =>
    have hb : ∀ w ∈ [b], Word.IsNormal w := by simpa using Value.isNormal_of_toWord hbody
    refine ⟨r.addProduction h [b], ?_, proper_addProduction r h [b],
      rules_on_addProduction hr (Value.isNormal_of_toWord hhead) hb⟩
    simp only [apply, bind_eq_ok_iff]
    exact ⟨h, hhead, b, hbody, rfl⟩
  | @removeBody head body h b hhead hbody =>
    have hh := Value.isNormal_of_toWord hhead
    have hb : ∀ w ∈ [b], Word.IsNormal w := by simpa using Value.isNormal_of_toWord hbody
    refine ⟨r.removeProduction h [b], ?_, proper_removeProduction hr h [b],
      rules_on_removeProduction hr hh hb⟩
    simp only [apply, bind_eq_ok_iff]
    refine ⟨h, hhead, ?_⟩
    split
    · exact bind_eq_ok_iff.2 ⟨b, hbody, rfl⟩
    · rename_i hmissing
      rw [removeProduction_of_not_contains hh hmissing]
      rfl
  | @addProduction head bodies h vs bs hhead hvs hbs =>
    refine ⟨r.addProduction h bs, ?_, proper_addProduction r h bs,
      rules_on_addProduction hr (Value.isNormal_of_toWord hhead) (Value.isNormal_of_toWords hbs)⟩
    simp only [apply, bind_eq_ok_iff]
    exact ⟨h, hhead, vs, hvs, bs, hbs, rfl⟩
  | @removeProduction head bodies h vs bs hhead hvs hbs =>
    have hh := Value.isNormal_of_toWord hhead
    refine ⟨r.removeProduction h bs, ?_, proper_removeProduction hr h bs,
      rules_on_removeProduction hr hh (Value.isNormal_of_toWords hbs)⟩
    simp only [apply, bind_eq_ok_iff]
    refine ⟨h, hhead, ?_⟩
    split
    · simp only [bind_eq_ok_iff]
      exact ⟨vs, hvs, bs, hbs, rfl⟩
    · rename_i hmissing
      rw [removeProduction_of_not_contains hh hmissing]
      rfl

/-! What a deed makes of rules, on the list of them. -/

theorem items_modify (r : FrozenRules) (h : Word) {f : Bodies → Bodies}
    {g : List Word → List Word} (hfg : ∀ e ∈ r.rules.entries, (f e.2).toList = g e.2.toList) :
    items ⟨r.rules.modify h f⟩ = r.items.map fun p => if p.1 = h then (h, g p.2) else p := by
  simp only [items, OrderedMap.modify, List.map_map]
  refine List.map_congr_left fun e he => ?_
  by_cases heq : e.1 = h <;> simp [heq, hfg e he]

theorem items_apply (hr : WellFormedRules r.rules) (d : Deed) :
    items ⟨d.apply r.rules⟩ = d.rebuild r.items := by
  cases d with
  | add h bs =>
    simp only [Deed.apply, Deed.rebuild, map_fst_items]
    by_cases hh : h ∈ r.rules.keys
    · rw [OrderedMap.insertNew_of_mem hh, if_pos hh]
      exact items_modify (g := fun old => (old ++ bs).eraseDups) r h fun e he =>
        OrderedSet.toList_insertAll_eq (hr.bodies e he).nodup bs
    · rw [OrderedMap.insertNew_of_notMem hh, OrderedMap.modify_append_new hh, if_neg hh]
      simp only [items, List.map_append, List.map_cons, List.map_nil]
      rw [← OrderedSet.toList_ofList]
      rfl
  | remove h bs =>
    exact items_modify r h fun e he => OrderedSet.toList_eraseAll (hr.bodies e he).nodup bs
  | drop h =>
    simp only [Deed.apply, Deed.rebuild, items, OrderedMap.erase, List.filter_map]
    refine congrArg _ (List.filter_congr fun e _ => ?_)
    simp only [Function.comp_apply, bne, decide_not]
    rfl

end FrozenRules

theorem Deed.get?_apply_of_ne {d : Deed} {k : Word} (hk : k ≠ d.head)
    (m : OrderedMap Word Bodies) : (d.apply m).get? k = m.get? k := by
  cases d with
  | add h bs => exact (get?_add m h bs k).trans (if_neg hk)
  | remove h bs => exact (get?_remove m h bs k).trans (if_neg hk)
  | drop h => exact (get?_drop m h k).trans (if_neg hk)

theorem FrozenRules.eq_of_mem_items {r new : FrozenRules} (hr : WellFormedRules r.rules)
    (hnew : WellFormedRules new.rules)
    (hheads : SameOrder (r.items.map (·.1)) (new.items.map (·.1)))
    (hmem : ∀ k bs, (k, bs) ∈ new.items ↔ (k, bs) ∈ r.items) : new = r := by
  have hget : ∀ k, new.rules.get? k = r.rules.get? k := by
    intro k
    refine Option.ext fun s => ?_
    rw [← mem_items_iff hnew, hmem, mem_items_iff hr]
  have hkeys : r.rules.keys = new.rules.keys := by
    rw [map_fst_items, map_fst_items] at hheads
    refine hheads.eq fun k => ?_
    rw [← OrderedMap.get?_isSome_iff, ← OrderedMap.get?_isSome_iff, hget]
  have hrules : new.rules = r.rules :=
    OrderedMap.ext_getD (d := .empty) hnew.nodup hkeys.symm fun k => by rw [hget]
  cases new
  cases r
  exact congrArg FrozenRules.mk hrules

/-- A deed changes the rules at its head only. -/
theorem FrozenRules.rulesEdited {r new : FrozenRules} (hr : WellFormedRules r.rules)
    (hnew : WellFormedRules new.rules) {d : Deed} (heq : new.rules = d.apply r.rules)
    (hne : new ≠ r) : RulesEdited d.head r.items new.items := by
  have hothers : ∀ k, k ≠ d.head → ∀ bs, (k, bs) ∈ new.items ↔ (k, bs) ∈ r.items := by
    intro k hk bs
    rw [mem_items_iff hnew, mem_items_iff hr, heq, Deed.get?_apply_of_ne hk]
  have hheads : SameOrder (r.items.map (·.1)) (new.items.map (·.1)) := by
    obtain ⟨stay, added, hkeys, hstay, hadded, -⟩ := Deed.keys_apply d r.rules
    rw [map_fst_items, map_fst_items, heq, hkeys]
    exact sameOrder_of_append hr.nodup hstay hadded
  refine ⟨hothers, fun hsame => hne ?_, hheads, fun k bs bs' hold hmem => ?_⟩
  · refine eq_of_mem_items hr hnew hheads fun k bs => ?_
    by_cases hk : k = d.head
    · rw [hk]
      exact hsame bs
    · exact hothers k hk bs
  · rw [mem_items_iff hr] at hold
    rw [mem_items_iff hnew, heq] at hmem
    obtain ⟨stay, added, hbodies, hstay, hadded, -⟩ := Deed.bodies_apply hmem
    rw [hold] at hstay
    rw [show bs' = stay ++ added from hbodies]
    refine sameOrder_of_append (hr.of_get? hold).2.nodup hstay fun b hb hmem => ?_
    exact hadded b hb ⟨_, hold, hmem⟩

/-- An edit of rules is kept exactly if the rules that are written again are the old ones. -/
theorem FrozenRules.exact_of_means [Host] {r : FrozenRules} (hr : WellFormedRules r.rules)
    {edit : RuleEdit} {d : Deed} (hmeans : edit.Means d) :
    ∃ u, r.apply edit = .ok u ∧ u.Proper r ∧
      u.Exact items r (d.rebuild r.items) (RulesEdited d.head) := by
  obtain ⟨u, hu, hproper, hrules⟩ := apply_of_means hr hmeans
  have hwanted : (u.on r).items = d.rebuild r.items := by
    rw [← items_apply hr d, ← hrules]
  refine ⟨u, hu, hproper, hproper.exact (fun new => eq_of_items) hwanted fun hne => ?_⟩
  rw [← hwanted]
  exact rulesEdited hr (wellFormed_apply hr hu) hrules hne

/-! ## Grammars -/

namespace FrozenGrammar

variable {g new : FrozenGrammar}

theorem eq_of_view (heq : new.view = g.view) : new = g := by
  obtain ⟨id, start, name, type, ⟨terminals⟩, ⟨nonterminals⟩, rules⟩ := new
  obtain ⟨id', start', name', type', ⟨terminals'⟩, ⟨nonterminals'⟩, rules'⟩ := g
  simp only [view, View.mk.injEq] at heq
  obtain ⟨rfl, rfl, rfl, rfl, rfl, rfl, hrules⟩ := heq
  rw [FrozenRules.eq_of_items hrules]

theorem exact_of_proper {u : Update FrozenGrammar} {part : Part} {wanted : View}
    (hproper : u.Proper g) (hwanted : (u.on g).view = wanted)
    (hedited : wanted ≠ g.view → g.view.EditedIn part wanted) :
    u.Exact view g wanted (fun v => v.EditedIn part) := by
  refine hproper.exact (fun new => eq_of_view) hwanted fun hne => hedited fun heq => hne ?_
  exact eq_of_view (hwanted.trans heq)

theorem exact_terminals {u : Update Alphabet} {symbols : List Symbol}
    (hproper : u.Proper g.terminals)
    (hu : u.Exact OrderedSet.toList g.terminals symbols SameOrder) :
    (u.map fun terminals => { g with terminals }).Exact view g
      { g.view with terminals := symbols } (fun v => v.EditedIn .terminals) := by
  refine exact_of_proper (hproper.map fun t heq => congrArg terminals heq) ?_ fun hne => ?_
  · rw [on_terminals, ← hu.contents_on]
    rfl
  · exact .terminals (fun heq => hne (by rw [heq])) (hu.edited fun heq => hne (by rw [heq]; rfl))

theorem exact_nonterminals {u : Update Alphabet} {symbols : List Symbol}
    (hproper : u.Proper g.nonterminals)
    (hu : u.Exact OrderedSet.toList g.nonterminals symbols SameOrder) :
    (u.map fun nonterminals => { g with nonterminals }).Exact view g
      { g.view with nonterminals := symbols } (fun v => v.EditedIn .nonterminals) := by
  refine exact_of_proper (hproper.map fun t heq => congrArg nonterminals heq) ?_ fun hne => ?_
  · rw [on_nonterminals, ← hu.contents_on]
    rfl
  · exact .nonterminals (fun heq => hne (by rw [heq])) (hu.edited fun heq => hne (by rw [heq]; rfl))

theorem exact_rules {u : Update FrozenRules} {h : Word} {rules : List (Word × List Word)}
    (hproper : u.Proper g.rules) (hu : u.Exact FrozenRules.items g.rules rules (RulesEdited h)) :
    (u.map fun rules => { g with rules }).Exact view g { g.view with rules }
      (fun v => v.EditedIn (.head h)) := by
  refine exact_of_proper (hproper.map fun t heq => congrArg FrozenGrammar.rules heq) ?_
    fun hne => .head (hu.edited fun heq => hne (by rw [heq]; rfl))
  rw [on_rules, ← hu.contents_on]
  rfl

theorem exact_of_ite {same : Prop} [Decidable same] {part : Part} (hsame : same ↔ new = g)
    (hedited : ¬same → g.view.EditedIn part new.view) :
    (if same then Update.kept else .changed new).Exact view g new.view
      (fun v => v.EditedIn part) := by
  refine exact_of_proper ?_ ?_ fun hne => ?_
  · split
    · exact Update.proper_kept g
    · rename_i hnot
      exact Update.proper_changed fun heq => hnot (hsame.2 heq)
  · split
    · rename_i heq
      exact congrArg view (hsame.1 heq).symm
    · rfl
  · exact hedited fun heq => hne (congrArg view (hsame.1 heq))

theorem exact_setType (g : FrozenGrammar) (type : GrammarType) :
    (g.setType type).Exact view g { g.view with type } (fun v => v.EditedIn .type) := by
  have hsame : g.type = type ↔ { g with type } = g :=
    ⟨fun h => by rw [← h], fun h => (congrArg FrozenGrammar.type h).symm⟩
  exact exact_of_ite hsame fun hne => .type (Ne.symm hne)

/-- An edit is kept exactly if the contents that are written again are the old ones. -/
theorem exact_of_rebuilt [Host] (hg : g.WellFormed) {edit : GrammarEdit} {part : Part}
    {wanted : View} (h : g.view.Rebuilt edit part wanted) :
    ∃ u, g.apply edit = .ok u ∧ u.Exact view g wanted (fun v => v.EditedIn part) := by
  cases h with
  | addTerminal hs =>
    exact ⟨_, withSymbol_ok hs _, exact_terminals (OrderedSet.proper_add? _ _)
      (OrderedSet.exact_add? hg.terminals _)⟩
  | removeTerminal hs =>
    exact ⟨_, withSymbol_ok hs _, exact_terminals (OrderedSet.proper_remove? _ _)
      (OrderedSet.exact_remove? hg.terminals _)⟩
  | addNonterminal hs =>
    exact ⟨_, withSymbol_ok hs _, exact_nonterminals (OrderedSet.proper_add? _ _)
      (OrderedSet.exact_add? hg.nonterminals _)⟩
  | removeNonterminal hs =>
    exact ⟨_, withSymbol_ok hs _, exact_nonterminals (OrderedSet.proper_remove? _ _)
      (OrderedSet.exact_remove? hg.nonterminals _)⟩
  | @rule edit d hmeans =>
    obtain ⟨u, hu, hproper, hexact⟩ := FrozenRules.exact_of_means hg.rules hmeans
    refine ⟨u.map fun rules => { g with rules }, ?_, exact_rules hproper hexact⟩
    simp only [apply, hu]
  | setName name =>
    have hsame : g.name = name ↔ { g with name } = g :=
      ⟨fun h => by rw [← h], fun h => (congrArg FrozenGrammar.name h).symm⟩
    exact ⟨_, rfl, exact_of_ite hsame fun hne => .name (Ne.symm hne)⟩
  | @setStart a s hs =>
    have hsame : g.start = s ↔ { g with start := s } = g :=
      ⟨fun h => by rw [← h], fun h => (congrArg FrozenGrammar.start h).symm⟩
    exact ⟨_, withSymbol_ok hs _, exact_of_ite hsame fun hne => .start (Ne.symm hne)⟩
  | setType type => exact ⟨_, rfl, exact_setType g type⟩
  | reclassify => exact ⟨_, rfl, exact_setType g g.view.classify⟩

end FrozenGrammar

/-- **Sharing.** An edit of frozen rules, which may be those of a grammar, or of a frozen grammar,
keeps the value exactly if writing it again with the edit done gives the same contents in the same
order. Else it makes those contents. They differ from the old ones in the edited part, in nothing
else, and what remains keeps its order. The arguments are words, or stand for symbols by their
texts. -/
theorem kept_iff_rebuilt [Host] :
    (∀ r : FrozenRules, (r.Reachable ∨ ∃ g : FrozenGrammar, g.Reachable ∧ g.rules = r) →
      ∀ edit d, RuleEdit.Means edit d →
        ∃ u, r.apply edit = .ok u ∧ (u = .kept ↔ d.rebuild r.items = r.items) ∧
          ∀ new, u = .changed new →
            new.items = d.rebuild r.items ∧ RulesEdited d.head r.items new.items) ∧
    ∀ g : FrozenGrammar, g.Reachable → ∀ edit part wanted, g.view.Rebuilt edit part wanted →
      ∃ u, g.apply edit = .ok u ∧ (u = .kept ↔ wanted = g.view) ∧
        ∀ new, u = .changed new → new.view = wanted ∧ g.view.EditedIn part new.view := by
  refine ⟨fun r hr edit d hmeans => ?_, fun g hg edit part wanted hwanted => ?_⟩
  · have hrules : WellFormedRules r.rules := by
      rcases hr with hr | ⟨g, hg, rfl⟩
      · exact hr.wellFormed
      · exact hg.wellFormed.rules
    obtain ⟨u, hu, -, hexact⟩ := FrozenRules.exact_of_means hrules hmeans
    exact ⟨u, hu, hexact.kept, hexact.changed⟩
  · obtain ⟨u, hu, hexact⟩ := FrozenGrammar.exact_of_rebuilt hg.wellFormed hwanted
    exact ⟨u, hu, hexact.kept, hexact.changed⟩

def twoHeads : FrozenRules :=
  ⟨⟨[([⟨"A"⟩], ⟨[[⟨"a"⟩], [⟨"b"⟩]]⟩), ([⟨"B"⟩], ⟨[]⟩)]⟩⟩

section

open scoped Host

theorem kept_iff_rebuilt_duplicates :
    twoHeads.Reachable ∧
      twoHeads.apply (.addProduction (.text "A") (.text "bab")) = .ok .kept ∧
      (∃ new, twoHeads.apply (.removeProduction (.text "A") (.text "bxb")) = .ok (.changed new) ∧
        new.items = [([⟨"A"⟩], [[⟨"a"⟩]]), ([⟨"B"⟩], [])] ∧
        RulesEdited [⟨"A"⟩] twoHeads.items new.items) ∧
      (FrozenGrammar.new "g" ⟨"S"⟩ "").apply (.setStart (.text "S")) = .ok .kept := by
  have hreach : twoHeads.Reachable := .build (v := .list
    [.list [.text "A", .list [.text "a", .text "b"]], .list [.text "B", .list []]]) rfl
  obtain ⟨hrules, hgrammars⟩ := kept_iff_rebuilt
  refine ⟨hreach, ?_, ?_, ?_⟩
  · obtain ⟨u, hu, hkept, -⟩ := hrules twoHeads (.inl hreach)
      (.addProduction (.text "A") (.text "bab")) (.add [⟨"A"⟩] [[⟨"b"⟩], [⟨"a"⟩], [⟨"b"⟩]])
      (.addProduction rfl rfl rfl)
    rw [hu, hkept.2 (by decide +kernel)]
  · obtain ⟨u, hu, hkept, hchanged⟩ := hrules twoHeads (.inl hreach)
      (.removeProduction (.text "A") (.text "bxb")) (.remove [⟨"A"⟩] [[⟨"b"⟩], [⟨"x"⟩], [⟨"b"⟩]])
      (.removeProduction rfl rfl rfl)
    cases u with
    | kept => exact absurd (hkept.1 rfl) (by decide +kernel)
    | changed new =>
      obtain ⟨hitems, hedited⟩ := hchanged new rfl
      exact ⟨new, hu, hitems.trans (by decide +kernel), hedited⟩
  · obtain ⟨u, hu, hkept, -⟩ := hgrammars _ (.new "g" ⟨"S"⟩ "") _ _ _
      (.setStart (a := .text "S") rfl)
    rw [hu, hkept.2 (by decide +kernel)]

end

end PhraseGrammar
