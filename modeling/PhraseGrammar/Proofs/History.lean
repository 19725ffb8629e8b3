import Mathlib.Data.List.Induction
import PhraseGrammar.Proofs.Merging

/-!
# PhraseGrammar.Proofs.History

What rules hold after a run of edits, read off the run.

* `Deed`, `RuleEdit.deed`: what an edit comes to, on the words that its arguments stand for.
* `Lasts`: an edit of a run does something, and no edit after it undoes that.
* `CameWith`: the edit with which something last came about. `Before`: one thing came about before
  another, in an edit before the other's or earlier in the same edit.
* `HeadStands`, `BodyStands`: a head, or a body of a head, was added and not taken away since.
* `Tells`: the heads and the bodies are those that stand, in the order in which they came about.

`Tells.step` is one edit, `FrozenRules.tells_of_run` a run. `recorded_of_run` says it of what both
kinds of rules list.
-/

namespace PhraseGrammar

/-! ## Runs -/

section

variable {ε α : Type}

/-- Some edit of a run does it, and no edit after that undoes it. -/
def Lasts (does undoes : ε → Prop) (es : List ε) : Prop :=
  ∃ before e after, es = before ++ e :: after ∧ does e ∧ ∀ e' ∈ after, ¬undoes e'

theorem not_lasts_nil {does undoes : ε → Prop} : ¬Lasts does undoes [] := by
  rintro ⟨before, e, after, h, -⟩
  simp at h

theorem lasts_concat {does undoes : ε → Prop} {es : List ε} {e : ε} :
    Lasts does undoes (es ++ [e]) ↔ does e ∨ Lasts does undoes es ∧ ¬undoes e := by
  constructor
  · rintro ⟨before, d, after, heq, hd, hafter⟩
    rcases List.eq_nil_or_concat after with rfl | ⟨after, e', rfl⟩
    · obtain ⟨-, hlast⟩ := List.append_inj' heq rfl
      cases hlast
      exact .inl hd
    · simp only [List.concat_eq_append] at heq hafter
      rw [← List.cons_append, ← List.append_assoc] at heq
      obtain ⟨hes, hlast⟩ := List.append_inj' heq rfl
      cases hlast
      refine .inr ⟨⟨before, d, after, hes, hd, ?_⟩, hafter e (by simp)⟩
      intro e' he'
      exact hafter e' (by simp [he'])
  · rintro (he | ⟨⟨before, d, after, rfl, hd, hafter⟩, he⟩)
    · exact ⟨es, e, [], rfl, he, by simp⟩
    · refine ⟨before, d, after ++ [e], by simp, hd, ?_⟩
      intro e' he'
      rcases List.mem_append.1 he' with he' | he'
      · exact hafter e' he'
      · rw [List.mem_singleton.1 he']
        exact he

/-- The edit, by its number in the run, with which something last came about: it does not stand
before, and it stands ever after. -/
def CameWith (stands : List ε → Prop) (es : List ε) (n : Nat) : Prop :=
  n < es.length ∧ ¬stands (es.take n) ∧ ∀ m, n < m → m ≤ es.length → stands (es.take m)

theorem CameWith.concat {stands : List ε → Prop} {es : List ε} {n : Nat} {e : ε}
    (h : CameWith stands es n) (he : stands (es ++ [e])) : CameWith stands (es ++ [e]) n := by
  obtain ⟨hn, hnot, hstands⟩ := h
  have htake : ∀ m, m ≤ es.length → (es ++ [e]).take m = es.take m := by
    intro m hm
    exact List.take_append_of_le_length hm
  refine ⟨by simp; omega, by rwa [htake n (by omega)], ?_⟩
  intro m hnm hm
  rw [List.length_append, List.length_singleton] at hm
  by_cases hlast : m ≤ es.length
  · rw [htake m hlast]
    exact hstands m hnm hlast
  · rwa [List.take_of_length_le (by simp; omega)]

theorem cameWith_last {stands : List ε → Prop} {es : List ε} {e : ε} (h : ¬stands es)
    (he : stands (es ++ [e])) : CameWith stands (es ++ [e]) es.length := by
  refine ⟨by simp, by rwa [List.take_left], ?_⟩
  intro m hm _
  rwa [List.take_of_length_le (by simp; omega)]

theorem exists_cameWith {stands : List ε → Prop} (hnil : ¬stands []) {es : List ε}
    (h : stands es) : ∃ n, CameWith stands es n := by
  induction es using List.reverseRecOn with
  | nil => exact absurd h hnil
  | append_singleton es e ih =>
    by_cases hes : stands es
    · obtain ⟨n, hn⟩ := ih hes
      exact ⟨n, hn.concat h⟩
    · exact ⟨es.length, cameWith_last hes h⟩

/-- The one came about with an edit before that of the other, or the two came about with one edit
that puts the one first. -/
def Before (stands : α → List ε → Prop) (first : ε → α → α → Prop) (es : List ε) (a b : α) :
    Prop :=
  ∃ i j, CameWith (stands a) es i ∧ CameWith (stands b) es j ∧
    (i < j ∨ i = j ∧ ∃ e, es[i]? = some e ∧ first e a b)

variable {stands : α → List ε → Prop} {first : ε → α → α → Prop} {es : List ε} {e : ε}

theorem Before.concat {a b : α} (h : Before stands first es a b) (ha : stands a (es ++ [e]))
    (hb : stands b (es ++ [e])) : Before stands first (es ++ [e]) a b := by
  obtain ⟨i, j, hi, hj, horder⟩ := h
  refine ⟨i, j, hi.concat ha, hj.concat hb, ?_⟩
  rcases horder with hlt | ⟨heq, d, hd, hfirst⟩
  · exact .inl hlt
  · refine .inr ⟨heq, d, ?_, hfirst⟩
    rwa [List.getElem?_append_left hi.1]

/-- What stays keeps its order, and what comes about goes to the end, in the order of the edit. -/
theorem pairwise_before_concat {old new : List α} (hnil : ∀ a, ¬stands a [])
    (hold : old.Pairwise (Before stands first es)) (hstood : ∀ a ∈ old, stands a es)
    (hstay : ∀ a ∈ old, stands a (es ++ [e]))
    (hnew : ∀ a ∈ new, ¬stands a es ∧ stands a (es ++ [e])) (hfirst : new.Pairwise (first e)) :
    (old ++ new).Pairwise (Before stands first (es ++ [e])) := by
  rw [List.pairwise_append]
  refine ⟨?_, ?_, ?_⟩
  · refine hold.imp_of_mem ?_
    intro a b ha hb h
    exact h.concat (hstay a ha) (hstay b hb)
  · refine hfirst.imp_of_mem ?_
    intro a b ha hb h
    have hacame := cameWith_last (hnew a ha).1 (hnew a ha).2
    have hbcame := cameWith_last (hnew b hb).1 (hnew b hb).2
    exact ⟨_, _, hacame, hbcame, .inr ⟨rfl, e, by simp, h⟩⟩
  · intro a ha b hb
    obtain ⟨i, hi⟩ := exists_cameWith (hnil a) (hstood a ha)
    have hbcame := cameWith_last (hnew b hb).1 (hnew b hb).2
    exact ⟨i, es.length, hi.concat (hstay a ha), hbcame, .inl hi.1⟩

def OccursFirst (as : List α) (a b : α) : Prop :=
  ∃ before after, as = before ++ a :: after ∧ b ∉ before ∧ b ≠ a

theorem OccursFirst.head {a b : α} (as : List α) (h : b ≠ a) : OccursFirst (a :: as) a b :=
  ⟨[], as, rfl, List.not_mem_nil, h⟩

theorem OccursFirst.cons {as : List α} {a b c : α} (h : OccursFirst as b c) (hc : c ≠ a) :
    OccursFirst (a :: as) b c := by
  obtain ⟨before, after, rfl, hbefore, hcb⟩ := h
  exact ⟨a :: before, after, rfl, by simp [hc, hbefore], hcb⟩

end

/-! ## Edits on words -/

/-- What an edit of rules comes to: adding a head with bodies, removing bodies, or removing a head
with all its bodies. -/
inductive Deed where
  | add (head : Word) (bodies : List Word)
  | remove (head : Word) (bodies : List Word)
  | drop (head : Word)
deriving DecidableEq, Repr

section

variable [Host]

def Value.listedWords (v : Value) : List Word :=
  match v.elements with
  | .error _ => []
  | .ok vs =>
    match toWords vs with
    | .error _ => []
    | .ok ws => ws

/-- What an edit comes to. A removal that misses its head does not look at its bodies, so there they
need not be words. -/
def RuleEdit.deed : RuleEdit → Except ArgumentError Deed
  | .addHead head => do return .add (← head.toWord) []
  | .removeHead head => do return .drop (← head.toWord)
  | .addBody head body => do
    let h ← head.toWord
    let b ← body.toWord
    return .add h [b]
  | .removeBody head body => do
    let h ← head.toWord
    return .remove h (Value.list [body]).listedWords
  | .addProduction head bodies => do
    let h ← head.toWord
    let bs ← Value.toWords (← bodies.elements)
    return .add h bs
  | .removeProduction head bodies => do
    let h ← head.toWord
    return .remove h bodies.listedWords

namespace RuleEdit

def AddsTo (h : Word) (e : RuleEdit) : Prop := ∃ bs, e.deed = .ok (.add h bs)

def Adds (h b : Word) (e : RuleEdit) : Prop := ∃ bs, e.deed = .ok (.add h bs) ∧ b ∈ bs

def Drops (h : Word) (e : RuleEdit) : Prop := e.deed = .ok (.drop h)

def Removes (h b : Word) (e : RuleEdit) : Prop :=
  (∃ bs, e.deed = .ok (.remove h bs) ∧ b ∈ bs) ∨ e.Drops h

/-- The edit adds bodies to a head and lists the one before the other. -/
def ListsFirst (h : Word) (e : RuleEdit) (b c : Word) : Prop :=
  ∃ bs, e.deed = .ok (.add h bs) ∧ OccursFirst bs b c

end RuleEdit

def HeadStands (h : Word) : List RuleEdit → Prop := Lasts (RuleEdit.AddsTo h) (RuleEdit.Drops h)

def BodyStands (h b : Word) : List RuleEdit → Prop :=
  Lasts (RuleEdit.Adds h b) (RuleEdit.Removes h b)

/-- One head last came about before another. No edit adds to two heads. -/
def HeadBefore : List RuleEdit → Word → Word → Prop := Before HeadStands fun _ _ _ => False

def BodyBefore (h : Word) : List RuleEdit → Word → Word → Prop :=
  Before (BodyStands h) (RuleEdit.ListsFirst h)

end

def Deed.apply (d : Deed) (m : OrderedMap Word Bodies) : OrderedMap Word Bodies :=
  match d with
  | .add h bs => (m.insertNew h .empty).modify h fun s => OrderedSet.insertAll s bs
  | .remove h bs => m.modify h fun s => OrderedSet.eraseAll s bs
  | .drop h => m.erase h

/-! ## One set of bodies -/

theorem OrderedSet.toList_insertAll {α : Type} [DecidableEq α] (as : List α) :
    ∀ s : OrderedSet α, ∃ new, (s.insertAll as).toList = s.toList ++ new ∧
      (∀ a ∈ new, a ∉ s.toList) ∧ new.Pairwise (OccursFirst as) := by
  induction as with
  | nil => intro s; exact ⟨[], by simp⟩
  | cons a as ih =>
    intro s
    by_cases ha : a ∈ s.toList
    · obtain ⟨new, heq, hmem, hnew⟩ := ih s
      refine ⟨new, by rw [insertAll_cons, insert_of_mem ha, heq], hmem, ?_⟩
      refine hnew.imp_of_mem ?_
      intro b c _ hc h
      exact h.cons fun hca => hmem c hc (hca ▸ ha)
    · obtain ⟨new, heq, hmem, hnew⟩ := ih (s.insert a)
      rw [insert_of_notMem ha] at heq hmem
      have hne : ∀ c ∈ new, c ≠ a := fun c hc hca => hmem c hc (by simp [hca])
      refine ⟨a :: new, by rw [insertAll_cons, insert_of_notMem ha, heq]; simp, ?_, ?_⟩
      · intro c hc
        rcases List.mem_cons.1 hc with rfl | hc
        · exact ha
        · exact fun hs => hmem c hc (by simp [hs])
      · refine List.pairwise_cons.2 ⟨fun c hc => .head as (hne c hc), ?_⟩
        refine hnew.imp_of_mem ?_
        intro b c _ hc h
        exact h.cons (hne c hc)

/-! ## One deed -/

namespace Deed

variable {m : OrderedMap Word Bodies} {d : Deed} {k b : Word}

theorem get?_add (m : OrderedMap Word Bodies) (h : Word) (bs : List Word) (k : Word) :
    ((add h bs).apply m).get? k =
      if k = h then some (OrderedSet.insertAll ((m.get? k).getD .empty) bs) else m.get? k := by
  simp only [apply]
  rw [OrderedMap.get?_modify, OrderedMap.get?_insertNew]
  by_cases hk : k = h
  · subst hk
    cases hs : m.get? k with
    | none => simp [OrderedMap.get?_eq_none_iff.1 hs]
    | some s =>
      have hmem : k ∈ m.keys := OrderedMap.get?_isSome_iff.1 (by rw [hs]; rfl)
      simp [hmem]
  · simp [hk]

theorem get?_remove (m : OrderedMap Word Bodies) (h : Word) (bs : List Word) (k : Word) :
    ((remove h bs).apply m).get? k =
      if k = h then (m.get? k).map (fun s => OrderedSet.eraseAll s bs) else m.get? k :=
  OrderedMap.get?_modify m h _ k

theorem get?_drop (m : OrderedMap Word Bodies) (h k : Word) :
    ((drop h).apply m).get? k = if k = h then none else m.get? k := OrderedMap.get?_erase m h k

/-- Of the heads that were there, those that stay keep their order; a new one goes to the end. -/
theorem keys_apply (d : Deed) (m : OrderedMap Word Bodies) :
    ∃ old new, (d.apply m).keys = old ++ new ∧ old.Sublist m.keys ∧ (∀ k ∈ new, k ∉ m.keys) ∧
      new.Pairwise fun _ _ => False := by
  cases d with
  | add h bs =>
    by_cases hh : h ∈ m.keys
    · exact ⟨m.keys, [], by simp [apply, OrderedMap.keys_insertNew, hh]⟩
    · exact ⟨m.keys, [h], by simp [apply, OrderedMap.keys_insertNew, hh]⟩
  | remove h bs => exact ⟨m.keys, [], by simp [apply]⟩
  | drop h =>
    refine ⟨(m.erase h).keys, [], by simp [apply], ?_, by simp⟩
    rw [OrderedMap.keys_erase]
    exact List.filter_sublist

theorem mem_keys_apply :
    k ∈ (d.apply m).keys ↔ (∃ bs, d = .add k bs) ∨ k ∈ m.keys ∧ d ≠ .drop k := by
  cases d with
  | add h bs =>
    by_cases hh : h ∈ m.keys
    · simp only [apply, OrderedMap.keys_modify, OrderedMap.insertNew_of_mem hh]
      constructor
      · intro hk
        exact .inr ⟨hk, by simp⟩
      · rintro (⟨bs', heq⟩ | ⟨hk, -⟩)
        · cases heq
          exact hh
        · exact hk
    · simp only [apply, OrderedMap.keys_modify, OrderedMap.keys_insertNew, if_neg hh]
      simp [or_comm, eq_comm (a := k)]
  | remove h bs => simp [apply]
  | drop h => simp [apply, OrderedMap.keys_erase, eq_comm (a := k)]

theorem bodies_apply {s : Bodies} (h : (d.apply m).get? k = some s) :
    ∃ old new, s.toList = old ++ new ∧ old.Sublist ((m.get? k).getD .empty).toList ∧
      (∀ b ∈ new, ¬HasBody m k b) ∧
      new.Pairwise fun b c => ∃ bs, d = .add k bs ∧ OccursFirst bs b c := by
  have hkept : m.get? k = some s → ∃ old new, s.toList = old ++ new ∧
      old.Sublist ((m.get? k).getD .empty).toList ∧ (∀ b ∈ new, ¬HasBody m k b) ∧
      new.Pairwise fun b c => ∃ bs, d = .add k bs ∧ OccursFirst bs b c := by
    intro hs
    exact ⟨s.toList, [], by simp [hs]⟩
  cases d with
  | add j bs =>
    rw [get?_add] at h
    by_cases hk : k = j
    · subst hk
      rw [if_pos rfl] at h
      cases h
      obtain ⟨new, heq, hmem, hnew⟩ :=
        OrderedSet.toList_insertAll bs ((m.get? k).getD .empty)
      refine ⟨_, new, heq, List.Sublist.refl _, ?_, ?_⟩
      · rintro b hb ⟨s, hs, hbs⟩
        rw [hs] at hmem
        exact hmem b hb hbs
      · exact hnew.imp fun hfirst => ⟨bs, rfl, hfirst⟩
    · rw [if_neg hk] at h
      exact hkept h
  | remove j bs =>
    rw [get?_remove] at h
    by_cases hk : k = j
    · rw [if_pos hk] at h
      obtain ⟨s', hs', rfl⟩ := Option.map_eq_some_iff.1 h
      refine ⟨(OrderedSet.eraseAll s' bs).toList, [], by simp, ?_, by simp⟩
      rw [hs']
      exact OrderedSet.sublist_eraseAll bs s'
    · rw [if_neg hk] at h
      exact hkept h
  | drop j =>
    rw [get?_drop] at h
    split at h
    · cases h
    · exact hkept h

theorem hasBody_apply (hm : WellFormedRules m) :
    HasBody (d.apply m) k b ↔ (∃ bs, d = .add k bs ∧ b ∈ bs) ∨
      HasBody m k b ∧ ¬((∃ bs, d = .remove k bs ∧ b ∈ bs) ∨ d = .drop k) := by
  unfold HasBody
  cases d with
  | add j bs =>
    rw [get?_add]
    by_cases hk : k = j
    · subst hk
      cases hs : m.get? k with
      | none => simp [OrderedSet.mem_insertAll, OrderedSet.empty]
      | some s => simp [OrderedSet.mem_insertAll, or_comm]
    · simp [hk, Ne.symm hk]
  | remove j bs =>
    rw [get?_remove]
    by_cases hk : k = j
    · subst hk
      cases hs : m.get? k with
      | none => simp
      | some s => simp [OrderedSet.mem_eraseAll (hm.of_get? hs).2.nodup]
    · simp [hk, Ne.symm hk]
  | drop j =>
    rw [get?_drop]
    by_cases hk : k = j
    · simp [hk]
    · simp [hk, Ne.symm hk]

end Deed

namespace FrozenRules

variable {r : FrozenRules} {h : Word} {bs : List Word}

theorem rules_on_addHead (hh : Word.IsNormal h) :
    ((r.addHead h).on r).rules = (Deed.add h []).apply r.rules := by
  have hnormal : Word.normalize h = h := hh
  have hadd : ((Relation.mk r.rules).addProduction h []).rules =
      (Deed.add h []).apply r.rules := by
    simp only [Relation.addProduction, Relation.addHead, Deed.apply, hnormal, List.map_nil]
  rw [on_addHead, ← hadd]
  simp [Relation.addProduction, OrderedMap.modify]

theorem rules_on_addProduction (hr : WellFormedRules r.rules) (hh : Word.IsNormal h)
    (hbs : ∀ b ∈ bs, Word.IsNormal b) :
    ((r.addProduction h bs).on r).rules = (Deed.add h bs).apply r.rules := by
  have hnormal : Word.normalize h = h := hh
  rw [on_addProduction hr]
  simp only [Relation.addProduction, Relation.addHead, Deed.apply, hnormal,
    Word.map_normalize hbs]

theorem rules_on_removeProduction (hr : WellFormedRules r.rules) (hh : Word.IsNormal h)
    (hbs : ∀ b ∈ bs, Word.IsNormal b) :
    ((r.removeProduction h bs).on r).rules = (Deed.remove h bs).apply r.rules := by
  have hnormal : Word.normalize h = h := hh
  cases hold : r.rules.get? h with
  | none =>
    rw [removeProduction_missing (by rw [hnormal, hold])]
    simp only [Deed.apply, OrderedMap.modify_of_notMem (OrderedMap.get?_eq_none_iff.1 hold)]
    rfl
  | some old =>
    have hget : r.rules.get? (Word.normalize h) = some old := by rw [hnormal, hold]
    rw [on_removeProduction hr hget, hnormal, Word.map_normalize hbs, Deed.apply,
      OrderedMap.modify_eq_set hr.nodup hold]

theorem apply_remove_missing (hh : ¬r.rules.contains h = true) (bs : List Word) :
    (Deed.remove h bs).apply r.rules = r.rules := by
  simp only [Deed.apply]
  exact OrderedMap.modify_of_notMem (fun hk => hh (OrderedMap.contains_iff.2 hk)) _

end FrozenRules

section

variable [Host]

/-! ## Rules and their history -/

/-- The rules are what a run of edits left. -/
structure Tells (es : List RuleEdit) (m : OrderedMap Word Bodies) : Prop where
  keys : ∀ h, h ∈ m.keys ↔ HeadStands h es
  bodies : ∀ h b, HasBody m h b ↔ BodyStands h b es
  keys_order : m.keys.Pairwise (HeadBefore es)
  bodies_order : ∀ h s, m.get? h = some s → s.toList.Pairwise (BodyBefore h es)

theorem tells_nil : Tells [] .empty where
  keys h := by simp [HeadStands, not_lasts_nil, OrderedMap.keys, OrderedMap.empty]
  bodies h b := by simp [HasBody, BodyStands, not_lasts_nil, OrderedMap.get?, OrderedMap.empty]
  keys_order := .nil
  bodies_order h s hs := by cases hs

theorem Tells.step {es : List RuleEdit} {m : OrderedMap Word Bodies} (h : Tells es m)
    (hm : WellFormedRules m) {e : RuleEdit} {d : Deed} (hd : e.deed = .ok d) :
    Tells (es ++ [e]) (d.apply m) := by
  have hkeys : ∀ k, k ∈ (d.apply m).keys ↔ HeadStands k (es ++ [e]) := by
    intro k
    rw [Deed.mem_keys_apply, HeadStands, lasts_concat, h.keys]
    simp [HeadStands, RuleEdit.AddsTo, RuleEdit.Drops, hd]
  have hbodies : ∀ k b, HasBody (d.apply m) k b ↔ BodyStands k b (es ++ [e]) := by
    intro k b
    rw [Deed.hasBody_apply hm, BodyStands, lasts_concat, h.bodies]
    simp [BodyStands, RuleEdit.Adds, RuleEdit.Removes, RuleEdit.Drops, hd]
  refine ⟨hkeys, hbodies, ?_, ?_⟩
  · obtain ⟨old, new, heq, hsub, hnew, hfirst⟩ := Deed.keys_apply d m
    rw [heq] at hkeys ⊢
    apply pairwise_before_concat
    case hnil => exact fun k => not_lasts_nil
    case hold => exact h.keys_order.sublist hsub
    case hstood => exact fun k hk => (h.keys k).1 (hsub.subset hk)
    case hstay => exact fun k hk => (hkeys k).1 (List.mem_append_left new hk)
    case hnew =>
      intro k hk
      exact ⟨fun hs => hnew k hk ((h.keys k).2 hs), (hkeys k).1 (List.mem_append_right old hk)⟩
    case hfirst => exact hfirst
  · intro k s hs
    obtain ⟨old, new, heq, hsub, hnew, hfirst⟩ := Deed.bodies_apply hs
    have hstand : ∀ b ∈ s.toList, BodyStands k b (es ++ [e]) := by
      intro b hb
      exact (hbodies k b).1 ⟨s, hs, hb⟩
    have hold : ∀ b ∈ ((m.get? k).getD .empty).toList, BodyStands k b es := by
      intro b hb
      cases hs' : m.get? k with
      | none => rw [hs'] at hb; cases hb
      | some s' =>
        rw [hs'] at hb
        exact (h.bodies k b).1 ⟨s', hs', hb⟩
    have horder : ((m.get? k).getD .empty).toList.Pairwise (BodyBefore k es) := by
      cases hs' : m.get? k with
      | none => exact .nil
      | some s' => exact h.bodies_order k s' hs'
    rw [heq] at hstand ⊢
    apply pairwise_before_concat
    case hnil => exact fun b => not_lasts_nil
    case hold => exact horder.sublist hsub
    case hstood => exact fun b hb => hold b (hsub.subset hb)
    case hstay => exact fun b hb => hstand b (List.mem_append_left new hb)
    case hnew =>
      intro b hb
      exact ⟨fun hb' => hnew b hb ((h.bodies k b).2 hb'), hstand b (List.mem_append_right old hb)⟩
    case hfirst =>
      refine hfirst.imp ?_
      rintro b c ⟨bs, rfl, hbc⟩
      exact ⟨bs, hd, hbc⟩

/-! ## Edits as deeds -/

theorem Value.listedWords_of_words {v : Value} {vs : List Value} {ws : List Word}
    (hvs : v.elements = .ok vs) (hws : Value.toWords vs = .ok ws) : v.listedWords = ws := by
  simp only [listedWords, hvs, hws]

namespace FrozenRules

variable {r : FrozenRules}

theorem rules_on_apply (hr : WellFormedRules r.rules) {e : RuleEdit} {u : Update FrozenRules}
    (hu : r.apply e = .ok u) : ∃ d, e.deed = .ok d ∧ (u.on r).rules = d.apply r.rules := by
  cases e with
  | addHead head =>
    simp only [apply, bind_eq_ok_iff] at hu
    obtain ⟨h, hhead, hu⟩ := hu
    cases hu
    have hdeed : (RuleEdit.addHead head).deed = .ok (.add h []) := by
      simp only [RuleEdit.deed, bind_eq_ok_iff]
      exact ⟨h, hhead, rfl⟩
    exact ⟨_, hdeed, rules_on_addHead (Value.isNormal_of_toWord hhead)⟩
  | removeHead head =>
    simp only [apply, bind_eq_ok_iff] at hu
    obtain ⟨h, hhead, hu⟩ := hu
    cases hu
    have hdeed : (RuleEdit.removeHead head).deed = .ok (.drop h) := by
      simp only [RuleEdit.deed, bind_eq_ok_iff]
      exact ⟨h, hhead, rfl⟩
    have hnormal : Word.normalize h = h := Value.isNormal_of_toWord hhead
    exact ⟨_, hdeed, by rw [on_removeHead, hnormal]; rfl⟩
  | addBody head body =>
    simp only [apply, bind_eq_ok_iff] at hu
    obtain ⟨h, hhead, b, hbody, hu⟩ := hu
    cases hu
    have hdeed : (RuleEdit.addBody head body).deed = .ok (.add h [b]) := by
      simp only [RuleEdit.deed, bind_eq_ok_iff]
      exact ⟨h, hhead, b, hbody, rfl⟩
    have hb : ∀ w ∈ [b], Word.IsNormal w := by simpa using Value.isNormal_of_toWord hbody
    exact ⟨_, hdeed, rules_on_addProduction hr (Value.isNormal_of_toWord hhead) hb⟩
  | removeBody head body =>
    simp only [apply, bind_eq_ok_iff] at hu
    obtain ⟨h, hhead, hu⟩ := hu
    have hdeed : (RuleEdit.removeBody head body).deed =
        .ok (.remove h (Value.list [body]).listedWords) := by
      simp only [RuleEdit.deed, bind_eq_ok_iff]
      exact ⟨h, hhead, rfl⟩
    refine ⟨_, hdeed, ?_⟩
    split at hu
    · obtain ⟨b, hbody, hu⟩ := bind_eq_ok_iff.1 hu
      cases hu
      have hb : ∀ w ∈ [b], Word.IsNormal w := by simpa using Value.isNormal_of_toWord hbody
      have hwords : Value.toWords [body] = .ok [b] := by simp only [Value.toWords, hbody]
      rw [Value.listedWords_of_words rfl hwords]
      exact rules_on_removeProduction hr (Value.isNormal_of_toWord hhead) hb
    · rename_i hmissing
      cases hu
      exact (apply_remove_missing hmissing _).symm
  | addProduction head bodies =>
    simp only [apply, bind_eq_ok_iff] at hu
    obtain ⟨h, hhead, vs, hvs, bs, hbs, hu⟩ := hu
    cases hu
    have hdeed : (RuleEdit.addProduction head bodies).deed = .ok (.add h bs) := by
      simp only [RuleEdit.deed, bind_eq_ok_iff]
      exact ⟨h, hhead, vs, hvs, bs, hbs, rfl⟩
    exact ⟨_, hdeed, rules_on_addProduction hr (Value.isNormal_of_toWord hhead)
      (Value.isNormal_of_toWords hbs)⟩
  | removeProduction head bodies =>
    simp only [apply, bind_eq_ok_iff] at hu
    obtain ⟨h, hhead, hu⟩ := hu
    have hdeed : (RuleEdit.removeProduction head bodies).deed =
        .ok (.remove h bodies.listedWords) := by
      simp only [RuleEdit.deed, bind_eq_ok_iff]
      exact ⟨h, hhead, rfl⟩
    refine ⟨_, hdeed, ?_⟩
    split at hu
    · simp only [bind_eq_ok_iff] at hu
      obtain ⟨vs, hvs, bs, hbs, hu⟩ := hu
      cases hu
      rw [Value.listedWords_of_words hvs hbs]
      exact rules_on_removeProduction hr (Value.isNormal_of_toWord hhead)
        (Value.isNormal_of_toWords hbs)
    · rename_i hmissing
      cases hu
      exact (apply_remove_missing hmissing _).symm

def run (r : FrozenRules) : List RuleEdit → Except ArgumentError FrozenRules
  | [] => .ok r
  | e :: es =>
    match r.apply e with
    | .error err => .error err
    | .ok u => (u.on r).run es

/-- What a run leaves is what its edits tell, after those that made the rules it starts from. -/
theorem tells_of_run {es : List RuleEdit} :
    ∀ {past : List RuleEdit} {r t : FrozenRules}, WellFormedRules r.rules → Tells past r.rules →
      r.run es = .ok t → WellFormedRules t.rules ∧ Tells (past ++ es) t.rules := by
  induction es with
  | nil =>
    intro past r t hr hpast h
    cases h
    rw [List.append_nil]
    exact ⟨hr, hpast⟩
  | cons e es ih =>
    intro past r t hr hpast h
    simp only [run] at h
    split at h
    · cases h
    · rename_i u hu
      obtain ⟨d, hd, hrules⟩ := rules_on_apply hr hu
      have hstep := hpast.step hr hd
      rw [← hrules] at hstep
      have hrest := ih (wellFormed_apply hr hu) hstep h
      rwa [List.append_assoc] at hrest

end FrozenRules

/-- The relation after some edits in place, all of which succeed, or the first error. -/
def Relation.run (r : Relation) : List RuleEdit → Except EditError Relation
  | [] => .ok r
  | e :: es =>
    match r.apply e with
    | (_, some err) => .error err
    | (t, none) => t.run es

theorem Relation.run_frozen {es : List RuleEdit} :
    ∀ {r t : Relation}, WellFormedRules r.rules → r.run es = .ok t →
      FrozenRules.run ⟨r.rules⟩ es = .ok ⟨t.rules⟩ := by
  induction es with
  | nil => intro r t _ h; cases h; rfl
  | cons e es ih =>
    intro r t hr h
    simp only [run] at h
    split at h
    · cases h
    · rename_i t' ht'
      obtain ⟨u, hu, hon⟩ := FrozenRules.apply_of_ok hr (e := e) (by rw [ht'])
      have hwf := wellFormed_apply hr e
      rw [ht'] at hon hwf
      simp only [FrozenRules.run, hu, hon]
      exact ih hwf h

/-! ## What rules list -/

/-- The heads that are listed, and their bodies, are those that a run added and did not take away
since, in the order in which they last came about. -/
structure Recorded (es : List RuleEdit) (items : List (Word × List Word)) : Prop where
  heads : ∀ h, h ∈ items.map (fun r => r.1) ↔ HeadStands h es
  bodies : ∀ h b, (∃ r ∈ items, r.1 = h ∧ b ∈ r.2) ↔ BodyStands h b es
  heads_order : (items.map fun r => r.1).Pairwise (HeadBefore es)
  bodies_order : ∀ r ∈ items, r.2.Pairwise (BodyBefore r.1 es)

theorem Tells.recorded {es : List RuleEdit} {m : OrderedMap Word Bodies} (h : Tells es m)
    (hm : WellFormedRules m) : Recorded es (m.entries.map fun e => (e.1, e.2.toList)) := by
  have hheads : (m.entries.map fun e => (e.1, e.2.toList)).map (fun r => r.1) = m.keys := by
    rw [List.map_map]
    rfl
  constructor
  case heads =>
    intro k
    rw [hheads]
    exact h.keys k
  case bodies =>
    intro k b
    rw [← h.bodies]
    constructor
    · rintro ⟨r, hr, rfl, hb⟩
      obtain ⟨e, he, rfl⟩ := List.mem_map.1 hr
      exact ⟨e.2, OrderedMap.get?_of_mem hm.nodup he, hb⟩
    · rintro ⟨s, hs, hb⟩
      exact ⟨(k, s.toList), List.mem_map.2 ⟨(k, s), OrderedMap.mem_entries_of_get? hs, rfl⟩, rfl,
        hb⟩
  case heads_order =>
    rw [hheads]
    exact h.keys_order
  case bodies_order =>
    intro r hr
    obtain ⟨e, he, rfl⟩ := List.mem_map.1 hr
    exact h.bodies_order e.1 e.2 (OrderedMap.get?_of_mem hm.nodup he)

/-- A run of edits that all succeed, in place or on frozen rules, leaves what it tells. -/
theorem recorded_of_run (es : List RuleEdit) :
    (∀ r, Relation.empty.run es = .ok r → Recorded es r.items) ∧
      ∀ r, FrozenRules.empty.run es = .ok r → Recorded es r.items := by
  have hfrozen : ∀ r, FrozenRules.empty.run es = .ok r → Recorded es r.items := by
    intro r h
    obtain ⟨hr, htells⟩ := FrozenRules.tells_of_run .empty tells_nil h
    exact htells.recorded hr
  refine ⟨fun r h => ?_, hfrozen⟩
  exact hfrozen ⟨r.rules⟩ (Relation.run_frozen .empty h)

end

/-- A run that takes a head and a body away and brings both back. -/
def backAndForth : List RuleEdit := [
  .addHead (.text "B"),
  .addProduction (.text "A") (.list [.text "a", .list [], .text "a", .text "b"]),
  .removeHead (.text "B"),
  .removeProduction (.text "A") (.text "ab"),
  .addProduction (.list [.text "B"]) (.list []),
  .addProduction (.text "A") (.list [.text "ε", .text "b", .list [.text "a"]])]

section

open scoped Host

theorem recorded_backAndForth :
    ∃ r, Relation.empty.run backAndForth = .ok r ∧
      r.items = [([⟨"A"⟩], [Word.empty, [⟨"b"⟩], [⟨"a"⟩]]), ([⟨"B"⟩], [])] ∧
      HeadBefore backAndForth [⟨"A"⟩] [⟨"B"⟩] ∧
      BodyBefore [⟨"A"⟩] backAndForth Word.empty [⟨"b"⟩] ∧
      BodyBefore [⟨"A"⟩] backAndForth [⟨"b"⟩] [⟨"a"⟩] := by
  obtain ⟨r, hr⟩ : ∃ r, Relation.empty.run backAndForth = .ok r := ⟨_, rfl⟩
  have hrecorded := (recorded_of_run backAndForth).1 r hr
  have hitems : r.items = [([⟨"A"⟩], [Word.empty, [⟨"b"⟩], [⟨"a"⟩]]), ([⟨"B"⟩], [])] := by
    cases hr
    decide +kernel
  rw [hitems] at hrecorded
  have hheads := hrecorded.heads_order
  have hbodies := hrecorded.bodies_order _ List.mem_cons_self
  simp only [List.map_cons, List.map_nil, List.pairwise_cons] at hheads hbodies
  exact ⟨r, hr, hitems, hheads.1 _ (by simp), hbodies.1 _ (by simp), hbodies.2.1 _ (by simp)⟩

end

end PhraseGrammar
