import PhraseGrammar.Proofs.Classification
import PhraseGrammar.Proofs.Documents
import PhraseGrammar.Proofs.Lockstep

/-!
# PhraseGrammar.Proofs.Merging

What rules are built from is a set of facts: the order of the pairs, their repetitions, and the way
bodies are split over pairs with the same head leave no trace but the order of the result.

* `Mentions`, `States`: the heads that some pairs speak of, and the bodies that they give a head.
* `SameFacts`: two lists of pairs mention the same heads and state the same bodies.
* `HasBody`: a head has a body. `Relation.same_iff`: equality up to order is having the same heads
  and bodies.
* `Grammar.SameParts`: the scalar parts are equal, and the collections have the same elements.
  `Grammar.same_iff`: that is what the comparison tests.
* `Relation.addRules`: rules merged into a relation. `Relation.addRules_items`: it does not matter
  whether they were merged with one another before.
* `View.classify_congr`: the type of a grammar depends on nothing else of its rules.
* `Record.Agrees`: two records differ in the order and the grouping of what they list.

`same_iff_sameFacts` is the result for pairs of arguments and for documents.
-/

namespace PhraseGrammar

/-- Some pair has the head. -/
def Mentions (pairs : List (Word × List Word)) (head : Word) : Prop :=
  ∃ p ∈ pairs, head = Word.normalize p.1

/-- Some pair has the head, and the body among its bodies. -/
def States (pairs : List (Word × List Word)) (head body : Word) : Prop :=
  ∃ p ∈ pairs, head = Word.normalize p.1 ∧ body ∈ p.2.map Word.normalize

/-- Two lists of pairs say the same of words in normal form. -/
structure SameFacts (ps qs : List (Word × List Word)) : Prop where
  heads : ∀ h, Mentions ps h ↔ Mentions qs h
  bodies : ∀ h b, States ps h b ↔ States qs h b

theorem mentions_cons {p : Word × List Word} {ps : List (Word × List Word)} {h : Word} :
    Mentions (p :: ps) h ↔ h = Word.normalize p.1 ∨ Mentions ps h := by
  simp [Mentions]

theorem states_cons {p : Word × List Word} {ps : List (Word × List Word)} {h b : Word} :
    States (p :: ps) h b ↔
      h = Word.normalize p.1 ∧ b ∈ p.2.map Word.normalize ∨ States ps h b := by
  simp [States]

def HasBody (m : OrderedMap Word Bodies) (head body : Word) : Prop :=
  ∃ s, m.get? head = some s ∧ body ∈ s.toList

theorem HasBody.mem_keys {m : OrderedMap Word Bodies} {h b : Word} (hb : HasBody m h b) :
    h ∈ m.keys := by
  obtain ⟨s, hs, -⟩ := hb
  rw [← OrderedMap.get?_isSome_iff, hs]
  rfl

theorem hasBody_iff_of_get? {m : OrderedMap Word Bodies} {h : Word} {s : Bodies}
    (hs : m.get? h = some s) (b : Word) : HasBody m h b ↔ b ∈ s.toList := by
  simp [HasBody, hs]

/-! ## Equality up to order -/

/-- The same heads, and the same bodies of each. -/
def SameContents (m n : OrderedMap Word Bodies) : Prop :=
  (∀ h, h ∈ m.keys ↔ h ∈ n.keys) ∧ ∀ h b, HasBody m h b ↔ HasBody n h b

namespace SameContents

variable {m n k : OrderedMap Word Bodies}

theorem refl (m : OrderedMap Word Bodies) : SameContents m m :=
  ⟨fun _ => Iff.rfl, fun _ _ => Iff.rfl⟩

theorem symm (h : SameContents m n) : SameContents n m :=
  ⟨fun w => (h.1 w).symm, fun w b => (h.2 w b).symm⟩

theorem trans (h : SameContents m n) (h' : SameContents n k) : SameContents m k :=
  ⟨fun w => (h.1 w).trans (h'.1 w), fun w b => (h.2 w b).trans (h'.2 w b)⟩

end SameContents

theorem Relation.same_iff {r t : Relation} (hr : r.rules.keys.Nodup) :
    r.same t = true ↔ SameContents r.rules t.rules := by
  have hall : r.same t = true ↔
      ((∀ h ∈ r.rules.keys, h ∈ t.rules.keys) ∧ ∀ h ∈ t.rules.keys, h ∈ r.rules.keys) ∧
        ∀ e ∈ r.rules.entries, ∃ s, t.rules.get? e.1 = some s ∧ e.2.sameElements s = true := by
    simp only [same, heads, Bool.and_eq_true, List.all_eq_true, OrderedMap.contains_iff]
    refine and_congr_right fun _ => forall_congr' fun e => forall_congr' fun _ => ?_
    cases t.rules.get? e.1 <;> simp
  rw [hall]
  constructor
  · rintro ⟨⟨hrt, htr⟩, hbodies⟩
    refine ⟨fun h => ⟨hrt h, htr h⟩, fun h b => ?_⟩
    by_cases hh : h ∈ r.rules.keys
    · obtain ⟨s, hs⟩ := OrderedMap.exists_get?_of_mem hh
      obtain ⟨s', hs', hsame⟩ := hbodies (h, s) (OrderedMap.mem_entries_of_get? hs)
      rw [hasBody_iff_of_get? hs, hasBody_iff_of_get? hs']
      exact OrderedSet.sameElements_iff.1 hsame b
    · exact ⟨fun hb => absurd hb.mem_keys hh, fun hb => absurd (htr h hb.mem_keys) hh⟩
  · rintro ⟨hheads, hbodies⟩
    refine ⟨⟨fun h => (hheads h).1, fun h => (hheads h).2⟩, ?_⟩
    intro e he
    have hs : r.rules.get? e.1 = some e.2 := OrderedMap.get?_of_mem hr he
    obtain ⟨s', hs'⟩ := OrderedMap.exists_get?_of_mem ((hheads e.1).1 (List.mem_map_of_mem he))
    refine ⟨s', hs', OrderedSet.sameElements_iff.2 fun b => ?_⟩
    rw [← hasBody_iff_of_get? hs, ← hasBody_iff_of_get? hs']
    exact hbodies e.1 b

/-- Equal scalar parts, alphabets with the same symbols, and rules with the same contents. -/
structure Grammar.SameParts (g h : Grammar) : Prop where
  id : g.id = h.id
  start : g.start = h.start
  name : g.name = h.name
  type : g.type = h.type
  terminals : ∀ s, s ∈ g.terminals.toList ↔ s ∈ h.terminals.toList
  nonterminals : ∀ s, s ∈ g.nonterminals.toList ↔ s ∈ h.nonterminals.toList
  rules : SameContents g.relation.rules h.relation.rules

namespace Grammar

variable {g h k : Grammar}

theorem SameParts.refl (g : Grammar) : g.SameParts g :=
  ⟨rfl, rfl, rfl, rfl, fun _ => Iff.rfl, fun _ => Iff.rfl, .refl _⟩

theorem SameParts.symm (e : g.SameParts h) : h.SameParts g :=
  ⟨e.id.symm, e.start.symm, e.name.symm, e.type.symm, fun s => (e.terminals s).symm,
    fun s => (e.nonterminals s).symm, e.rules.symm⟩

theorem SameParts.trans (e : g.SameParts h) (e' : h.SameParts k) : g.SameParts k :=
  ⟨e.id.trans e'.id, e.start.trans e'.start, e.name.trans e'.name, e.type.trans e'.type,
    fun s => (e.terminals s).trans (e'.terminals s),
    fun s => (e.nonterminals s).trans (e'.nonterminals s), e.rules.trans e'.rules⟩

theorem same_iff (hg : g.WellFormed) : g.same h = true ↔ g.SameParts h := by
  simp only [same, Bool.and_eq_true, beq_iff_eq, OrderedSet.sameElements_iff,
    Relation.same_iff hg.rules.nodup]
  constructor
  · rintro ⟨⟨⟨⟨⟨⟨hid, hstart⟩, hname⟩, htype⟩, hterminals⟩, hnonterminals⟩, hrules⟩
    exact ⟨hid, hstart, hname, htype, hterminals, hnonterminals, hrules⟩
  · intro e
    exact ⟨⟨⟨⟨⟨⟨e.id, e.start⟩, e.name⟩, e.type⟩, e.terminals⟩, e.nonterminals⟩, e.rules⟩

end Grammar

theorem FrozenRules.same_eq {m n : OrderedMap Word Bodies} (hm : WellFormedRules m)
    (hn : WellFormedRules n) : FrozenRules.same ⟨m⟩ ⟨n⟩ = Relation.same ⟨m⟩ ⟨n⟩ := by
  have hbodies : ∀ {k : OrderedMap Word Bodies}, WellFormedRules k → ∀ h ∈ k.keys, ∀ b,
      b ∈ FrozenRules.bodies ⟨k⟩ h ↔ HasBody k h b := by
    intro k hk h hh b
    obtain ⟨s, hs⟩ := OrderedMap.exists_get?_of_mem hh
    have hnormal : Word.normalize h = h := (hk.of_get? hs).1
    simp only [bodies, hnormal, hs, hasBody_iff_of_get? hs]
  rw [Bool.eq_iff_iff, Relation.same_iff hm.nodup]
  simp only [same, heads, Bool.and_eq_true, List.all_eq_true, OrderedMap.contains_iff,
    List.contains_iff_mem]
  constructor
  · rintro ⟨⟨hmn, hnm⟩, hall⟩
    refine ⟨fun h => ⟨hmn h, hnm h⟩, fun h b => ?_⟩
    by_cases hh : h ∈ m.keys
    · rw [← hbodies hm h hh, ← hbodies hn h (hmn h hh)]
      exact ⟨(hall h hh).1 b, (hall h hh).2 b⟩
    · exact ⟨fun hb => absurd hb.mem_keys hh, fun hb => absurd (hnm h hb.mem_keys) hh⟩
  · rintro ⟨hheads, hall⟩
    refine ⟨⟨fun h => (hheads h).1, fun h => (hheads h).2⟩, ?_⟩
    intro h hh
    have hb : ∀ b, b ∈ FrozenRules.bodies ⟨m⟩ h ↔ b ∈ FrozenRules.bodies ⟨n⟩ h := by
      intro b
      rw [hbodies hm h hh, hbodies hn h ((hheads h).1 hh)]
      exact hall h b
    exact ⟨fun b => (hb b).1, fun b => (hb b).2⟩

/-! ## What merging adds -/

namespace Relation

theorem get?_addProduction (r : Relation) (head : Word) (bodies : List Word) (h : Word) :
    (r.addProduction head bodies).rules.get? h =
      if h = Word.normalize head then
        some (OrderedSet.insertAll ((r.rules.get? h).getD .empty) (bodies.map Word.normalize))
      else r.rules.get? h := by
  unfold addProduction
  rw [OrderedMap.get?_modify]
  by_cases hh : h = Word.normalize head
  · subst hh
    rw [if_pos rfl, if_pos rfl, get?_addHead]
    rfl
  · rw [if_neg hh, if_neg hh, addHead, OrderedMap.get?_insertNew, if_neg fun c => hh c.1]

theorem keys_addProduction (r : Relation) (head : Word) (bodies : List Word) :
    (r.addProduction head bodies).rules.keys =
      if Word.normalize head ∈ r.rules.keys then r.rules.keys
      else r.rules.keys ++ [Word.normalize head] := by
  unfold addProduction addHead
  rw [OrderedMap.keys_modify, OrderedMap.keys_insertNew]
  by_cases h : Word.normalize head ∈ r.rules.keys <;> simp [h]

theorem mem_keys_addProduction {r : Relation} {head : Word} {bodies : List Word} {h : Word} :
    h ∈ (r.addProduction head bodies).rules.keys ↔
      h ∈ r.rules.keys ∨ h = Word.normalize head := by
  rw [keys_addProduction]
  split
  · rename_i hold
    constructor
    · exact .inl
    · rintro (hh | rfl)
      · exact hh
      · exact hold
  · simp

theorem hasBody_addProduction {r : Relation} {head : Word} {bodies : List Word} {h b : Word} :
    HasBody (r.addProduction head bodies).rules h b ↔
      HasBody r.rules h b ∨ h = Word.normalize head ∧ b ∈ bodies.map Word.normalize := by
  unfold HasBody
  rw [get?_addProduction]
  by_cases hh : h = Word.normalize head
  · rw [if_pos hh]
    cases hs : r.rules.get? h with
    | none => simp [hh, OrderedSet.mem_insertAll, OrderedSet.empty]
    | some s => simp [hh, OrderedSet.mem_insertAll]
  · rw [if_neg hh]
    simp [hh]

theorem mem_foldl_addProduction (ps : List (Word × List Word)) :
    ∀ (r : Relation),
      (∀ h, h ∈ (ps.foldl (fun r p => r.addProduction p.1 p.2) r).rules.keys ↔
        h ∈ r.rules.keys ∨ Mentions ps h) ∧
      ∀ h b, HasBody (ps.foldl (fun r p => r.addProduction p.1 p.2) r).rules h b ↔
        HasBody r.rules h b ∨ States ps h b := by
  induction ps with
  | nil => intro r; simp [Mentions, States]
  | cons p ps ih =>
    intro r
    obtain ⟨hheads, hbodies⟩ := ih (r.addProduction p.1 p.2)
    constructor
    · intro h
      rw [List.foldl_cons, hheads, mem_keys_addProduction, mentions_cons, or_assoc]
    · intro h b
      rw [List.foldl_cons, hbodies, hasBody_addProduction, states_cons, or_assoc]

theorem mem_keys_ofPairs {ps : List (Word × List Word)} {h : Word} :
    h ∈ (ofPairs ps).rules.keys ↔ Mentions ps h := by
  rw [ofPairs, (mem_foldl_addProduction ps empty).1 h]
  simp [empty, OrderedMap.empty, OrderedMap.keys]

theorem hasBody_ofPairs {ps : List (Word × List Word)} {h b : Word} :
    HasBody (ofPairs ps).rules h b ↔ States ps h b := by
  rw [ofPairs, (mem_foldl_addProduction ps empty).2 h b]
  simp [HasBody, empty, OrderedMap.empty, OrderedMap.get?]

/-- Two lists of pairs build the same contents exactly if they say the same. -/
theorem sameContents_ofPairs_iff {ps qs : List (Word × List Word)} :
    SameContents (ofPairs ps).rules (ofPairs qs).rules ↔ SameFacts ps qs := by
  simp only [SameContents, mem_keys_ofPairs, hasBody_ofPairs]
  exact ⟨fun h => ⟨h.1, h.2⟩, fun h => ⟨h.1, h.2⟩⟩

theorem same_ofPairs_iff {ps qs : List (Word × List Word)} :
    (ofPairs ps).same (ofPairs qs) = true ↔ SameFacts ps qs :=
  (same_iff (wellFormed_ofPairs ps).nodup).trans sameContents_ofPairs_iff

end Relation

theorem FrozenRules.same_ofPairs (ps qs : List (Word × List Word)) :
    (FrozenRules.ofPairs ps).same (FrozenRules.ofPairs qs) =
      (Relation.ofPairs ps).same (Relation.ofPairs qs) := by
  rw [FrozenRules.ofPairs_eq, FrozenRules.ofPairs_eq]
  exact FrozenRules.same_eq (Relation.wellFormed_ofPairs ps) (Relation.wellFormed_ofPairs qs)

/-! ## Rules merged into a relation -/

namespace Relation

def addRules (r : Relation) (rules : List (Word × List Word)) : Relation :=
  rules.foldl (fun r p => r.addProduction p.1 p.2) r

def bodiesIn (rules : List (Word × List Word)) (head : Word) : List Word :=
  rules.flatMap fun p => if head = Word.normalize p.1 then p.2.map Word.normalize else []

variable {r : Relation} {ps qs : List (Word × List Word)}

theorem addRules_append (r : Relation) (ps qs : List (Word × List Word)) :
    r.addRules (ps ++ qs) = (r.addRules ps).addRules qs := List.foldl_append

theorem ofPairs_append (ps qs : List (Word × List Word)) :
    ofPairs (ps ++ qs) = (ofPairs ps).addRules qs := addRules_append empty ps qs

theorem keys_addRules (r : Relation) (ps : List (Word × List Word)) :
    OrderedSet.mk (r.addRules ps).rules.keys =
      OrderedSet.insertAll ⟨r.rules.keys⟩ (ps.map fun p => Word.normalize p.1) := by
  induction ps generalizing r with
  | nil => rfl
  | cons p ps ih =>
    have hkeys : OrderedSet.mk (r.addProduction p.1 p.2).rules.keys =
        OrderedSet.insert ⟨r.rules.keys⟩ (Word.normalize p.1) := by
      rw [keys_addProduction]
      by_cases hk : Word.normalize p.1 ∈ r.rules.keys
      · rw [if_pos hk]
        exact (OrderedSet.insert_of_mem (s := ⟨r.rules.keys⟩) hk).symm
      · rw [if_neg hk]
        exact (OrderedSet.insert_of_notMem (s := ⟨r.rules.keys⟩) hk).symm
    rw [List.map_cons, OrderedSet.insertAll_cons, ← hkeys, ← ih]
    rfl

theorem bodies_addRules (r : Relation) (ps : List (Word × List Word)) (h : Word) :
    ((r.addRules ps).rules.get? h).getD .empty =
      OrderedSet.insertAll ((r.rules.get? h).getD .empty) (bodiesIn ps h) := by
  induction ps generalizing r with
  | nil => rfl
  | cons p ps ih =>
    have hbodies : ((r.addProduction p.1 p.2).rules.get? h).getD .empty =
        OrderedSet.insertAll ((r.rules.get? h).getD .empty)
          (if h = Word.normalize p.1 then p.2.map Word.normalize else []) := by
      rw [get?_addProduction]
      split <;> rfl
    have hcons : bodiesIn (p :: ps) h =
        (if h = Word.normalize p.1 then p.2.map Word.normalize else []) ++ bodiesIn ps h :=
      List.flatMap_cons
    rw [hcons, OrderedSet.insertAll_append, ← hbodies, ← ih]
    rfl

theorem addRules_congr (hr : WellFormedRules r.rules) (h : ofPairs ps = ofPairs qs) :
    r.addRules ps = r.addRules qs := by
  -- Added to no rules, both lists give the same sets, so they give them to any relation.
  have hempty : empty.addRules ps = empty.addRules qs := h
  have hkeys : (r.addRules ps).rules.keys = (r.addRules qs).rules.keys := by
    have hlists := congrArg (fun r : Relation => OrderedSet.mk r.rules.keys) hempty
    simp only [keys_addRules] at hlists
    have hset := OrderedSet.insertAll_congr hlists ⟨r.rules.keys⟩
    rw [← keys_addRules, ← keys_addRules] at hset
    exact congrArg OrderedSet.toList hset
  have hbodies : ∀ k, ((r.addRules ps).rules.get? k).getD .empty =
      ((r.addRules qs).rules.get? k).getD .empty := by
    intro k
    have hlists := congrArg (fun r : Relation => (r.rules.get? k).getD .empty) hempty
    simp only [bodies_addRules] at hlists
    rw [bodies_addRules, bodies_addRules]
    exact OrderedSet.insertAll_congr hlists _
  exact congrArg Relation.mk
    (OrderedMap.ext_getD (wellFormed_foldl_addProduction ps hr).nodup hkeys hbodies)

/-- Rules may be merged with one another before they are merged into a relation. -/
theorem addRules_items (hr : WellFormedRules r.rules) (ps : List (Word × List Word)) :
    r.addRules (ofPairs ps).items = r.addRules ps :=
  addRules_congr hr (ofPairs_items (wellFormed_ofPairs ps))

end Relation

section

variable [Host]

/-! ## Pairs of arguments -/

/-- The head and the bodies that a pair of arguments stands for. -/
def Value.toRule (v : Value) : Except ArgumentError (Word × List Word) := do
  let (head, bodies) ← v.toPair
  let h ← head.toWord
  let bs ← Value.toWords (← bodies.elements)
  return (h, bs)

theorem Value.toRule_eq_ok_iff {v : Value} {h : Word} {bs : List Word} :
    v.toRule = .ok (h, bs) ↔ ∃ head bodies vs, v.toPair = .ok (head, bodies) ∧
      head.toWord = .ok h ∧ bodies.elements = .ok vs ∧ Value.toWords vs = .ok bs := by
  simp only [toRule, bind_eq_ok_iff, Prod.exists]
  constructor
  · rintro ⟨head, bodies, hv, _, hhead, vs, hvs, _, hbs, hpair⟩
    cases hpair
    exact ⟨head, bodies, vs, hv, hhead, hvs, hbs⟩
  · rintro ⟨head, bodies, vs, hv, hhead, hvs, hbs⟩
    exact ⟨head, bodies, hv, h, hhead, vs, hvs, bs, hbs, rfl⟩

theorem Bodies.addEach_of_words {s : Bodies} {vs : List Value} {ws : List Word}
    (h : Value.toWords vs = .ok ws) : s.addEach vs = (OrderedSet.insertAll s ws, none) := by
  rw [addEach_eq, Value.toWords_eq_ok_iff.1 h]

theorem Relation.apply_addProduction {r : Relation} (hr : WellFormedRules r.rules)
    {head bodies : Value} {h : Word} {vs : List Value} {ws : List Word}
    (hhead : head.toWord = .ok h) (hvs : bodies.elements = .ok vs)
    (hws : Value.toWords vs = .ok ws) :
    r.apply (.addProduction head bodies) = (r.addProduction h ws, none) := by
  have hok : (r.addProductionOf h bodies).2 = none := by
    simp only [addProductionOf, hvs, Bodies.addEach_of_words hws, Option.map_none]
  obtain ⟨vs', ws', hvs', hws', heq⟩ := addProductionOf_ok hr (Value.isNormal_of_toWord hhead) hok
  rw [hvs] at hvs'
  cases hvs'
  rw [hws] at hws'
  cases hws'
  simp only [apply, hhead]
  exact Prod.ext heq hok

theorem FrozenRules.apply_addProduction {r : FrozenRules} {head bodies : Value} {h : Word}
    {vs : List Value} {ws : List Word} (hhead : head.toWord = .ok h)
    (hvs : bodies.elements = .ok vs) (hws : Value.toWords vs = .ok ws) :
    r.apply (.addProduction head bodies) = .ok (r.addProduction h ws) := by
  simp only [apply, hhead, hvs, hws, bind, Except.bind, pure, Except.pure]

theorem Relation.addPairs_of_rules {vs : List Value} :
    ∀ {r : Relation} {ps : List (Word × List Word)}, WellFormedRules r.rules →
      vs.mapM Value.toRule = .ok ps →
      r.addPairs vs = .ok (ps.foldl (fun r p => r.addProduction p.1 p.2) r) := by
  induction vs with
  | nil => intro r ps _ h; cases h; rfl
  | cons v vs ih =>
    intro r ps hr h
    simp only [List.mapM_cons, bind_eq_ok_iff] at h
    obtain ⟨⟨h, bs⟩, hv, ps', hps, heq⟩ := h
    cases heq
    obtain ⟨head, bodies, ws, hpair, hhead, hvs, hws⟩ := Value.toRule_eq_ok_iff.1 hv
    simp only [addPairs, hpair, apply_addProduction hr hhead hvs hws]
    exact ih (wellFormed_addProduction hr h bs) hps

theorem FrozenRules.addPairs_of_rules {vs : List Value} :
    ∀ {r : FrozenRules} {ps : List (Word × List Word)}, vs.mapM Value.toRule = .ok ps →
      r.addPairs vs = .ok (ps.foldl (fun r p => (r.addProduction p.1 p.2).on r) r) := by
  induction vs with
  | nil => intro r ps h; cases h; rfl
  | cons v vs ih =>
    intro r ps h
    simp only [List.mapM_cons, bind_eq_ok_iff] at h
    obtain ⟨⟨h, bs⟩, hv, ps', hps, heq⟩ := h
    cases heq
    obtain ⟨head, bodies, ws, hpair, hhead, hvs, hws⟩ := Value.toRule_eq_ok_iff.1 hv
    simp only [addPairs, hpair, apply_addProduction hhead hvs hws, bind, Except.bind]
    exact ih hps

theorem Relation.ofValue_of_rules {vs : List Value} {ps : List (Word × List Word)}
    (h : vs.mapM Value.toRule = .ok ps) : Relation.ofValue (.list vs) = .ok (.ofPairs ps) := by
  have helements : (Value.list vs).elementsIfGiven = .ok vs := by cases vs <;> rfl
  simp only [ofValue, helements]
  exact addPairs_of_rules .empty h

theorem FrozenRules.ofValue_of_rules {vs : List Value} {ps : List (Word × List Word)}
    (h : vs.mapM Value.toRule = .ok ps) : FrozenRules.ofValue (.list vs) = .ok (.ofPairs ps) := by
  have helements : (Value.list vs).elements = .ok vs := rfl
  simp only [ofValue, helements, bind, Except.bind]
  exact addPairs_of_rules h

end

/-! ## Types and records -/

theorem exists_head_iff {m : OrderedMap Word Bodies} {p : Word → Prop} :
    (∃ r ∈ m.entries.map (fun e => (e.1, e.2.toList)), p r.1) ↔ ∃ h ∈ m.keys, p h := by
  constructor
  · rintro ⟨r, hr, hp⟩
    obtain ⟨e, he, rfl⟩ := List.mem_map.1 hr
    exact ⟨e.1, List.mem_map_of_mem he, hp⟩
  · rintro ⟨h, hh, hp⟩
    obtain ⟨e, he, rfl⟩ := List.mem_map.1 hh
    exact ⟨(e.1, e.2.toList), List.mem_map_of_mem he, hp⟩

theorem forall_body_iff {m : OrderedMap Word Bodies} (hm : m.keys.Nodup) {p : Word → Prop} :
    (∀ r ∈ m.entries.map (fun e => (e.1, e.2.toList)), ∀ b ∈ r.2, p b) ↔
      ∀ h b, HasBody m h b → p b := by
  constructor
  · rintro hall h b ⟨s, hs, hb⟩
    exact hall (h, s.toList) (List.mem_map.2 ⟨(h, s), OrderedMap.mem_entries_of_get? hs, rfl⟩) b hb
  · intro hall r hr b hb
    obtain ⟨e, he, rfl⟩ := List.mem_map.1 hr
    exact hall e.1 b ⟨e.2, OrderedMap.get?_of_mem hm he, hb⟩

/-- The type of a grammar depends on its start symbol, on which symbols are terminals, and on which
heads have which bodies. -/
theorem View.classify_congr {g h : Grammar} (hg : g.WellFormed) (hh : h.WellFormed)
    (hstart : g.start = h.start)
    (hterminals : ∀ s, s ∈ g.terminals.toList ↔ s ∈ h.terminals.toList)
    (hrules : SameContents g.relation.rules h.relation.rules) :
    g.view.classify = h.view.classify := by
  obtain ⟨hheads, hbodies⟩ := hrules
  have hfree : g.view.HasUnrestrictedHead ↔ h.view.HasUnrestrictedHead := by
    have hview : ∀ k : Grammar, k.view.HasUnrestrictedHead ↔
        ∃ w ∈ k.relation.rules.keys, w.length ≠ 1 ∨ w = [k.start] :=
      fun k => exists_head_iff (p := fun w => w.length ≠ 1 ∨ w = [k.start])
    simp only [hview, hheads, hstart]
  have hword : ∀ b, Word.IsRightLinear g.terminals.toList b ↔
      Word.IsRightLinear h.terminals.toList b := by
    intro b
    simp only [Word.IsRightLinear, hterminals]
  have hlinear : g.view.IsRightLinear ↔ h.view.IsRightLinear := by
    have hview : ∀ k : Grammar, k.WellFormed → (k.view.IsRightLinear ↔
        ∀ w b, HasBody k.relation.rules w b → Word.IsRightLinear k.terminals.toList b) :=
      fun k hk => forall_body_iff hk.rules.nodup
    rw [hview g hg, hview h hh]
    simp only [hbodies, hword]
  have hgfull : g.view.HasFullBodies := hg.rules.ne_nil
  have hhfull : h.view.HasFullBodies := hh.rules.ne_nil
  rw [View.classify_eq hgfull, View.classify_eq hhfull]
  simp only [hfree, hlinear]

/-- Two records that say the same, in whatever order and grouping. -/
structure Record.Agrees (r t : Record) : Prop where
  id : r.id = t.id
  start : r.start = t.start
  name : r.name = t.name
  type : r.type = t.type
  terminals : ∀ s, s ∈ r.terminals ↔ s ∈ t.terminals
  nonterminals : ∀ s, s ∈ r.nonterminals ↔ s ∈ t.nonterminals
  rules : SameFacts r.items t.items

theorem mem_ofList_texts {ss ts : List Text} (h : ∀ s, s ∈ ss ↔ s ∈ ts) (x : Symbol) :
    x ∈ (OrderedSet.ofList (ss.map Symbol.mk)).toList ↔
      x ∈ (OrderedSet.ofList (ts.map Symbol.mk)).toList := by
  simp only [OrderedSet.mem_ofList, List.mem_map, h]

theorem Grammar.parts_ofRecord (r : Record) :
    (ofRecord r).id = r.id ∧ (ofRecord r).start = ⟨r.start⟩ ∧ (ofRecord r).name = r.name ∧
      (ofRecord r).terminals = .ofList (r.terminals.map Symbol.mk) ∧
      (ofRecord r).nonterminals = .ofList (r.nonterminals.map Symbol.mk) ∧
      (ofRecord r).relation = .ofPairs r.items := by
  unfold ofRecord
  cases r.type <;> exact ⟨rfl, rfl, rfl, rfl, rfl, rfl⟩

theorem Grammar.type_ofRecord_some {r : Record} {type : GrammarType} (h : r.type = some type) :
    (ofRecord r).type = type := by
  unfold ofRecord
  rw [h]

theorem Grammar.classify_ofRecord {r t : Record} (h : r.Agrees t) :
    (ofRecord r).view.classify = (ofRecord t).view.classify := by
  obtain ⟨-, hstart, -, hterminals, -, hrelation⟩ := parts_ofRecord r
  obtain ⟨-, hstart', -, hterminals', -, hrelation'⟩ := parts_ofRecord t
  refine View.classify_congr (wellFormed_ofRecord r) (wellFormed_ofRecord t) ?_ ?_ ?_
  · rw [hstart, hstart', h.start]
  · rw [hterminals, hterminals']
    exact mem_ofList_texts h.terminals
  · rw [hrelation, hrelation']
    exact Relation.sameContents_ofPairs_iff.2 h.rules

/-- Records that say the same have equal grammars. A type that is left out is found from the rules,
and comes out the same. -/
theorem Grammar.same_ofRecord {r t : Record} (h : r.Agrees t) :
    (ofRecord r).same (ofRecord t) = true := by
  have htype : (ofRecord r).type = (ofRecord t).type := by
    cases hr : r.type with
    | none => rw [type_ofRecord hr, type_ofRecord (h.type ▸ hr), classify_ofRecord h]
    | some type => rw [type_ofRecord_some hr, type_ofRecord_some (h.type ▸ hr)]
  obtain ⟨hid, hstart, hname, hterminals, hnonterminals, hrelation⟩ := parts_ofRecord r
  obtain ⟨hid', hstart', hname', hterminals', hnonterminals', hrelation'⟩ := parts_ofRecord t
  refine (same_iff (wellFormed_ofRecord r)).2 ⟨?_, ?_, ?_, htype, ?_, ?_, ?_⟩
  · rw [hid, hid', h.id]
  · rw [hstart, hstart', h.start]
  · rw [hname, hname', h.name]
  · rw [hterminals, hterminals']
    exact mem_ofList_texts h.terminals
  · rw [hnonterminals, hnonterminals']
    exact mem_ofList_texts h.nonterminals
  · rw [hrelation, hrelation']
    exact Relation.sameContents_ofPairs_iff.2 h.rules

theorem Grammar.same_freeze {g h : Grammar} (hg : g.WellFormed) (hh : h.WellFormed) :
    g.freeze.same h.freeze = g.same h := by
  rw [Grammar.freeze_eq hg, Grammar.freeze_eq hh]
  simp only [FrozenGrammar.same, Grammar.same, FrozenRules.same_eq hg.rules hh.rules]

theorem FrozenGrammar.same_ofRecord {r t : Record} (h : r.Agrees t) :
    (ofRecord r).same (ofRecord t) = true := by
  rw [← Grammar.freeze_ofRecord, ← Grammar.freeze_ofRecord,
    Grammar.same_freeze (Grammar.wellFormed_ofRecord r) (Grammar.wellFormed_ofRecord t)]
  exact Grammar.same_ofRecord h

section

variable [Host]

/-- Pairs of arguments build equal rules of either kind exactly if they say the same, and documents
that say the same are equal grammars of either kind. -/
theorem same_iff_sameFacts :
    (∀ (vs us : List Value) (ps qs : List (Word × List Word)),
      vs.mapM Value.toRule = .ok ps → us.mapM Value.toRule = .ok qs →
        (∃ r t, Relation.ofValue (.list vs) = .ok r ∧ Relation.ofValue (.list us) = .ok t ∧
          (r.same t = true ↔ SameFacts ps qs)) ∧
        ∃ r t, FrozenRules.ofValue (.list vs) = .ok r ∧ FrozenRules.ofValue (.list us) = .ok t ∧
          (r.same t = true ↔ SameFacts ps qs)) ∧
    ∀ (d e : Value) (r t : Record),
      Record.ofDocument d = .ok r → Record.ofDocument e = .ok t → r.Agrees t →
        (∃ g h, Grammar.ofDocument d = .ok g ∧ Grammar.ofDocument e = .ok h ∧ g.same h = true) ∧
        ∃ g h, FrozenGrammar.ofDocument d = .ok g ∧ FrozenGrammar.ofDocument e = .ok h ∧
          g.same h = true := by
  constructor
  · intro vs us ps qs hvs hus
    refine ⟨⟨_, _, Relation.ofValue_of_rules hvs, Relation.ofValue_of_rules hus, ?_⟩,
      _, _, FrozenRules.ofValue_of_rules hvs, FrozenRules.ofValue_of_rules hus, ?_⟩
    · exact Relation.same_ofPairs_iff
    · rw [FrozenRules.same_ofPairs]
      exact Relation.same_ofPairs_iff
  · intro d e r t hr ht h
    constructor
    · refine ⟨.ofRecord r, .ofRecord t, ?_, ?_, Grammar.same_ofRecord h⟩
      · simp only [Grammar.ofDocument, hr, bind, Except.bind, pure, Except.pure]
      · simp only [Grammar.ofDocument, ht, bind, Except.bind, pure, Except.pure]
    · refine ⟨.ofRecord r, .ofRecord t, ?_, ?_, FrozenGrammar.same_ofRecord h⟩
      · simp only [FrozenGrammar.ofDocument, hr, bind, Except.bind, pure, Except.pure]
      · simp only [FrozenGrammar.ofDocument, ht, bind, Except.bind, pure, Except.pure]

end

/-- Two heads, each in one pair. -/
def mergedPairs : List Value := [
  .list [.text "A", .list [.text "a", .list []]],
  .list [.list [], .list []]]

/-- The same with the heads the other way round, a body twice, and a pair for every body. -/
def splitPairs : List Value := [
  .list [.list [.text "ε", .text "ε"], .text ""],
  .list [.text "A", .text "ε"],
  .list [.list [.symbol ⟨"A"⟩], .text "aa"]]

def mergedDocument : Value := .object [
  ("id", .text "g"), ("startSymbol", .text "S"), ("terminals", .list [.text "a", .text "b"]),
  ("rules", .list [
    .object [("head", .list [.text "A"]), ("bodies", .list [.list [.text "a"], .list []])],
    .object [("head", .list [])]])]

def splitDocument : Value := .object [
  ("rules", .list [
    .object [("head", .list [.text "ε"]), ("bodies", .null)],
    .object [("head", .list [.text "A"]), ("bodies", .list [.list [.text "ε"]])],
    .object [("bodies", .list [.list [.text "a"]]), ("head", .list [.text "A"])]]),
  ("terminals", .list [.text "b", .text "a", .text "b"]), ("type", .null), ("name", .text ""),
  ("startSymbol", .text "S"), ("id", .text "g")]

section

open scoped Host

theorem same_split :
    (∃ r t, Relation.ofValue (.list mergedPairs) = .ok r ∧
      Relation.ofValue (.list splitPairs) = .ok t ∧ r.heads ≠ t.heads ∧ r.same t = true) ∧
    ∃ g h, Grammar.ofDocument mergedDocument = .ok g ∧ Grammar.ofDocument splitDocument = .ok h ∧
      g.type = .regular ∧ g.same h = true := by
  constructor
  · have hmerged : mergedPairs.mapM Value.toRule =
        .ok [([⟨"A"⟩], [[⟨"a"⟩], Word.empty]), (Word.empty, [])] := rfl
    have hsplit : splitPairs.mapM Value.toRule =
        .ok [(Word.empty, []), ([⟨"A"⟩], [Word.empty]), ([⟨"A"⟩], [[⟨"a"⟩], [⟨"a"⟩]])] := rfl
    obtain ⟨⟨r, t, hr, ht, hiff⟩, -⟩ := same_iff_sameFacts.1 _ _ _ _ hmerged hsplit
    have hfacts : SameFacts [([⟨"A"⟩], [[⟨"a"⟩], Word.empty]), (Word.empty, [])]
        [(Word.empty, []), ([⟨"A"⟩], [Word.empty]), ([⟨"A"⟩], [[⟨"a"⟩], [⟨"a"⟩]])] :=
      Relation.same_ofPairs_iff.1 (by decide +kernel)
    refine ⟨r, t, hr, ht, ?_, hiff.2 hfacts⟩
    rw [Relation.ofValue_of_rules hmerged] at hr
    rw [Relation.ofValue_of_rules hsplit] at ht
    cases hr
    cases ht
    decide +kernel
  · obtain ⟨r, hr⟩ : ∃ r, Record.ofDocument mergedDocument = .ok r := ⟨_, rfl⟩
    obtain ⟨t, ht⟩ : ∃ t, Record.ofDocument splitDocument = .ok t := ⟨_, rfl⟩
    have hagrees : r.Agrees t := by
      cases hr
      cases ht
      refine ⟨rfl, rfl, rfl, rfl, ?_, ?_, Relation.same_ofPairs_iff.1 (by decide +kernel)⟩
      · intro s
        simp only [List.mem_cons, List.not_mem_nil, or_false]
        constructor
        · rintro (rfl | rfl)
          · exact .inr (.inl rfl)
          · exact .inl rfl
        · rintro (rfl | rfl | rfl)
          · exact .inr rfl
          · exact .inl rfl
          · exact .inr rfl
      · intro s
        rfl
    obtain ⟨⟨g, h, hg, hh, hsame⟩, -⟩ := same_iff_sameFacts.2 _ _ _ _ hr ht hagrees
    refine ⟨g, h, hg, hh, ?_, hsame⟩
    cases hg
    decide +kernel

end

end PhraseGrammar
