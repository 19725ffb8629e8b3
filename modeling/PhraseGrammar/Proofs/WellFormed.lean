import PhraseGrammar.FrozenGrammar

/-!
# PhraseGrammar.Proofs.WellFormed

What holds of every set of rules and every grammar, whatever edits made it.

* `Word.IsNormal`: the word is its own normal form.
* `Bodies.WellFormed`, `WellFormedRules`: nothing is listed twice, and every word is in normal
  form.
* `Grammar.WellFormed`, `FrozenGrammar.WellFormed`: the rules are well-formed and no symbol is
  listed twice.

Each edit keeps these, also one that fails midway: `Grammar.wellFormed_apply`,
`FrozenGrammar.wellFormed_apply`.
-/

namespace PhraseGrammar

/-- A word that normalizing leaves alone. -/
def Word.IsNormal (w : Word) : Prop := Word.normalize w = w

theorem Word.isNormal_normalize (w : List Symbol) : Word.IsNormal (Word.normalize w) :=
  Word.normalize_normalize w

theorem Word.IsNormal.ne_nil {w : Word} (h : Word.IsNormal w) : w ≠ [] := by
  rw [← show Word.normalize w = w from h]
  exact Word.normalize_ne_nil w

/-- Distinct words in normal form. -/
structure Bodies.WellFormed (s : Bodies) : Prop where
  nodup : s.toList.Nodup
  normal : ∀ b ∈ s.toList, Word.IsNormal b

/-- Distinct heads in normal form, each with well-formed bodies. -/
structure WellFormedRules (m : OrderedMap Word Bodies) : Prop where
  nodup : m.keys.Nodup
  normal : ∀ e ∈ m.entries, Word.IsNormal e.1
  bodies : ∀ e ∈ m.entries, Bodies.WellFormed e.2

/-- No symbol is listed twice, and the rules are well-formed. -/
structure Grammar.WellFormed (g : Grammar) : Prop where
  terminals : g.terminals.toList.Nodup
  nonterminals : g.nonterminals.toList.Nodup
  rules : WellFormedRules g.relation.rules

structure FrozenGrammar.WellFormed (g : FrozenGrammar) : Prop where
  terminals : g.terminals.toList.Nodup
  nonterminals : g.nonterminals.toList.Nodup
  rules : WellFormedRules g.rules.rules

/-! ## Arguments read as words -/

section

variable [Host]

theorem Value.isNormal_of_toWord {v : Value} {w : Word} (h : v.toWord = .ok w) :
    Word.IsNormal w := by
  unfold Value.toWord at h
  split at h
  · cases h
    exact Word.isNormal_normalize _
  · cases h
    exact Word.isNormal_normalize _
  · split at h
    · cases h
    · split at h
      · cases h
      · cases h
        exact Word.isNormal_normalize _

theorem Value.isNormal_of_toWords {vs : List Value} {ws : List Word}
    (h : Value.toWords vs = .ok ws) : ∀ w ∈ ws, Word.IsNormal w := by
  induction vs generalizing ws with
  | nil => cases h; intro w hw; cases hw
  | cons v vs ih =>
    simp only [Value.toWords] at h
    split at h
    · cases h
    · rename_i w hw
      split at h
      · cases h
      · rename_i ws' hws
        cases h
        intro b hb
        rcases List.mem_cons.1 hb with rfl | hb
        · exact Value.isNormal_of_toWord hw
        · exact ih hws b hb

end

/-! ## Bodies of one head -/

namespace Bodies

theorem wellFormed_empty : WellFormed .empty :=
  ⟨List.nodup_nil, fun b hb => by cases hb⟩

theorem WellFormed.insert {s : Bodies} (h : s.WellFormed) {b : Word} (hb : Word.IsNormal b) :
    WellFormed (OrderedSet.insert s b) := by
  refine ⟨OrderedSet.nodup_insert h.nodup b, ?_⟩
  intro c hc
  rcases OrderedSet.mem_insert.1 hc with hc | rfl
  · exact h.normal c hc
  · exact hb

theorem WellFormed.erase {s : Bodies} (h : s.WellFormed) (b : Word) :
    WellFormed (OrderedSet.erase s b) :=
  ⟨OrderedSet.nodup_erase h.nodup b, fun c hc => h.normal c (OrderedSet.mem_of_mem_erase hc)⟩

theorem WellFormed.insertAll {s : Bodies} (h : s.WellFormed) {bs : List Word}
    (hbs : ∀ b ∈ bs, Word.IsNormal b) : WellFormed (OrderedSet.insertAll s bs) := by
  refine ⟨OrderedSet.nodup_insertAll h.nodup bs, ?_⟩
  intro c hc
  rcases OrderedSet.mem_insertAll.1 hc with hc | hc
  · exact h.normal c hc
  · exact hbs c hc

theorem WellFormed.eraseAll {s : Bodies} (h : s.WellFormed) (bs : List Word) :
    WellFormed (OrderedSet.eraseAll s bs) := by
  induction bs generalizing s with
  | nil => exact h
  | cons b bs ih => exact ih (h.erase b)

section

variable [Host]

/-- Bodies are merged up to the first argument that is no word. -/
theorem WellFormed.addEach {s : Bodies} (h : s.WellFormed) (vs : List Value) :
    WellFormed (s.addEach vs).1 := by
  induction vs generalizing s with
  | nil => exact h
  | cons v vs ih =>
    simp only [Bodies.addEach]
    split
    · exact h
    · rename_i w hw
      exact ih (h.insert (Value.isNormal_of_toWord hw))

theorem WellFormed.removeEach {s : Bodies} (h : s.WellFormed) (vs : List Value) :
    WellFormed (s.removeEach vs).1 := by
  induction vs generalizing s with
  | nil => exact h
  | cons v vs ih =>
    simp only [Bodies.removeEach]
    split
    · exact h
    · exact ih (h.erase _)

end

end Bodies

/-! ## Rules -/

namespace WellFormedRules

variable {m : OrderedMap Word Bodies} {k : Word} {s : Bodies}

theorem empty : WellFormedRules .empty :=
  ⟨List.nodup_nil, fun e he => (by cases he), fun e he => (by cases he)⟩

theorem of_get? (h : WellFormedRules m) (hs : m.get? k = some s) :
    Word.IsNormal k ∧ s.WellFormed := by
  obtain ⟨e, he, rfl⟩ := Option.map_eq_some_iff.1 hs
  have hk : e.1 = k := by simpa using List.find?_some he
  subst hk
  exact ⟨h.normal e (List.mem_of_find?_eq_some he), h.bodies e (List.mem_of_find?_eq_some he)⟩

theorem append (h : WellFormedRules m) (hk : Word.IsNormal k) (hs : s.WellFormed)
    (hnew : k ∉ m.keys) : WellFormedRules ⟨m.entries ++ [(k, s)]⟩ := by
  refine ⟨?_, ?_, ?_⟩
  · have hkeys : (OrderedMap.mk (m.entries ++ [(k, s)])).keys = m.keys ++ [k] := by
      simp [OrderedMap.keys]
    rw [hkeys, List.nodup_append]
    refine ⟨h.nodup, by simp, ?_⟩
    intro a ha b hb hab
    rw [List.mem_singleton.1 hb] at hab
    exact hnew (hab ▸ ha)
  · intro e he
    rcases List.mem_append.1 he with he | he
    · exact h.normal e he
    · rw [List.mem_singleton.1 he]
      exact hk
  · intro e he
    rcases List.mem_append.1 he with he | he
    · exact h.bodies e he
    · rw [List.mem_singleton.1 he]
      exact hs

theorem modify (h : WellFormedRules m) (k : Word) {f : Bodies → Bodies}
    (hf : ∀ s, s.WellFormed → (f s).WellFormed) : WellFormedRules (m.modify k f) := by
  refine ⟨by rw [OrderedMap.keys_modify]; exact h.nodup, ?_, ?_⟩
  · intro e he
    obtain ⟨e', he', rfl⟩ := List.mem_map.1 he
    split
    · exact h.normal e' he'
    · exact h.normal e' he'
  · intro e he
    obtain ⟨e', he', rfl⟩ := List.mem_map.1 he
    split
    · exact hf _ (h.bodies e' he')
    · exact h.bodies e' he'

theorem insertNew (h : WellFormedRules m) (hk : Word.IsNormal k) (hs : s.WellFormed) :
    WellFormedRules (m.insertNew k s) := by
  unfold OrderedMap.insertNew
  split
  · exact h
  · rename_i hnew
    exact h.append hk hs fun c => hnew (OrderedMap.contains_iff.2 c)

theorem set (h : WellFormedRules m) (hk : Word.IsNormal k) (hs : s.WellFormed) :
    WellFormedRules (m.set k s) := by
  unfold OrderedMap.set
  split
  · exact h.modify k fun _ _ => hs
  · rename_i hnew
    exact h.append hk hs fun c => hnew (OrderedMap.contains_iff.2 c)

theorem erase (h : WellFormedRules m) (k : Word) : WellFormedRules (m.erase k) := by
  refine ⟨?_, ?_, ?_⟩
  · rw [OrderedMap.keys_erase]
    exact h.nodup.filter _
  · exact fun e he => h.normal e (List.mem_filter.1 he).1
  · exact fun e he => h.bodies e (List.mem_filter.1 he).1

end WellFormedRules

/-! ## Edits in place -/

namespace Relation

theorem wellFormed_addHead {r : Relation} (h : WellFormedRules r.rules) (head : Word) :
    WellFormedRules (r.addHead head).rules :=
  h.insertNew (Word.isNormal_normalize head) Bodies.wellFormed_empty

theorem wellFormed_addProduction {r : Relation} (h : WellFormedRules r.rules) (head : Word)
    (bodies : List Word) : WellFormedRules (r.addProduction head bodies).rules := by
  refine (wellFormed_addHead h head).modify _ fun s hs => hs.insertAll ?_
  intro b hb
  obtain ⟨w, -, rfl⟩ := List.mem_map.1 hb
  exact Word.isNormal_normalize w

/-- Merging rules one after the other keeps what it starts from well-formed. -/
theorem wellFormed_foldl_addProduction (pairs : List (Word × List Word)) {r : Relation}
    (h : WellFormedRules r.rules) :
    WellFormedRules (pairs.foldl (fun r p => r.addProduction p.1 p.2) r).rules := by
  induction pairs generalizing r with
  | nil => exact h
  | cons p ps ih => exact ih (wellFormed_addProduction h p.1 p.2)

theorem wellFormed_ofPairs (pairs : List (Word × List Word)) :
    WellFormedRules (ofPairs pairs).rules := wellFormed_foldl_addProduction pairs .empty

section

variable [Host]

theorem wellFormed_withHead {r : Relation} (h : WellFormedRules r.rules) (head : Value)
    {edit : Word → Bodies → Relation × Option EditError}
    (hedit : ∀ k s, Word.IsNormal k → s.WellFormed → WellFormedRules (edit k s).1.rules) :
    WellFormedRules (r.withHead head edit).1.rules := by
  unfold withHead
  split
  · exact h
  · rename_i k hk
    split
    · exact h
    · rename_i s hs
      exact hedit k s (Value.isNormal_of_toWord hk) (h.of_get? hs).2

theorem wellFormed_withBody {r : Relation} (h : WellFormedRules r.rules) {head : Word}
    (hhead : Word.IsNormal head) (body : Value) {change : Word → Bodies}
    (hchange : ∀ w, Word.IsNormal w → (change w).WellFormed) :
    WellFormedRules (r.withBody head body change).1.rules := by
  unfold withBody
  split
  · exact h
  · rename_i w hw
    exact h.set hhead (hchange w (Value.isNormal_of_toWord hw))

theorem wellFormed_addProductionOf {r : Relation} (h : WellFormedRules r.rules) {head : Word}
    (hhead : Word.IsNormal head) (bodies : Value) :
    WellFormedRules (r.addProductionOf head bodies).1.rules := by
  unfold addProductionOf
  have hadded := wellFormed_addHead h head
  split
  · exact hadded
  · refine hadded.set hhead (Bodies.WellFormed.addEach ?_ _)
    cases hs : (r.addHead head).rules.get? head with
    | none => exact Bodies.wellFormed_empty
    | some s => exact (hadded.of_get? hs).2

theorem wellFormed_removeProductionOf {r : Relation} (h : WellFormedRules r.rules) {head : Word}
    (hhead : Word.IsNormal head) {old : Bodies} (hold : old.WellFormed) (bodies : Value) :
    WellFormedRules (r.removeProductionOf head old bodies).1.rules := by
  unfold removeProductionOf
  split
  · exact h
  · exact h.set hhead (hold.removeEach _)

/-- An edit keeps the rules well-formed, also when it fails. -/
theorem wellFormed_apply {r : Relation} (h : WellFormedRules r.rules) (edit : RuleEdit) :
    WellFormedRules (r.apply edit).1.rules := by
  cases edit with
  | addHead head =>
    simp only [apply]
    split
    · exact h
    · exact wellFormed_addHead h _
  | removeHead head => exact wellFormed_withHead h head fun k _ _ _ => h.erase k
  | addBody head body =>
    exact wellFormed_withHead h head fun k s hk hs =>
      wellFormed_withBody h hk body fun w hw => hs.insert hw
  | removeBody head body =>
    exact wellFormed_withHead h head fun k s hk hs =>
      wellFormed_withBody h hk body fun w _ => hs.erase w
  | addProduction head bodies =>
    simp only [apply]
    split
    · exact h
    · rename_i k hk
      exact wellFormed_addProductionOf h (Value.isNormal_of_toWord hk) bodies
  | removeProduction head bodies =>
    exact wellFormed_withHead h head fun k s hk hs =>
      wellFormed_removeProductionOf h hk hs bodies

end

end Relation

theorem Grammar.wellFormed_withSymbol [Host] {g : Grammar} (h : g.WellFormed) (symbol : Value)
    {edit : Symbol → Grammar} (hedit : ∀ s, (edit s).WellFormed) :
    (g.withSymbol symbol edit).1.WellFormed := by
  unfold withSymbol
  split
  · exact h
  · exact hedit _

/-- An edit in place keeps a grammar well-formed, also when it fails. -/
theorem Grammar.wellFormed_apply [Host] {g : Grammar} (h : g.WellFormed) (edit : GrammarEdit) :
    (g.apply edit).1.WellFormed := by
  cases edit with
  | addTerminal symbol =>
    exact wellFormed_withSymbol h symbol fun s =>
      ⟨OrderedSet.nodup_insert h.terminals s, h.nonterminals, h.rules⟩
  | removeTerminal symbol =>
    exact wellFormed_withSymbol h symbol fun s =>
      ⟨OrderedSet.nodup_erase h.terminals s, h.nonterminals, h.rules⟩
  | addNonterminal symbol =>
    exact wellFormed_withSymbol h symbol fun s =>
      ⟨h.terminals, OrderedSet.nodup_insert h.nonterminals s, h.rules⟩
  | removeNonterminal symbol =>
    exact wellFormed_withSymbol h symbol fun s =>
      ⟨h.terminals, OrderedSet.nodup_erase h.nonterminals s, h.rules⟩
  | rule edit => exact ⟨h.terminals, h.nonterminals, Relation.wellFormed_apply h.rules edit⟩
  | setName name => exact ⟨h.terminals, h.nonterminals, h.rules⟩
  | setStart symbol =>
    exact wellFormed_withSymbol h symbol fun _ => ⟨h.terminals, h.nonterminals, h.rules⟩
  | setType type => exact ⟨h.terminals, h.nonterminals, h.rules⟩
  | reclassify => exact ⟨h.terminals, h.nonterminals, h.rules⟩

end PhraseGrammar
