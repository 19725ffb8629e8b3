import PhraseGrammar.Proofs.Conversion
import PhraseGrammar.Proofs.History
import PhraseGrammar.Proofs.Refusal

/-!
# PhraseGrammar.Proofs.Equality

Equality up to order is a congruence: whatever is done with equal grammars comes to the same.

* `View.Reordered`: two views list the same things, each in an order of its own.
* `FrozenGrammar.step`: an edit of a frozen grammar; a bad argument leaves the grammar.
* `Interchangeable`: two grammars have one type, and every run of edits has the same errors on both
  and leaves equal grammars.

An edit that succeeds is a deed, and deeds keep `SameContents` (`SameContents.deed`). One that fails
does so wherever the heads are the same, and leaves what an edit leaves that succeeds
(`RuleEdit.Refused.transfer`). `same_congruence` puts this together for both kinds of grammars.
-/

namespace PhraseGrammar

/-! ## Contents -/

namespace SameContents

variable {m n : OrderedMap Word Bodies}

theorem deed (h : SameContents m n) (hm : WellFormedRules m) (hn : WellFormedRules n) (d : Deed) :
    SameContents (d.apply m) (d.apply n) := by
  constructor
  · intro w
    rw [Deed.mem_keys_apply, Deed.mem_keys_apply, h.1]
  · intro w b
    rw [Deed.hasBody_apply hm, Deed.hasBody_apply hn, h.2]

end SameContents

section

variable [Host]

/-! ## Edits of rules in place -/

theorem Relation.rules_apply {r : Relation} (hr : WellFormedRules r.rules) {e : RuleEdit}
    (hok : (r.apply e).2 = none) : ∃ d, e.deed = .ok d ∧ (r.apply e).1.rules = d.apply r.rules := by
  obtain ⟨u, hu, hon⟩ := FrozenRules.apply_of_ok hr hok
  obtain ⟨d, hd, hrules⟩ := FrozenRules.rules_on_apply hr hu
  rw [hon] at hrules
  exact ⟨d, hd, hrules⟩

section

variable {r t : Relation} (hr : WellFormedRules r.rules) (ht : WellFormedRules t.rules)
  (h : SameContents r.rules t.rules)

include hr ht h

theorem SameContents.apply_ok {e : RuleEdit} (hrok : (r.apply e).2 = none)
    (htok : (t.apply e).2 = none) : SameContents (r.apply e).1.rules (t.apply e).1.rules := by
  obtain ⟨d, hd, hrules⟩ := Relation.rules_apply hr hrok
  obtain ⟨d', hd', htules⟩ := Relation.rules_apply ht htok
  rw [hd] at hd'
  cases hd'
  rw [hrules, htules]
  exact h.deed hr ht d

theorem RuleEdit.Refused.transfer {e : RuleEdit} {err : EditError} {r' : Relation}
    (hrefused : e.Refused r err r') :
    ∃ t', e.Refused t err t' ∧ SameContents r'.rules t'.rules := by
  cases hrefused with
  | head hhead => exact ⟨t, .head hhead, h⟩
  | missing hneeds hword hh => exact ⟨t, .missing hneeds hword (mt (h.1 _).2 hh), h⟩
  | addBody hword hh hbody => exact ⟨t, .addBody hword ((h.1 _).1 hh) hbody, h⟩
  | removeBody hword hh hbody => exact ⟨t, .removeBody hword ((h.1 _).1 hh) hbody, h⟩
  | addProduction hhead hbreak hbefore =>
    obtain ⟨w, hword⟩ := Value.toWord_of_isWord hhead
    have htok := Relation.apply_addProduction_before (r := t) hword hbreak
    have hsame := h.apply_ok hr ht (by rw [hbefore]) htok
    rw [hbefore] at hsame
    exact ⟨_, .addProduction hhead hbreak (Prod.ext rfl htok), hsame⟩
  | removeProduction hword hh hbreak hbefore =>
    have hh' := (h.1 _).1 hh
    have htok := Relation.apply_removeProduction_before (r := t) hword hh' hbreak
    have hsame := h.apply_ok hr ht (by rw [hbefore]) htok
    rw [hbefore] at hsame
    exact ⟨_, .removeProduction hword hh' hbreak (Prod.ext rfl htok), hsame⟩

/-- An edit of the same contents fails with the same error or not at all, and leaves the same
contents. -/
theorem SameContents.apply (e : RuleEdit) :
    (r.apply e).2 = (t.apply e).2 ∧ SameContents (r.apply e).1.rules (t.apply e).1.rules := by
  rcases RuleEdit.ok_or_refused r e with hrok | ⟨err, r', hrefused⟩
  · rcases RuleEdit.ok_or_refused t e with htok | ⟨err, t', htrefused⟩
    · exact ⟨hrok.trans htok.symm, h.apply_ok hr ht hrok htok⟩
    · obtain ⟨r', hrefused, -⟩ := htrefused.transfer ht hr h.symm
      rw [hrefused.apply_eq hr] at hrok
      cases hrok
  · obtain ⟨t', htrefused, hsame⟩ := hrefused.transfer hr ht h
    rw [hrefused.apply_eq hr, htrefused.apply_eq ht]
    exact ⟨rfl, hsame⟩

end

/-! ## Edits of frozen rules -/

namespace FrozenRules

variable {r t : FrozenRules}

/-- Whether an edit of frozen rules has a bad argument depends on nothing but the heads. -/
theorem apply_error_congr (h : ∀ w, w ∈ r.rules.keys ↔ w ∈ t.rules.keys) {e : RuleEdit}
    {err : ArgumentError} : r.apply e = .error err ↔ t.apply e = .error err := by
  have hcontains : ∀ w, r.rules.contains w = t.rules.contains w := by
    intro w
    rw [Bool.eq_iff_iff, OrderedMap.contains_iff, OrderedMap.contains_iff, h]
  cases e with
  | removeBody | removeProduction =>
    simp only [apply, hcontains, bind_eq_error_iff, pure, Except.pure]
    refine or_congr_right (exists_congr fun w => and_congr_right fun _ => ?_)
    split
    · simp only [bind_eq_error_iff, reduceCtorEq, and_false, exists_false, or_false]
    · rfl
  | _ =>
    simp only [apply, bind_eq_error_iff, pure, Except.pure, reduceCtorEq, and_false, exists_false,
      or_false]

theorem apply_congr (hr : WellFormedRules r.rules) (ht : WellFormedRules t.rules)
    (h : SameContents r.rules t.rules) (e : RuleEdit) :
    (∃ err, r.apply e = .error err ∧ t.apply e = .error err) ∨
      ∃ u v, r.apply e = .ok u ∧ t.apply e = .ok v ∧
        SameContents (u.on r).rules (v.on t).rules := by
  cases hu : r.apply e with
  | error err => exact .inl ⟨err, rfl, (apply_error_congr h.1).1 hu⟩
  | ok u =>
    cases hv : t.apply e with
    | error err =>
      rw [(apply_error_congr h.1).2 hv] at hu
      cases hu
    | ok v =>
      obtain ⟨d, hd, hrules⟩ := rules_on_apply hr hu
      obtain ⟨d', hd', htules⟩ := rules_on_apply ht hv
      rw [hd] at hd'
      cases hd'
      refine .inr ⟨u, v, rfl, rfl, ?_⟩
      rw [hrules, htules]
      exact h.deed hr ht d

end FrozenRules

end

/-! ## Grammars -/

namespace OrderedSet

variable {α : Type} [DecidableEq α] {s t : OrderedSet α}

theorem mem_insert_congr (h : ∀ x, x ∈ s.toList ↔ x ∈ t.toList) (a x : α) :
    x ∈ (s.insert a).toList ↔ x ∈ (t.insert a).toList := by
  rw [mem_insert, mem_insert, h]

theorem mem_erase_congr (hs : s.toList.Nodup) (ht : t.toList.Nodup)
    (h : ∀ x, x ∈ s.toList ↔ x ∈ t.toList) (a x : α) :
    x ∈ (s.erase a).toList ↔ x ∈ (t.erase a).toList := by
  rw [toList_erase, toList_erase, hs.mem_erase_iff, ht.mem_erase_iff, h]

end OrderedSet

/-- Two views list the same: what they do not list is equal, and what they list are rearrangements
of one another. -/
structure View.Reordered (v w : View) : Prop where
  id : v.id = w.id
  name : v.name = w.name
  type : v.type = w.type
  start : v.start = w.start
  terminals : v.terminals.Perm w.terminals
  nonterminals : v.nonterminals.Perm w.nonterminals
  heads : (v.rules.map (·.1)).Perm (w.rules.map (·.1))
  bodies : ∀ r ∈ v.rules, ∀ r' ∈ w.rules, r.1 = r'.1 → r.2.Perm r'.2

theorem sameContents_iff_perm {m n : OrderedMap Word Bodies} (hm : WellFormedRules m)
    (hn : WellFormedRules n) :
    SameContents m n ↔ m.keys.Perm n.keys ∧
      ∀ e ∈ m.entries, ∀ e' ∈ n.entries, e.1 = e'.1 → e.2.toList.Perm e'.2.toList := by
  constructor
  · rintro ⟨hheads, hbodies⟩
    refine ⟨(List.perm_ext_iff_of_nodup hm.nodup hn.nodup).2 hheads, ?_⟩
    intro e he e' he' heq
    refine (List.perm_ext_iff_of_nodup (hm.bodies e he).nodup (hn.bodies e' he').nodup).2 ?_
    intro b
    rw [← hasBody_iff_of_get? (OrderedMap.get?_of_mem hm.nodup he),
      ← hasBody_iff_of_get? (OrderedMap.get?_of_mem hn.nodup he'), heq]
    exact hbodies e'.1 b
  · rintro ⟨hheads, hbodies⟩
    refine ⟨fun w => hheads.mem_iff, fun w b => ?_⟩
    by_cases hw : w ∈ m.keys
    · obtain ⟨s, hs⟩ := OrderedMap.exists_get?_of_mem hw
      obtain ⟨s', hs'⟩ := OrderedMap.exists_get?_of_mem (hheads.mem_iff.1 hw)
      rw [hasBody_iff_of_get? hs, hasBody_iff_of_get? hs']
      exact (hbodies _ (OrderedMap.mem_entries_of_get? hs) _ (OrderedMap.mem_entries_of_get? hs')
        rfl).mem_iff
    · have hw' : w ∉ n.keys := fun hn' => hw (hheads.mem_iff.2 hn')
      exact ⟨fun hb => absurd hb.mem_keys hw, fun hb => absurd hb.mem_keys hw'⟩

namespace Grammar

variable {g h : Grammar}

theorem sameParts_iff_reordered (hg : g.WellFormed) (hh : h.WellFormed) :
    g.SameParts h ↔ g.view.Reordered h.view := by
  have hheads : ∀ k : Grammar, k.view.rules.map (·.1) = k.relation.rules.keys := fun k =>
    List.map_map
  constructor
  · intro e
    obtain ⟨hperm, hbodies⟩ := (sameContents_iff_perm hg.rules hh.rules).1 e.rules
    refine ⟨e.id, e.name, e.type, e.start, ?_, ?_, ?_, ?_⟩
    · exact (List.perm_ext_iff_of_nodup hg.terminals hh.terminals).2 e.terminals
    · exact (List.perm_ext_iff_of_nodup hg.nonterminals hh.nonterminals).2 e.nonterminals
    · rw [hheads, hheads]
      exact hperm
    · intro r hr r' hr' heq
      obtain ⟨d, hd, rfl⟩ := List.mem_map.1 hr
      obtain ⟨d', hd', rfl⟩ := List.mem_map.1 hr'
      exact hbodies d hd d' hd' heq
  · intro e
    refine ⟨e.id, e.start, e.name, e.type, fun s => e.terminals.mem_iff,
      fun s => e.nonterminals.mem_iff, (sameContents_iff_perm hg.rules hh.rules).2 ⟨?_, ?_⟩⟩
    · rw [← hheads, ← hheads]
      exact e.heads
    · intro d hd d' hd' heq
      exact e.bodies (d.1, d.2.toList) (List.mem_map_of_mem hd) (d'.1, d'.2.toList)
        (List.mem_map_of_mem hd') heq

end Grammar

theorem FrozenGrammar.same_iff {p q : FrozenGrammar} (hp : p.WellFormed) (hq : q.WellFormed) :
    p.same q = true ↔ p.thaw.SameParts q.thaw := by
  rw [same_eq hp hq, Grammar.same_iff (wellFormed_thaw hp)]

section

variable [Host]

namespace Grammar

variable {g h : Grammar}

/-- An edit by the symbol of a value fails on both or on neither, since the value has a text or has
none. -/
theorem SameParts.withSymbol (e : g.SameParts h) (v : Value) {f k : Symbol → Grammar}
    (hparts : ∀ s, (f s).SameParts (k s)) :
    (g.withSymbol v f).2 = (h.withSymbol v k).2 ∧
      (g.withSymbol v f).1.SameParts (h.withSymbol v k).1 := by
  unfold Grammar.withSymbol
  cases v.toSymbol with
  | error err => exact ⟨rfl, e⟩
  | ok s => exact ⟨rfl, hparts s⟩

theorem SameParts.edit (hg : g.WellFormed) (hh : h.WellFormed) (e : g.SameParts h)
    (edit : GrammarEdit) :
    (g.apply edit).2 = (h.apply edit).2 ∧ (g.apply edit).1.SameParts (h.apply edit).1 := by
  cases edit with
  | addTerminal v =>
    refine e.withSymbol v fun s => ?_
    have hterminals := OrderedSet.mem_insert_congr e.terminals s
    exact ⟨e.id, e.start, e.name, e.type, hterminals, e.nonterminals, e.rules⟩
  | removeTerminal v =>
    refine e.withSymbol v fun s => ?_
    have hterminals := OrderedSet.mem_erase_congr hg.terminals hh.terminals e.terminals s
    exact ⟨e.id, e.start, e.name, e.type, hterminals, e.nonterminals, e.rules⟩
  | addNonterminal v =>
    refine e.withSymbol v fun s => ?_
    have hnonterminals := OrderedSet.mem_insert_congr e.nonterminals s
    exact ⟨e.id, e.start, e.name, e.type, e.terminals, hnonterminals, e.rules⟩
  | removeNonterminal v =>
    refine e.withSymbol v fun s => ?_
    have hnonterminals :=
      OrderedSet.mem_erase_congr hg.nonterminals hh.nonterminals e.nonterminals s
    exact ⟨e.id, e.start, e.name, e.type, e.terminals, hnonterminals, e.rules⟩
  | rule edit =>
    obtain ⟨herr, hrules⟩ := SameContents.apply hg.rules hh.rules e.rules edit
    exact ⟨herr, e.id, e.start, e.name, e.type, e.terminals, e.nonterminals, hrules⟩
  | setName name => exact ⟨rfl, e.id, e.start, rfl, e.type, e.terminals, e.nonterminals, e.rules⟩
  | setStart v =>
    exact e.withSymbol v fun _ => ⟨e.id, rfl, e.name, e.type, e.terminals, e.nonterminals, e.rules⟩
  | setType type => exact ⟨rfl, e.id, e.start, e.name, rfl, e.terminals, e.nonterminals, e.rules⟩
  | reclassify =>
    have htype := View.classify_congr hg hh e.start e.terminals e.rules
    exact ⟨rfl, e.id, e.start, e.name, htype, e.terminals, e.nonterminals, e.rules⟩

end Grammar

namespace FrozenGrammar

variable {p q : FrozenGrammar}

/-- The grammar after an edit, and the bad argument if there is one; that leaves the grammar. -/
def step (p : FrozenGrammar) (e : GrammarEdit) : FrozenGrammar × Option ArgumentError :=
  match p.apply e with
  | .error err => (p, some err)
  | .ok u => (u.on p, none)

theorem step_of_error {e : GrammarEdit} {err : ArgumentError} (h : p.apply e = .error err) :
    p.step e = (p, some err) := by
  simp only [step, h]

theorem step_of_ok {e : GrammarEdit} {u : Update FrozenGrammar} (h : p.apply e = .ok u) :
    p.step e = (u.on p, none) := by
  simp only [step, h]

theorem wellFormed_step (h : p.WellFormed) (e : GrammarEdit) : (p.step e).1.WellFormed := by
  cases hu : p.apply e with
  | error err => rwa [step_of_error hu]
  | ok u =>
    rw [step_of_ok hu]
    exact wellFormed_apply h hu

/-- Where the thawed grammar can be edited in place, the edit is that, frozen. -/
theorem step_of_apply (h : p.WellFormed) {e : GrammarEdit} (hok : (p.thaw.apply e).2 = none) :
    p.step e = ((p.thaw.apply e).1.freeze, none) := by
  obtain ⟨u, hu, hon⟩ := Grammar.freeze_apply (wellFormed_thaw h) hok
  rw [freeze_thaw h] at hu hon
  rw [step_of_ok hu, hon]

theorem step_rule_of_ok {e : RuleEdit} {u : Update FrozenRules} (hu : p.rules.apply e = .ok u) :
    p.step (.rule e) = ({ p with rules := u.on p.rules }, none) := by
  have happly : p.apply (.rule e) = .ok (u.map fun rules => { p with rules }) := by
    simp only [apply, hu]
  rw [step_of_ok happly, on_rules]

theorem step_rule_of_error {e : RuleEdit} {err : ArgumentError}
    (hu : p.rules.apply e = .error err) : p.step (.rule e) = (p, some err) :=
  step_of_error (by simp only [apply, hu])

theorem step_congr_of_ok (hp : p.WellFormed) (hq : q.WellFormed) (h : p.thaw.SameParts q.thaw)
    {e : GrammarEdit} (hpok : (p.thaw.apply e).2 = none) (hqok : (q.thaw.apply e).2 = none) :
    (p.step e).2 = (q.step e).2 ∧ (p.step e).1.thaw.SameParts (q.step e).1.thaw := by
  have hpafter := Grammar.wellFormed_apply (wellFormed_thaw hp) e
  have hqafter := Grammar.wellFormed_apply (wellFormed_thaw hq) e
  rw [step_of_apply hp hpok, step_of_apply hq hqok, Grammar.thaw_freeze hpafter,
    Grammar.thaw_freeze hqafter]
  exact ⟨rfl, (h.edit (wellFormed_thaw hp) (wellFormed_thaw hq) e).2⟩

/-- An edit of the rules has the same bad argument on both or none, and leaves the same parts. What
misses its head in place need not do so here. -/
theorem step_rule_congr (hp : p.WellFormed) (hq : q.WellFormed) (h : p.thaw.SameParts q.thaw)
    (e : RuleEdit) :
    (p.step (.rule e)).2 = (q.step (.rule e)).2 ∧
      (p.step (.rule e)).1.thaw.SameParts (q.step (.rule e)).1.thaw := by
  have hrules : SameContents p.rules.rules q.rules.rules := by
    have hthaw := h.rules
    rwa [thaw_eq hp, thaw_eq hq] at hthaw
  rcases FrozenRules.apply_congr hp.rules hq.rules hrules e with
    ⟨err, hperr, hqerr⟩ | ⟨u, v, hu, hv, hafter⟩
  · rw [step_rule_of_error hperr, step_rule_of_error hqerr]
    exact ⟨rfl, h⟩
  · have hpafter := wellFormed_step hp (.rule e)
    have hqafter := wellFormed_step hq (.rule e)
    rw [step_rule_of_ok hu] at hpafter ⊢
    rw [step_rule_of_ok hv] at hqafter ⊢
    rw [thaw_eq hp, thaw_eq hq] at h
    rw [thaw_eq hpafter, thaw_eq hqafter]
    exact ⟨rfl, h.id, h.start, h.name, h.type, h.terminals, h.nonterminals, hafter⟩

theorem apply_of_symbol {e : GrammarEdit} {v : Value} (h : e.symbol? = some v) :
    ∃ edit, p.apply e = withSymbol v edit := by
  cases e <;> cases h <;> exact ⟨_, rfl⟩

theorem step_symbol_congr (hp : p.WellFormed) (hq : q.WellFormed) (h : p.thaw.SameParts q.thaw)
    {e : GrammarEdit} {v : Value} (he : e.symbol? = some v) :
    (p.step e).2 = (q.step e).2 ∧ (p.step e).1.thaw.SameParts (q.step e).1.thaw := by
  cases hv : v.toSymbol with
  | error err =>
    have herr : ∀ r : FrozenGrammar, r.apply e = .error err := by
      intro r
      obtain ⟨edit, hedit⟩ := apply_of_symbol (p := r) he
      rw [hedit, withSymbol, hv]
    rw [step_of_error (herr p), step_of_error (herr q)]
    exact ⟨rfl, h⟩
  | ok s =>
    have hok : ∀ g : Grammar, (g.apply e).2 = none := by
      intro g
      obtain ⟨edit, hedit⟩ := Grammar.apply_of_symbol (g := g) he
      rw [hedit, Grammar.withSymbol, hv]
    exact step_congr_of_ok hp hq h (hok _) (hok _)

theorem step_congr (hp : p.WellFormed) (hq : q.WellFormed) (h : p.thaw.SameParts q.thaw)
    (e : GrammarEdit) :
    (p.step e).2 = (q.step e).2 ∧ (p.step e).1.thaw.SameParts (q.step e).1.thaw := by
  cases e with
  | rule e => exact step_rule_congr hp hq h e
  | setName | setType | reclassify => exact step_congr_of_ok hp hq h rfl rfl
  | _ => exact step_symbol_congr hp hq h rfl

end FrozenGrammar

end

/-! ## Runs -/

section

variable {G ε : Type} (view : G → View) (step : G → GrammarEdit → G × Option ε)
  (same : G → G → Bool)

/-- What some edits leave when they are made one after the other, with the error of each; an error
does not end the run. -/
def afterEdits (g : G) : List GrammarEdit → G × List (Option ε)
  | [] => (g, [])
  | e :: es =>
    let rest := afterEdits (step g e).1 es
    (rest.1, (step g e).2 :: rest.2)

/-- What a caller does with two grammars comes to the same: they have one type, an edit fails with
the same error on both or on neither and leaves equal grammars, and so does a run of edits. -/
structure Interchangeable (g h : G) : Prop where
  type : (view g).classify = (view h).classify
  edit : ∀ e, (step g e).2 = (step h e).2 ∧ same (step g e).1 (step h e).1 = true
  run : ∀ es, (afterEdits step g es).2 = (afterEdits step h es).2 ∧
    same (afterEdits step g es).1 (afterEdits step h es).1 = true

variable {step}

theorem afterEdits_congr {R : G → G → Prop}
    (hstep : ∀ {g h : G} (e : GrammarEdit), R g h →
      (step g e).2 = (step h e).2 ∧ R (step g e).1 (step h e).1) (es : List GrammarEdit) :
    ∀ {g h : G}, R g h →
      (afterEdits step g es).2 = (afterEdits step h es).2 ∧
        R (afterEdits step g es).1 (afterEdits step h es).1 := by
  induction es with
  | nil => exact fun hR => ⟨rfl, hR⟩
  | cons e es ih =>
    intro g h hR
    obtain ⟨herr, hnext⟩ := hstep e hR
    obtain ⟨herrs, hlast⟩ := ih hnext
    simp only [afterEdits]
    exact ⟨by rw [herr, herrs], hlast⟩

variable {view same}

theorem interchangeable_of_kept {R : G → G → Prop} (hsame : ∀ {g h : G}, R g h → same g h = true)
    (htype : ∀ {g h : G}, R g h → (view g).classify = (view h).classify)
    (hstep : ∀ {g h : G} (e : GrammarEdit), R g h →
      (step g e).2 = (step h e).2 ∧ R (step g e).1 (step h e).1) {g h : G} (hR : R g h) :
    Interchangeable view step same g h where
  type := htype hR
  edit e := ⟨(hstep e hR).1, hsame (hstep e hR).2⟩
  run es := ⟨(afterEdits_congr hstep es hR).1, hsame (afterEdits_congr hstep es hR).2⟩

end

section

variable [Host]

theorem Grammar.SameParts.interchangeable {g h : Grammar} (hg : g.WellFormed) (hh : h.WellFormed)
    (e : g.SameParts h) : Interchangeable view apply same g h := by
  refine interchangeable_of_kept
    (R := fun g h : Grammar => g.WellFormed ∧ h.WellFormed ∧ g.SameParts h) ?_ ?_ ?_ ⟨hg, hh, e⟩
  · rintro g h ⟨hg, -, e⟩
    exact (same_iff hg).2 e
  · rintro g h ⟨hg, hh, e⟩
    exact View.classify_congr hg hh e.start e.terminals e.rules
  · rintro g h edit ⟨hg, hh, e⟩
    obtain ⟨herr, hparts⟩ := e.edit hg hh edit
    exact ⟨herr, wellFormed_apply hg edit, wellFormed_apply hh edit, hparts⟩

namespace FrozenGrammar

variable {p q : FrozenGrammar}

theorem interchangeable_of_thaw (hp : p.WellFormed) (hq : q.WellFormed)
    (e : p.thaw.SameParts q.thaw) : Interchangeable view step same p q := by
  refine interchangeable_of_kept
    (R := fun p q : FrozenGrammar => p.WellFormed ∧ q.WellFormed ∧ p.thaw.SameParts q.thaw)
    ?_ ?_ ?_ ⟨hp, hq, e⟩
  · rintro p q ⟨hp, hq, e⟩
    exact (same_iff hp hq).2 e
  · rintro p q ⟨hp, hq, e⟩
    rw [← view_thaw hp, ← view_thaw hq]
    exact View.classify_congr (wellFormed_thaw hp) (wellFormed_thaw hq) e.start e.terminals e.rules
  · rintro p q edit ⟨hp, hq, e⟩
    obtain ⟨herr, hparts⟩ := step_congr hp hq e edit
    exact ⟨herr, wellFormed_step hp edit, wellFormed_step hq edit, hparts⟩

end FrozenGrammar

/-! ## Equality -/

theorem Grammar.equivalence_same :
    Equivalence (fun g h : {g : Grammar // g.Reachable} => g.1.same h.1 = true) := by
  have hsame : ∀ g h : {g : Grammar // g.Reachable},
      g.1.same h.1 = true ↔ g.1.SameParts h.1 := fun g h => same_iff g.2.wellFormed
  simp only [hsame]
  exact ⟨fun g => .refl g.1, fun e => e.symm, fun e e' => e.trans e'⟩

theorem FrozenGrammar.equivalence_same :
    Equivalence (fun p q : {p : FrozenGrammar // p.Reachable} => p.1.same q.1 = true) := by
  have hsame : ∀ p q : {p : FrozenGrammar // p.Reachable},
      p.1.same q.1 = true ↔ p.1.thaw.SameParts q.1.thaw :=
    fun p q => same_iff p.2.wellFormed q.2.wellFormed
  simp only [hsame]
  exact ⟨fun p => .refl p.1.thaw, fun e => e.symm, fun e e' => e.trans e'⟩

/-- **Congruence.** On the grammars of either kind that a caller can come by, equality is an
equivalence. It holds exactly if the grammars list the same in whatever orders, and exactly if it
holds after freezing or thawing both. Equal grammars are interchangeable. -/
theorem same_congruence :
    Equivalence (fun g h : {g : Grammar // g.Reachable} => g.1.same h.1 = true) ∧
      Equivalence (fun p q : {p : FrozenGrammar // p.Reachable} => p.1.same q.1 = true) ∧
      (∀ g h : Grammar, g.Reachable → h.Reachable →
        (g.same h = true ↔ g.view.Reordered h.view) ∧
        (g.same h = true ↔ g.freeze.same h.freeze = true) ∧
        (g.same h = true → Interchangeable Grammar.view Grammar.apply Grammar.same g h)) ∧
      ∀ p q : FrozenGrammar, p.Reachable → q.Reachable →
        (p.same q = true ↔ p.view.Reordered q.view) ∧
        (p.same q = true ↔ p.thaw.same q.thaw = true) ∧
        (p.same q = true →
          Interchangeable FrozenGrammar.view FrozenGrammar.step FrozenGrammar.same p q) := by
  refine ⟨Grammar.equivalence_same, FrozenGrammar.equivalence_same, ?_, ?_⟩
  · intro g h hg hh
    have hsame := Grammar.same_iff (h := h) hg.wellFormed
    refine ⟨?_, ?_, ?_⟩
    · rw [hsame, Grammar.sameParts_iff_reordered hg.wellFormed hh.wellFormed]
    · rw [Grammar.same_freeze hg.wellFormed hh.wellFormed]
    · exact fun e => (hsame.1 e).interchangeable hg.wellFormed hh.wellFormed
  · intro p q hp hq
    have hsame := FrozenGrammar.same_iff hp.wellFormed hq.wellFormed
    have hthaw := Grammar.sameParts_iff_reordered (FrozenGrammar.wellFormed_thaw hp.wellFormed)
      (FrozenGrammar.wellFormed_thaw hq.wellFormed)
    refine ⟨?_, ?_, ?_⟩
    · rw [hsame, hthaw, FrozenGrammar.view_thaw hp.wellFormed,
        FrozenGrammar.view_thaw hq.wellFormed]
    · rw [FrozenGrammar.same_eq hp.wellFormed hq.wellFormed]
    · exact fun e => FrozenGrammar.interchangeable_of_thaw hp.wellFormed hq.wellFormed (hsame.1 e)

end

section

open scoped Host

/-- Two bodies of one head, and two terminals. -/
def inOrder : Grammar :=
  [.addTerminal (.text "a"), .addTerminal (.text "b"),
    .rule (.addProduction (.text "S") (.text "ab")),
    .rule (.addHead (.text "T"))].foldl (fun g e => (g.apply e).1) (.new "g" ⟨"S"⟩ "")

def outOfOrder : Grammar :=
  [.rule (.addHead (.text "T")),
    .rule (.addProduction (.text "S") (.list [.text "b", .list [.symbol ⟨"a"⟩]])),
    .addTerminal (.text "b"), .addTerminal (.text "a")].foldl
    (fun g e => (g.apply e).1) (.new "g" ⟨"S"⟩ "")

/-- Edits of which the first breaks off at its second body, and the next two miss their head. -/
def faultyEdits : List GrammarEdit := [
  .rule (.removeProduction (.text "S") (.list [.text "b", .null, .text "a"])),
  .rule (.addBody (.text "R") .null),
  .rule (.removeHead (.text "R")),
  .rule (.addProduction (.text "R") (.list [.text "aS", .list []])),
  .reclassify]

theorem same_outOfOrder :
    inOrder.Reachable ∧ outOfOrder.Reachable ∧ inOrder ≠ outOfOrder ∧
      inOrder.view.Reordered outOfOrder.view ∧
      (afterEdits Grammar.apply outOfOrder faultyEdits).2 =
        [some (.argument (.notIterable .null)), some (.missingHead [⟨"R"⟩]),
          some (.missingHead [⟨"R"⟩]), none, none] ∧
      (afterEdits Grammar.apply inOrder faultyEdits).1.same
        (afterEdits Grammar.apply outOfOrder faultyEdits).1 = true ∧
      (afterEdits FrozenGrammar.step outOfOrder.freeze faultyEdits).2 =
        [some (.notIterable .null), some (.notIterable .null), none, none, none] := by
  have hin : inOrder.Reachable := .edit _ (.edit _ (.edit _ (.edit _ (.new "g" ⟨"S"⟩ ""))))
  have hout : outOfOrder.Reachable := .edit _ (.edit _ (.edit _ (.edit _ (.new "g" ⟨"S"⟩ ""))))
  have hsame : inOrder.same outOfOrder = true := by decide +kernel
  obtain ⟨-, -, heditable, hfrozen⟩ := same_congruence
  obtain ⟨hreordered, hfreeze, hinterchangeable⟩ := heditable _ _ hin hout
  obtain ⟨herrors, hafter⟩ := (hinterchangeable hsame).run faultyEdits
  have hrun := ((hfrozen _ _ (.freeze hin) (.freeze hout)).2.2 (hfreeze.1 hsame)).run faultyEdits
  refine ⟨hin, hout, by decide +kernel, hreordered.1 hsame, ?_, hafter, ?_⟩
  · rw [← herrors]
    decide +kernel
  · rw [← hrun.1]
    decide +kernel

end

end PhraseGrammar
