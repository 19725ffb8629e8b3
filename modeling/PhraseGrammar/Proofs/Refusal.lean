import PhraseGrammar.Proofs.Lockstep
import PhraseGrammar.Proofs.Showing

/-!
# PhraseGrammar.Proofs.Refusal

Which edits in place fail, with what error, and what they leave behind.

* `Value.IsIterable`, `Value.IsWord`: the arguments that list something, and those that are words.
* `Value.BreaksOff`: what is wrong with an argument that should list words, and the values before.
* `RuleEdit.Refused`: an edit fails with an error and leaves a relation.

`RuleEdit.Refused.apply_eq` says that an edit fails like this, `RuleEdit.ok_or_refused` that it
fails in no other case. `refused_iff_of_reachable` puts both together, for relations and grammars.
-/

namespace PhraseGrammar

/-! ## Arguments -/

namespace Value

/-- Texts, lists and objects can be gone through. -/
def IsIterable (v : Value) : Prop := v.kind = .text ∨ v.kind = .list ∨ v.kind = .object

instance (v : Value) : Decidable v.IsIterable :=
  inferInstanceAs (Decidable (v.kind = .text ∨ v.kind = .list ∨ v.kind = .object))

theorem elements_ok_iff {v : Value} {vs : List Value} :
    v.elements = .ok vs ↔ v.elements? = some vs := by
  unfold elements
  cases v.elements? <;> simp

theorem elements_of_not_iterable {v : Value} (h : ¬v.IsIterable) :
    v.elements = .error (.notIterable v.kind) := by
  cases v <;> simp [IsIterable, kind] at h <;> rfl

theorem elements_cases (v : Value) : ¬v.IsIterable ∨ ∃ vs, v.elements? = some vs := by
  cases hvs : v.elements? with
  | some vs => exact .inr ⟨vs, rfl⟩
  | none => exact .inl (by cases v <;> simp [elements?] at hvs <;> simp [IsIterable, kind])

end Value

theorem Relation.mem_heads_iff {r : Relation} {h : Word} :
    h ∈ r.heads ↔ ∃ s, r.rules.get? h = some s := by
  rw [← Option.isSome_iff_exists]
  exact OrderedMap.get?_isSome_iff.symm

section

variable [Host]

namespace Value

/-- A symbol is a word, and so is everything that can be gone through and yields values that have
texts. Only lists may yield others. -/
inductive IsWord : Value → Prop where
  | symbol (s : Symbol) : IsWord (.symbol s)
  | text (t : Text) : IsWord (.text t)
  | object (fields : List (Text × Value)) : IsWord (.object fields)
  | list {vs : List Value} : (∀ v ∈ vs, v.HasText) → IsWord (.list vs)

/-- A value is no word, and the error says why. -/
inductive NoWord : Value → ArgumentError → Prop where
  | notIterable {v : Value} : v.kind ≠ .symbol → ¬v.IsIterable → NoWord v (.notIterable v.kind)
  | noText {vs : List Value} {e : DisplayError} : FirstLacks vs e → NoWord (.list vs) (.noText e)

theorem toWord_of_noWord {v : Value} {err : ArgumentError} (h : v.NoWord err) :
    v.toWord = .error err := by
  cases h with
  | notIterable hsymbol hiterable =>
    cases v <;> simp [IsIterable, kind] at hsymbol hiterable <;> rfl
  | noText hfirst =>
    simp only [toWord, elements, elements?, toSymbols, displayAll_eq_error_iff.2 hfirst]

theorem toWord_of_isWord {v : Value} (h : v.IsWord) : ∃ w, v.toWord = .ok w := by
  cases h with
  | symbol s => exact ⟨_, rfl⟩
  | text t => exact ⟨_, rfl⟩
  | object fields =>
    have hname : ∀ f : Text × Value, (Value.text f.1).display = .ok f.1 :=
      fun f => display_text f.1
    have hall := displayAll_map hname fields
    exact ⟨_, by simp only [toWord, elements, elements?, toSymbols, hall]; rfl⟩
  | list hvs =>
    obtain ⟨ts, hts⟩ := displayAll_eq_ok_iff.2 hvs
    exact ⟨_, by simp only [toWord, elements, elements?, toSymbols, hts]; rfl⟩

theorem isWord_or_noWord (v : Value) : v.IsWord ∨ ∃ err, v.NoWord err := by
  cases v with
  | symbol s => exact .inl (.symbol s)
  | text t => exact .inl (.text t)
  | object fields => exact .inl (.object fields)
  | list vs =>
    cases hall : displayAll vs with
    | ok ts => exact .inl (.list (displayAll_eq_ok_iff.1 ⟨ts, hall⟩))
    | error e => exact .inr ⟨_, .noText (displayAll_eq_error_iff.1 hall)⟩
  | _ => exact .inr ⟨_, .notIterable (by simp [kind]) (by simp [IsIterable, kind])⟩

theorem words_or_fault (vs : List Value) :
    (∀ v ∈ vs, v.IsWord) ∨ ∃ before bad after err,
      vs = before ++ bad :: after ∧ (∀ v ∈ before, v.IsWord) ∧ bad.NoWord err := by
  induction vs with
  | nil => exact .inl fun v hv => nomatch hv
  | cons v vs ih =>
    rcases isWord_or_noWord v with hv | ⟨err, hv⟩
    · rcases ih with hall | ⟨before, bad, after, err, rfl, hbefore, hbad⟩
      · exact .inl (List.forall_mem_cons.2 ⟨hv, hall⟩)
      · exact .inr ⟨v :: before, bad, after, err, rfl, List.forall_mem_cons.2 ⟨hv, hbefore⟩, hbad⟩
    · exact .inr ⟨[], v, vs, err, rfl, List.forall_mem_nil _, hv⟩

/-- An argument does not list words only: it cannot be gone through, or one of its elements is no
word. With it stand the values before the fault and the error. -/
inductive BreaksOff : Value → List Value → ArgumentError → Prop where
  | notIterable {bodies : Value} :
      ¬bodies.IsIterable → BreaksOff bodies [] (.notIterable bodies.kind)
  | notWord {bodies bad : Value} {before after : List Value} {err : ArgumentError} :
      bodies.elements? = some (before ++ bad :: after) → (∀ v ∈ before, v.IsWord) →
      bad.NoWord err → BreaksOff bodies before err

theorem BreaksOff.words {bodies : Value} {before : List Value} {err : ArgumentError}
    (h : bodies.BreaksOff before err) : ∀ v ∈ before, v.IsWord := by
  cases h with
  | notIterable _ => exact List.forall_mem_nil _
  | notWord _ hbefore _ => exact hbefore

theorem words_or_breaksOff (bodies : Value) :
    (∃ vs, bodies.elements? = some vs ∧ ∀ v ∈ vs, v.IsWord) ∨
      ∃ before err, bodies.BreaksOff before err := by
  rcases elements_cases bodies with hnot | ⟨vs, hvs⟩
  · exact .inr ⟨[], _, .notIterable hnot⟩
  · rcases words_or_fault vs with hall | ⟨before, bad, after, err, rfl, hbefore, hbad⟩
    · exact .inl ⟨vs, hvs, hall⟩
    · exact .inr ⟨before, err, .notWord hvs hbefore hbad⟩

theorem readWords_words {vs : List Value} (h : ∀ v ∈ vs, v.IsWord) : (readWords vs).2 = none := by
  induction vs with
  | nil => rfl
  | cons v vs ih =>
    obtain ⟨hv, hvs⟩ := List.forall_mem_cons.1 h
    obtain ⟨w, hw⟩ := toWord_of_isWord hv
    simp only [readWords, hw]
    exact ih hvs

theorem readWords_fault {before after : List Value} {bad : Value} {err : ArgumentError}
    (hbefore : ∀ v ∈ before, v.IsWord) (hbad : bad.NoWord err) :
    readWords (before ++ bad :: after) = ((readWords before).1, some err) := by
  induction before with
  | nil => simp only [List.nil_append, readWords, toWord_of_noWord hbad]
  | cons v vs ih =>
    obtain ⟨hv, hvs⟩ := List.forall_mem_cons.1 hbefore
    obtain ⟨w, hw⟩ := toWord_of_isWord hv
    simp only [List.cons_append, readWords, hw, ih hvs]

end Value

/-! ## Refusals -/

namespace RuleEdit

def head : RuleEdit → Value
  | .addHead head | .removeHead head => head
  | .addBody head _ | .removeBody head _ => head
  | .addProduction head _ | .removeProduction head _ => head

def needsHead : RuleEdit → Bool
  | .addHead _ | .addProduction _ _ => false
  | _ => true

/-- An edit in place fails with an error and leaves a relation. A head that is no word, or that is
missing, is noticed before any body is looked at. Where several bodies are given, what is left is
what the edit leaves, and succeeds with, if only the bodies before the fault are given. -/
inductive Refused (r : Relation) : RuleEdit → EditError → Relation → Prop where
  | head {e : RuleEdit} {err : ArgumentError} : e.head.NoWord err → Refused r e (.argument err) r
  | missing {e : RuleEdit} {h : Word} : e.needsHead = true → e.head.toWord = .ok h →
      h ∉ r.heads → Refused r e (.missingHead h) r
  | addBody {head body : Value} {h : Word} {err : ArgumentError} :
      head.toWord = .ok h → h ∈ r.heads → body.NoWord err →
      Refused r (.addBody head body) (.argument err) r
  | removeBody {head body : Value} {h : Word} {err : ArgumentError} :
      head.toWord = .ok h → h ∈ r.heads → body.NoWord err →
      Refused r (.removeBody head body) (.argument err) r
  | addProduction {head bodies : Value} {before : List Value} {err : ArgumentError}
      {r' : Relation} :
      head.IsWord → bodies.BreaksOff before err →
      r.apply (.addProduction head (.list before)) = (r', none) →
      Refused r (.addProduction head bodies) (.argument err) r'
  | removeProduction {head bodies : Value} {before : List Value} {err : ArgumentError} {h : Word}
      {r' : Relation} :
      head.toWord = .ok h → h ∈ r.heads → bodies.BreaksOff before err →
      r.apply (.removeProduction head (.list before)) = (r', none) →
      Refused r (.removeProduction head bodies) (.argument err) r'

end RuleEdit

namespace Relation

variable {r : Relation} {head : Value} {h : Word}

theorem apply_badHead {e : RuleEdit} {err : ArgumentError} (he : e.head.NoWord err) :
    r.apply e = (r, some (.argument err)) := by
  have hword := Value.toWord_of_noWord he
  cases e <;> simp only [RuleEdit.head] at hword ⊢ <;> simp only [apply, withHead, hword]

theorem apply_missingHead {e : RuleEdit} (hneeds : e.needsHead = true)
    (hword : e.head.toWord = .ok h) (hh : h ∉ r.heads) :
    r.apply e = (r, some (.missingHead h)) := by
  have hget : r.rules.get? h = none := OrderedMap.get?_eq_none_iff.2 hh
  cases e <;> simp only [RuleEdit.head] at hword <;> cases hneeds <;>
    simp only [apply, withHead, hword, hget]

theorem withHead_eq {s : Bodies} (hword : head.toWord = .ok h) (hs : r.rules.get? h = some s)
    (edit : Word → Bodies → Relation × Option EditError) : r.withHead head edit = edit h s := by
  simp only [withHead, hword, hs]

/-- Merging what an argument yields merges the words up to the first value that is none. -/
theorem addProductionOf_elements {bodies : Value} {vs : List Value}
    (hvs : bodies.elements? = some vs) :
    r.addProductionOf h bodies =
      (⟨(r.addHead h).rules.set h (OrderedSet.insertAll (((r.addHead h).rules.get? h).getD .empty)
        (Value.readWords vs).1)⟩, (Value.readWords vs).2.map .argument) := by
  simp only [addProductionOf, Value.elements_ok_iff.2 hvs, Bodies.addEach_eq]

theorem removeProductionOf_elements {old : Bodies} {bodies : Value} {vs : List Value}
    (hvs : bodies.elements? = some vs) :
    r.removeProductionOf h old bodies =
      (⟨r.rules.set h (OrderedSet.eraseAll old (Value.readWords vs).1)⟩,
        (Value.readWords vs).2.map .argument) := by
  simp only [removeProductionOf, Value.elements_ok_iff.2 hvs, Bodies.removeEach_eq]

theorem addProductionOf_nil (hr : WellFormedRules r.rules) (hh : Word.IsNormal h) :
    (r.addProductionOf h (.list [])).1 = r.addHead h := by
  have hget := get?_addHead r h
  rw [show Word.normalize h = h from hh] at hget
  rw [addProductionOf_elements rfl, hget]
  exact congrArg Relation.mk (OrderedMap.set_get? (wellFormed_addHead hr h).nodup hget)

theorem removeProductionOf_nil (hr : WellFormedRules r.rules) {s : Bodies}
    (hs : r.rules.get? h = some s) : (r.removeProductionOf h s (.list [])).1 = r := by
  rw [removeProductionOf_elements rfl]
  exact congrArg Relation.mk (OrderedMap.set_get? hr.nodup hs)

theorem addProductionOf_breaksOff (hr : WellFormedRules r.rules) (hh : Word.IsNormal h)
    {bodies : Value} {before : List Value} {err : ArgumentError}
    (hbreak : bodies.BreaksOff before err) :
    r.addProductionOf h bodies =
      ((r.addProductionOf h (.list before)).1, some (.argument err)) := by
  cases hbreak with
  | notIterable hnot =>
    rw [addProductionOf_nil hr hh]
    simp only [addProductionOf, Value.elements_of_not_iterable hnot]
  | notWord hvs hbefore hbad =>
    rw [addProductionOf_elements hvs, addProductionOf_elements rfl,
      Value.readWords_fault hbefore hbad]
    rfl

theorem removeProductionOf_breaksOff (hr : WellFormedRules r.rules) {s : Bodies}
    (hs : r.rules.get? h = some s) {bodies : Value} {before : List Value} {err : ArgumentError}
    (hbreak : bodies.BreaksOff before err) :
    r.removeProductionOf h s bodies =
      ((r.removeProductionOf h s (.list before)).1, some (.argument err)) := by
  cases hbreak with
  | notIterable hnot =>
    rw [removeProductionOf_nil hr hs]
    simp only [removeProductionOf, Value.elements_of_not_iterable hnot]
  | notWord hvs hbefore hbad =>
    rw [removeProductionOf_elements hvs, removeProductionOf_elements rfl,
      Value.readWords_fault hbefore hbad]
    rfl

theorem apply_addProduction_words (hword : head.toWord = .ok h) {bodies : Value}
    {vs : List Value} (hvs : bodies.elements? = some vs) (hwords : ∀ v ∈ vs, v.IsWord) :
    (r.apply (.addProduction head bodies)).2 = none := by
  simp only [apply, hword, addProductionOf_elements hvs, Value.readWords_words hwords,
    Option.map_none]

theorem apply_removeProduction_words (hword : head.toWord = .ok h) (hh : h ∈ r.heads)
    {bodies : Value} {vs : List Value} (hvs : bodies.elements? = some vs)
    (hwords : ∀ v ∈ vs, v.IsWord) : (r.apply (.removeProduction head bodies)).2 = none := by
  obtain ⟨s, hs⟩ := mem_heads_iff.1 hh
  simp only [apply, withHead_eq hword hs, removeProductionOf_elements hvs,
    Value.readWords_words hwords, Option.map_none]

theorem apply_addProduction_before (hword : head.toWord = .ok h) {bodies : Value}
    {before : List Value} {err : ArgumentError} (hbreak : bodies.BreaksOff before err) :
    (r.apply (.addProduction head (.list before))).2 = none :=
  apply_addProduction_words hword (show (Value.list before).elements? = some before from rfl)
    hbreak.words

theorem apply_removeProduction_before (hword : head.toWord = .ok h) (hh : h ∈ r.heads)
    {bodies : Value} {before : List Value} {err : ArgumentError}
    (hbreak : bodies.BreaksOff before err) :
    (r.apply (.removeProduction head (.list before))).2 = none :=
  apply_removeProduction_words hword hh (show (Value.list before).elements? = some before from rfl)
    hbreak.words

theorem mem_heads_addProduction (hword : head.toWord = .ok h) (bodies : Value) :
    h ∈ (r.apply (.addProduction head bodies)).1.heads := by
  have hnormal : Word.normalize h = h := Value.isNormal_of_toWord hword
  have hget := get?_addHead r h
  rw [hnormal] at hget
  have hadded : h ∈ (r.addHead h).rules.keys :=
    OrderedMap.get?_isSome_iff.1 (by rw [hget]; rfl)
  simp only [apply, hword, addProductionOf, heads]
  split
  · exact hadded
  · rw [OrderedMap.keys_set, if_pos hadded]
    exact hadded

end Relation

namespace RuleEdit

variable {r : Relation} {e : RuleEdit}

theorem Refused.apply_eq (hr : WellFormedRules r.rules) {err : EditError} {r' : Relation}
    (h : e.Refused r err r') : r.apply e = (r', some err) := by
  cases h with
  | head hhead => exact Relation.apply_badHead hhead
  | missing hneeds hword hh => exact Relation.apply_missingHead hneeds hword hh
  | addBody hword hh hbody =>
    obtain ⟨s, hs⟩ := Relation.mem_heads_iff.1 hh
    simp only [Relation.apply, Relation.withHead_eq hword hs, Relation.withBody,
      Value.toWord_of_noWord hbody]
  | removeBody hword hh hbody =>
    obtain ⟨s, hs⟩ := Relation.mem_heads_iff.1 hh
    simp only [Relation.apply, Relation.withHead_eq hword hs, Relation.withBody,
      Value.toWord_of_noWord hbody]
  | addProduction hhead hbreak hbefore =>
    obtain ⟨h, hword⟩ := Value.toWord_of_isWord hhead
    simp only [Relation.apply, hword] at hbefore ⊢
    rw [Relation.addProductionOf_breaksOff hr (Value.isNormal_of_toWord hword) hbreak, hbefore]
  | removeProduction hword hh hbreak hbefore =>
    obtain ⟨s, hs⟩ := Relation.mem_heads_iff.1 hh
    simp only [Relation.apply, Relation.withHead_eq hword hs] at hbefore ⊢
    rw [Relation.removeProductionOf_breaksOff hr hs hbreak, hbefore]

/-- An edit that wants its head succeeds or is refused, if it does so where the head is there. -/
theorem ok_or_refused_of_head (hneeds : e.needsHead = true)
    (hthere : ∀ h s, e.head.toWord = .ok h → r.rules.get? h = some s →
      (r.apply e).2 = none ∨ ∃ err r', e.Refused r err r') :
    (r.apply e).2 = none ∨ ∃ err r', e.Refused r err r' := by
  rcases Value.isWord_or_noWord e.head with hhead | ⟨err, hhead⟩
  · obtain ⟨h, hword⟩ := Value.toWord_of_isWord hhead
    by_cases hh : h ∈ r.heads
    · obtain ⟨s, hs⟩ := Relation.mem_heads_iff.1 hh
      exact hthere h s hword hs
    · exact .inr ⟨_, _, .missing hneeds hword hh⟩
  · exact .inr ⟨_, _, .head hhead⟩

/-- Every edit succeeds or is refused. -/
theorem ok_or_refused (r : Relation) (e : RuleEdit) :
    (r.apply e).2 = none ∨ ∃ err r', e.Refused r err r' := by
  cases e with
  | addHead head =>
    rcases Value.isWord_or_noWord head with hhead | ⟨err, hhead⟩
    · obtain ⟨h, hword⟩ := Value.toWord_of_isWord hhead
      exact .inl (by simp only [Relation.apply, hword])
    · exact .inr ⟨_, _, .head hhead⟩
  | removeHead head =>
    refine ok_or_refused_of_head rfl fun h s (hword : head.toWord = .ok h) hs => .inl ?_
    simp only [Relation.apply, Relation.withHead_eq hword hs]
  | addBody head body =>
    refine ok_or_refused_of_head rfl fun h s (hword : head.toWord = .ok h) hs => ?_
    rcases Value.isWord_or_noWord body with hbody | ⟨err, hbody⟩
    · obtain ⟨w, hw⟩ := Value.toWord_of_isWord hbody
      refine .inl ?_
      simp only [Relation.apply, Relation.withHead_eq hword hs, Relation.withBody, hw]
    · exact .inr ⟨_, _, .addBody hword (Relation.mem_heads_iff.2 ⟨s, hs⟩) hbody⟩
  | removeBody head body =>
    refine ok_or_refused_of_head rfl fun h s (hword : head.toWord = .ok h) hs => ?_
    rcases Value.isWord_or_noWord body with hbody | ⟨err, hbody⟩
    · obtain ⟨w, hw⟩ := Value.toWord_of_isWord hbody
      refine .inl ?_
      simp only [Relation.apply, Relation.withHead_eq hword hs, Relation.withBody, hw]
    · exact .inr ⟨_, _, .removeBody hword (Relation.mem_heads_iff.2 ⟨s, hs⟩) hbody⟩
  | addProduction head bodies =>
    rcases Value.isWord_or_noWord head with hhead | ⟨err, hhead⟩
    · obtain ⟨h, hword⟩ := Value.toWord_of_isWord hhead
      rcases Value.words_or_breaksOff bodies with ⟨vs, hvs, hwords⟩ | ⟨before, err, hbreak⟩
      · exact .inl (Relation.apply_addProduction_words hword hvs hwords)
      · have hbefore := Relation.apply_addProduction_before (r := r) hword hbreak
        exact .inr ⟨_, _, .addProduction hhead hbreak (Prod.ext rfl hbefore)⟩
    · exact .inr ⟨_, _, .head hhead⟩
  | removeProduction head bodies =>
    refine ok_or_refused_of_head rfl fun h s (hword : head.toWord = .ok h) hs => ?_
    have hh : h ∈ r.heads := Relation.mem_heads_iff.2 ⟨s, hs⟩
    rcases Value.words_or_breaksOff bodies with ⟨vs, hvs, hwords⟩ | ⟨before, err, hbreak⟩
    · exact .inl (Relation.apply_removeProduction_words hword hh hvs hwords)
    · have hbefore := Relation.apply_removeProduction_before hword hh hbreak
      exact .inr ⟨_, _, .removeProduction hword hh hbreak (Prod.ext rfl hbefore)⟩

theorem refused_iff (hr : WellFormedRules r.rules) {err : EditError} {r' : Relation} :
    r.apply e = (r', some err) ↔ e.Refused r err r' := by
  constructor
  · intro happly
    rcases ok_or_refused r e with hok | ⟨err₂, r₂, hrefused⟩
    · rw [happly] at hok
      cases hok
    · rw [hrefused.apply_eq hr] at happly
      cases happly
      exact hrefused
  · exact fun h => h.apply_eq hr

theorem ok_iff (hr : WellFormedRules r.rules) :
    (r.apply e).2 = none ↔ ∀ err r', ¬e.Refused r err r' := by
  constructor
  · intro hok err r' hrefused
    rw [hrefused.apply_eq hr] at hok
    cases hok
  · intro hnever
    rcases ok_or_refused r e with hok | ⟨err, r', hrefused⟩
    · exact hok
    · exact absurd hrefused (hnever err r')

end RuleEdit

/-! ## Grammars -/

def GrammarEdit.symbol? : GrammarEdit → Option Value
  | .addTerminal v | .removeTerminal v | .addNonterminal v | .removeNonterminal v => some v
  | .setStart v => some v
  | _ => none

/-- An edit of a grammar fails with an error and leaves a grammar. An edit of the rules leaves
everything else as it was, and one that asks for a symbol everything. -/
inductive GrammarEdit.Refused (g : Grammar) : GrammarEdit → EditError → Grammar → Prop where
  | rule {edit : RuleEdit} {err : EditError} {r' : Relation} :
      edit.Refused g.relation err r' → Refused g (.rule edit) err { g with relation := r' }
  | symbol {e : GrammarEdit} {v : Value} {d : DisplayError} :
      e.symbol? = some v → v.LacksText d → Refused g e (.argument (.noText d)) g

namespace Grammar

variable {g : Grammar} {e : GrammarEdit}

theorem apply_of_symbol {v : Value} (h : e.symbol? = some v) :
    ∃ edit, g.apply e = g.withSymbol v edit := by
  cases e <;> cases h <;> exact ⟨_, rfl⟩

theorem withSymbol_eq_error_iff {v : Value} {edit : Symbol → Grammar} {err : EditError}
    {g' : Grammar} : g.withSymbol v edit = (g', some err) ↔
      ∃ d, v.LacksText d ∧ err = .argument (.noText d) ∧ g' = g := by
  unfold withSymbol
  cases hv : v.toSymbol with
  | ok s =>
    simp only [Prod.mk.injEq, reduceCtorEq, and_false, false_iff]
    rintro ⟨d, hd, -⟩
    rw [Value.toSymbol_eq_error_iff.2 ⟨d, hd, rfl⟩] at hv
    cases hv
  | error e =>
    obtain ⟨d, hd, rfl⟩ := Value.toSymbol_eq_error_iff.1 hv
    simp only [Prod.mk.injEq, Option.some.injEq]
    constructor
    · rintro ⟨rfl, rfl⟩
      exact ⟨d, hd, rfl, rfl⟩
    · rintro ⟨d', hd', rfl, rfl⟩
      rw [Value.toSymbol_eq_error_iff.2 ⟨d', hd', rfl⟩] at hv
      cases hv
      exact ⟨rfl, rfl⟩

/-- Of the edits of a grammar only those of its rules and those that ask for a symbol fail. -/
theorem apply_eq_error_iff (hg : g.WellFormed) {err : EditError} {g' : Grammar} :
    g.apply e = (g', some err) ↔ e.Refused g err g' := by
  constructor
  · intro happly
    cases hsymbol : e.symbol? with
    | some v =>
      obtain ⟨edit, hedit⟩ := apply_of_symbol (g := g) hsymbol
      rw [hedit] at happly
      obtain ⟨d, hd, rfl, rfl⟩ := withSymbol_eq_error_iff.1 happly
      exact .symbol hsymbol hd
    | none =>
      cases e with
      | rule edit =>
        simp only [apply, Prod.mk.injEq] at happly
        obtain ⟨rfl, herr⟩ := happly
        exact .rule ((RuleEdit.refused_iff hg.rules).1 (Prod.ext rfl herr))
      | setName | setType | reclassify => simp [apply] at happly
      | _ => cases hsymbol
  · intro h
    cases h with
    | rule hrefused => simp only [apply, hrefused.apply_eq hg.rules]
    | symbol hsymbol hd =>
      obtain ⟨edit, hedit⟩ := apply_of_symbol (g := g) hsymbol
      rw [hedit]
      exact withSymbol_eq_error_iff.2 ⟨_, hd, rfl, rfl⟩

theorem apply_ok_iff (hg : g.WellFormed) :
    (g.apply e).2 = none ↔ ∀ err g', ¬e.Refused g err g' := by
  simp only [← apply_eq_error_iff hg]
  cases happly : g.apply e with
  | mk g' err => cases err <;> simp

end Grammar

/-- **Refusals.** An edit of a relation fails, with the error and leaving the relation that
`RuleEdit.Refused` says, and in every other case it succeeds; a word into which something was merged
is a head, whether or not that failed. The edits of a grammar fail likewise, and with the error and
leaving the grammar that `GrammarEdit.Refused` says. -/
theorem refused_iff_of_reachable :
    (∀ r : Relation, r.Reachable → ∀ e : RuleEdit,
      (∀ err r', r.apply e = (r', some err) ↔ e.Refused r err r') ∧
      ((r.apply e).2 = none ↔ ∀ err r', ¬e.Refused r err r') ∧
      ∀ head bodies h, e = .addProduction head bodies → head.toWord = .ok h →
        h ∈ (r.apply e).1.heads) ∧
    ∀ g : Grammar, g.Reachable → ∀ e : GrammarEdit,
      (∀ err g', g.apply e = (g', some err) ↔ e.Refused g err g') ∧
      ((g.apply e).2 = none ↔ ∀ err g', ¬e.Refused g err g') ∧
      ∀ head bodies h, e = .rule (.addProduction head bodies) → head.toWord = .ok h →
        h ∈ (g.apply e).1.relation.heads := by
  constructor
  · intro r hr e
    refine ⟨fun err r' => RuleEdit.refused_iff hr.wellFormed, RuleEdit.ok_iff hr.wellFormed, ?_⟩
    rintro head bodies h rfl hword
    exact Relation.mem_heads_addProduction hword bodies
  · intro g hg e
    refine ⟨fun err g' => Grammar.apply_eq_error_iff hg.wellFormed,
      Grammar.apply_ok_iff hg.wellFormed, ?_⟩
    rintro head bodies h rfl hword
    exact Relation.mem_heads_addProduction hword bodies

end

section

open scoped Host

/-- A head that holds an integer of too many digits can be gone through, but it is refused all the
same. -/
theorem not_only_unwalkable_refused :
    ¬∀ (r : Relation) (head : Value), r.Reachable →
      (r.apply (.addHead head)).2 = none ∨
        ∃ kind, (r.apply (.addHead head)).2 = some (.argument (.notIterable kind)) := by
  intro h
  have hhuge : (Value.int Value.leastHuge).LacksText .hugeInteger :=
    ⟨by decide, by decide, Value.failsToShow_leastHuge _⟩
  have hword : (Value.list [.int Value.leastHuge]).NoWord (.noText .hugeInteger) :=
    .noText ⟨[], _, [], rfl, List.forall_mem_nil _, hhuge⟩
  have hrefused := Relation.apply_badHead (r := .empty)
    (e := .addHead (.list [.int Value.leastHuge])) hword
  have hempty : Relation.ofValue (.list []) = .ok .empty := rfl
  rcases h .empty (.list [.int Value.leastHuge]) (.build hempty) with hok | ⟨kind, hkind⟩
  · rw [hrefused] at hok
    cases hok
  · rw [hrefused] at hkind
    cases hkind

def threeBodies : Relation := ⟨⟨[([⟨"A"⟩], ⟨[[⟨"a"⟩], [⟨"b"⟩], [⟨"c"⟩]]⟩)]⟩⟩

/-- Of the bodies of this edit the second is no word, and the third is one of the head's. -/
def faultyRemoval : RuleEdit :=
  .removeProduction (.text "A") (.list [.text "b", .int 5, .text "c"])

theorem refused_threeBodies :
    threeBodies.Reachable ∧
      threeBodies.apply faultyRemoval =
        (⟨⟨[([⟨"A"⟩], ⟨[[⟨"a"⟩], [⟨"c"⟩]]⟩)]⟩⟩, some (.argument (.notIterable .int))) ∧
      [⟨"B"⟩] ∈ (threeBodies.apply (.addProduction (.text "B") .null)).1.heads ∧
      (Grammar.new "g" ⟨"S"⟩ "").Reachable ∧
      (Grammar.new "g" ⟨"S"⟩ "").apply (.rule faultyRemoval) =
        (Grammar.new "g" ⟨"S"⟩ "", some (.missingHead [⟨"A"⟩])) := by
  have hbuild : Relation.ofValue (.list [.list [.text "A", .text "abc"]]) = .ok threeBodies := rfl
  have hreach : threeBodies.Reachable := .build hbuild
  have hnew : (Grammar.new "g" ⟨"S"⟩ "").Reachable := .new "g" ⟨"S"⟩ ""
  have hfive : (Value.int 5).NoWord (.notIterable .int) := .notIterable (by decide) (by decide)
  have hbefore : ∀ v ∈ [Value.text "b"], v.IsWord := by
    intro v hv
    rw [List.mem_singleton.1 hv]
    exact .text "b"
  have hbreak : Value.BreaksOff (.list [.text "b", .int 5, .text "c"]) [.text "b"]
      (.notIterable .int) :=
    .notWord rfl hbefore hfive
  have hrefused : faultyRemoval.Refused threeBodies (.argument (.notIterable .int))
      ⟨⟨[([⟨"A"⟩], ⟨[[⟨"a"⟩], [⟨"c"⟩]]⟩)]⟩⟩ :=
    .removeProduction rfl (by decide) hbreak rfl
  have hmissing : faultyRemoval.Refused (Grammar.new "g" ⟨"S"⟩ "").relation
      (.missingHead [⟨"A"⟩]) .empty :=
    .missing rfl rfl (by decide)
  obtain ⟨hrules, hgrammars⟩ := refused_iff_of_reachable
  refine ⟨hreach, ((hrules _ hreach faultyRemoval).1 _ _).2 hrefused, ?_, hnew, ?_⟩
  · exact (hrules _ hreach _).2.2 (.text "B") .null _ rfl rfl
  · exact ((hgrammars _ hnew (.rule faultyRemoval)).1 _ _).2 (.rule hmissing)

end

end PhraseGrammar
