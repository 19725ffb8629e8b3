import PhraseGrammar.Notation.Declarations
import PhraseGrammar.Proofs.Rebuild
import PhraseGrammar.Record.Text

/-!
# PhraseGrammar.Proofs.Reachable

The values that a caller can come by.

* `Alphabet.Reachable`, `Relation.Reachable`, `FrozenRules.Reachable`: parts of grammars, built
  from arguments and edited, also by edits that fail midway.
* `Grammar.Reachable`, `FrozenGrammar.Reachable`: grammars made new, from parts, from a text, from
  a record, or from one another, and edited in any way. A grammar shares no part with another.

All of them are well-formed: `Grammar.Reachable.wellFormed`, `FrozenGrammar.Reachable.wellFormed`.
-/

namespace PhraseGrammar

section

variable [Host]

/-- The alphabets that building, adding and removing lead to. -/
inductive Alphabet.Reachable : Alphabet → Prop where
  | build {v : Value} {a : Alphabet} : Alphabet.ofValue v = .ok a → Reachable a
  | ofList (symbols : List Symbol) : Reachable (.ofList symbols)
  | add {a : Alphabet} {v : Value} {s : Symbol} :
      Reachable a → v.toSymbol = .ok s → Reachable (OrderedSet.insert a s)
  | remove {a : Alphabet} {v : Value} {s : Symbol} :
      Reachable a → v.toSymbol = .ok s → Reachable (OrderedSet.erase a s)

/-- The relations that building, copying and edits lead to. -/
inductive Relation.Reachable : Relation → Prop where
  | build {v : Value} {r : Relation} : Relation.ofValue v = .ok r → Reachable r
  | copy {r : Relation} : Reachable r → Reachable r.copy
  | edit {r : Relation} (e : RuleEdit) : Reachable r → Reachable (r.apply e).1

/-- The frozen rules that building and edits lead to. -/
inductive FrozenRules.Reachable : FrozenRules → Prop where
  | empty : Reachable .empty
  | build {v : Value} {r : FrozenRules} : FrozenRules.ofValue v = .ok r → Reachable r
  | edit {r : FrozenRules} {e : RuleEdit} {u : Update FrozenRules} :
      Reachable r → r.apply e = .ok u → Reachable (u.on r)

mutual

/-- The editable grammars that a caller can come by. -/
inductive Grammar.Reachable : Grammar → Prop where
  | new (id : Text) (start : Symbol) (name : Text) : Grammar.Reachable (.new id start name)
  | ofParts (id : Text) (start : Symbol) (name : Text) (type : GrammarType)
      {terminals nonterminals : Alphabet} {relation : Relation} :
      terminals.Reachable → nonterminals.Reachable → relation.Reachable →
      Grammar.Reachable ⟨id, start, name, type, terminals, nonterminals, relation⟩
  | parse {source : String} {givenId : Option Text} {freshId : Text} {g : Grammar} :
      Notation.parse source givenId freshId = .ok g → Grammar.Reachable g
  | ofDocument {document : Value} {r : Record} :
      Record.ofDocument document = .ok r → Grammar.Reachable (.ofRecord r)
  | ofText {text : String} {r : Record} :
      Record.read text = .ok r → Grammar.Reachable (.ofRecord r)
  | copy {g : Grammar} : Grammar.Reachable g → Grammar.Reachable g.copy
  | thaw {p : FrozenGrammar} : FrozenGrammar.Reachable p → Grammar.Reachable p.thaw
  | edit {g : Grammar} (e : GrammarEdit) : Grammar.Reachable g → Grammar.Reachable (g.apply e).1

/-- The frozen grammars that a caller can come by. -/
inductive FrozenGrammar.Reachable : FrozenGrammar → Prop where
  | new (id : Text) (start : Symbol) (name : Text) :
      FrozenGrammar.Reachable (.new id start name)
  | ofParts (id : Text) (start : Symbol) (name : Text) (type : GrammarType)
      {terminals nonterminals : Alphabet} {rules : FrozenRules} :
      terminals.Reachable → nonterminals.Reachable → rules.Reachable →
      FrozenGrammar.Reachable ⟨id, start, name, type, terminals, nonterminals, rules⟩
  | ofDocument {document : Value} {r : Record} :
      Record.ofDocument document = .ok r → FrozenGrammar.Reachable (.ofRecord r)
  | freeze {g : Grammar} : Grammar.Reachable g → FrozenGrammar.Reachable g.freeze
  | edit {p : FrozenGrammar} {e : GrammarEdit} {u : Update FrozenGrammar} :
      FrozenGrammar.Reachable p → p.apply e = .ok u → FrozenGrammar.Reachable (u.on p)

end

/-! ## Parts -/

theorem Alphabet.Reachable.nodup {a : Alphabet} (h : a.Reachable) : a.toList.Nodup := by
  induction h with
  | build hv =>
    simp only [Alphabet.ofValue, bind, Except.bind, pure, Except.pure] at hv
    split at hv
    · cases hv
    · split at hv <;> cases hv
      exact OrderedSet.nodup_ofList _
  | ofList symbols => exact OrderedSet.nodup_ofList symbols
  | add _ _ ih => exact OrderedSet.nodup_insert ih _
  | remove _ _ ih => exact OrderedSet.nodup_erase ih _

theorem Relation.wellFormed_addPairs {r r' : Relation} (h : WellFormedRules r.rules) :
    ∀ {vs : List Value}, r.addPairs vs = .ok r' → WellFormedRules r'.rules := by
  intro vs
  induction vs generalizing r with
  | nil => intro hr; cases hr; exact h
  | cons v vs ih =>
    intro hr
    simp only [addPairs] at hr
    split at hr
    · cases hr
    · rename_i head bodies _
      have hstep := wellFormed_apply h (.addProduction head bodies)
      split at hr
      · cases hr
      · rename_i r₁ hr₁
        rw [hr₁] at hstep
        exact ih hstep hr

theorem Relation.Reachable.wellFormed {r : Relation} (h : r.Reachable) :
    WellFormedRules r.rules := by
  induction h with
  | build hv =>
    unfold Relation.ofValue at hv
    split at hv
    · cases hv
    · exact Relation.wellFormed_addPairs .empty hv
  | copy _ ih => rw [Relation.copy_eq ih]; exact ih
  | edit e _ ih => exact Relation.wellFormed_apply ih e

end

namespace FrozenRules

variable {r : FrozenRules}

theorem wellFormed_addProduction (h : WellFormedRules r.rules) (head : Word)
    (bodies : List Word) : WellFormedRules ((r.addProduction head bodies).on r).rules := by
  rw [on_addProduction h]
  exact Relation.wellFormed_addProduction (r := ⟨r.rules⟩) h head bodies

theorem wellFormed_removeProduction (h : WellFormedRules r.rules) (head : Word)
    (bodies : List Word) : WellFormedRules ((r.removeProduction head bodies).on r).rules := by
  cases hold : r.rules.get? (Word.normalize head) with
  | none => rw [removeProduction_missing hold]; exact h
  | some old =>
    rw [on_removeProduction h hold]
    exact h.set (h.of_get? hold).1 ((h.of_get? hold).2.eraseAll _)

section

variable [Host]

theorem wellFormed_apply (h : WellFormedRules r.rules) {e : RuleEdit} {u : Update FrozenRules}
    (hu : r.apply e = .ok u) : WellFormedRules (u.on r).rules := by
  cases e with
  | addHead head =>
    simp only [apply, bind, Except.bind, pure, Except.pure] at hu
    split at hu <;> cases hu
    rw [on_addHead]
    exact Relation.wellFormed_addHead (r := ⟨r.rules⟩) h _
  | removeHead head =>
    simp only [apply, bind, Except.bind, pure, Except.pure] at hu
    split at hu <;> cases hu
    rw [on_removeHead]
    exact h.erase _
  | addBody head body =>
    simp only [apply, bind, Except.bind, pure, Except.pure] at hu
    split at hu
    · cases hu
    · split at hu <;> cases hu
      exact wellFormed_addProduction h _ _
  | removeBody head body =>
    simp only [apply, bind, Except.bind, pure, Except.pure] at hu
    split at hu
    · cases hu
    · split at hu
      · split at hu <;> cases hu
        exact wellFormed_removeProduction h _ _
      · cases hu
        exact h
  | addProduction head bodies =>
    simp only [apply, bind, Except.bind, pure, Except.pure] at hu
    split at hu
    · cases hu
    · split at hu
      · cases hu
      · split at hu <;> cases hu
        exact wellFormed_addProduction h _ _
  | removeProduction head bodies =>
    simp only [apply, bind, Except.bind, pure, Except.pure] at hu
    split at hu
    · cases hu
    · split at hu
      · split at hu
        · cases hu
        · split at hu <;> cases hu
          exact wellFormed_removeProduction h _ _
      · cases hu
        exact h

theorem wellFormed_addPairs (h : WellFormedRules r.rules) {r' : FrozenRules} :
    ∀ {vs : List Value}, r.addPairs vs = .ok r' → WellFormedRules r'.rules := by
  intro vs
  induction vs generalizing r with
  | nil => intro hr; cases hr; exact h
  | cons v vs ih =>
    intro hr
    simp only [addPairs, bind, Except.bind] at hr
    split at hr
    · cases hr
    · split at hr
      · cases hr
      · rename_i u hu
        exact ih (wellFormed_apply h hu) hr

theorem Reachable.wellFormed (h : r.Reachable) : WellFormedRules r.rules := by
  induction h with
  | empty => exact .empty
  | build hv =>
    simp only [FrozenRules.ofValue, bind, Except.bind] at hv
    split at hv
    · cases hv
    · exact wellFormed_addPairs (r := .empty) .empty hv
  | edit _ hu ih => exact wellFormed_apply ih hu

end

end FrozenRules

/-! ## Grammars -/

theorem Grammar.wellFormed_freeze {g : Grammar} (h : g.WellFormed) : g.freeze.WellFormed := by
  rw [Grammar.freeze_eq h]
  exact ⟨h.terminals, h.nonterminals, h.rules⟩

theorem FrozenGrammar.wellFormed_thaw {p : FrozenGrammar} (h : p.WellFormed) :
    p.thaw.WellFormed := by
  rw [FrozenGrammar.thaw_eq h]
  exact ⟨h.terminals, h.nonterminals, h.rules⟩

theorem Grammar.wellFormed_copy {g : Grammar} (h : g.WellFormed) : g.copy.WellFormed := by
  rw [Grammar.copy_eq h]
  exact h

theorem Grammar.wellFormed_ofRecord (r : Record) : (Grammar.ofRecord r).WellFormed := by
  unfold Grammar.ofRecord
  have hrules := Relation.wellFormed_ofPairs r.items
  cases r.type with
  | none => exact ⟨OrderedSet.nodup_ofList _, OrderedSet.nodup_ofList _, hrules⟩
  | some type => exact ⟨OrderedSet.nodup_ofList _, OrderedSet.nodup_ofList _, hrules⟩

theorem FrozenGrammar.wellFormed_setType {p : FrozenGrammar} (h : p.WellFormed)
    (type : GrammarType) : ((p.setType type).on p).WellFormed := by
  rw [on_setType]
  exact ⟨h.terminals, h.nonterminals, h.rules⟩

theorem FrozenGrammar.wellFormed_ofRecord (r : Record) :
    (FrozenGrammar.ofRecord r).WellFormed := by
  have hrules : WellFormedRules (FrozenRules.ofPairs r.items).rules := by
    rw [FrozenRules.ofPairs_eq]
    exact Relation.wellFormed_ofPairs r.items
  unfold FrozenGrammar.ofRecord
  cases r.type with
  | none =>
    exact wellFormed_setType ⟨OrderedSet.nodup_ofList _, OrderedSet.nodup_ofList _, hrules⟩ _
  | some type =>
    exact wellFormed_setType ⟨OrderedSet.nodup_ofList _, OrderedSet.nodup_ofList _, hrules⟩ _

section

variable [Host]

theorem Grammar.wellFormed_parse {source : String} {givenId : Option Text} {freshId : Text}
    {g : Grammar} (h : Notation.parse source givenId freshId = .ok g) : g.WellFormed := by
  unfold Notation.parse at h
  split at h
  · cases h
  · rename_i d _
    split at h
    · cases h
    · rename_i g' hg
      cases h
      unfold Notation.Declarations.grammar at hg
      split at hg
      · cases hg
      · have hrules := Relation.wellFormed_ofPairs d.rules
        simp only at hg
        split at hg <;> cases hg
        · exact ⟨OrderedSet.nodup_ofList _, OrderedSet.nodup_ofList _, hrules⟩
        · exact ⟨OrderedSet.nodup_ofList _, OrderedSet.nodup_ofList _, hrules⟩

theorem FrozenGrammar.wellFormed_apply {p : FrozenGrammar} (h : p.WellFormed) {e : GrammarEdit}
    {u : Update FrozenGrammar} (hu : p.apply e = .ok u) : (u.on p).WellFormed := by
  cases e with
  | addTerminal symbol =>
    obtain ⟨s, -, rfl⟩ := of_withSymbol hu
    rw [on_terminals, OrderedSet.on_add?]
    exact ⟨OrderedSet.nodup_insert h.terminals _, h.nonterminals, h.rules⟩
  | removeTerminal symbol =>
    obtain ⟨s, -, rfl⟩ := of_withSymbol hu
    rw [on_terminals, OrderedSet.on_remove? h.terminals]
    exact ⟨OrderedSet.nodup_erase h.terminals _, h.nonterminals, h.rules⟩
  | addNonterminal symbol =>
    obtain ⟨s, -, rfl⟩ := of_withSymbol hu
    rw [on_nonterminals, OrderedSet.on_add?]
    exact ⟨h.terminals, OrderedSet.nodup_insert h.nonterminals _, h.rules⟩
  | removeNonterminal symbol =>
    obtain ⟨s, -, rfl⟩ := of_withSymbol hu
    rw [on_nonterminals, OrderedSet.on_remove? h.nonterminals]
    exact ⟨h.terminals, OrderedSet.nodup_erase h.nonterminals _, h.rules⟩
  | rule e =>
    simp only [FrozenGrammar.apply] at hu
    split at hu
    · cases hu
    · rename_i u' hu'
      cases hu
      rw [on_rules]
      exact ⟨h.terminals, h.nonterminals, FrozenRules.wellFormed_apply h.rules hu'⟩
  | setName name =>
    cases hu
    split
    · exact h
    · exact ⟨h.terminals, h.nonterminals, h.rules⟩
  | setStart symbol =>
    obtain ⟨s, -, rfl⟩ := of_withSymbol hu
    unfold setStart
    split
    · exact h
    · exact ⟨h.terminals, h.nonterminals, h.rules⟩
  | setType type => cases hu; exact wellFormed_setType h type
  | reclassify => cases hu; exact wellFormed_setType h _

mutual

theorem Grammar.Reachable.wellFormed : ∀ {g : Grammar}, g.Reachable → g.WellFormed
  | _, .new _ _ _ => ⟨List.nodup_nil, List.nodup_nil, .empty⟩
  | _, .ofParts _ _ _ _ ht hn hr => ⟨ht.nodup, hn.nodup, hr.wellFormed⟩
  | _, .parse h => Grammar.wellFormed_parse h
  | _, .ofDocument _ => Grammar.wellFormed_ofRecord _
  | _, .ofText _ => Grammar.wellFormed_ofRecord _
  | _, .copy h => Grammar.wellFormed_copy h.wellFormed
  | _, .thaw h => FrozenGrammar.wellFormed_thaw h.wellFormed
  | _, .edit e h => Grammar.wellFormed_apply h.wellFormed e

theorem FrozenGrammar.Reachable.wellFormed : ∀ {p : FrozenGrammar}, p.Reachable → p.WellFormed
  | _, .new _ _ _ => ⟨List.nodup_nil, List.nodup_nil, .empty⟩
  | _, .ofParts _ _ _ _ ht hn hr => ⟨ht.nodup, hn.nodup, hr.wellFormed⟩
  | _, .ofDocument _ => FrozenGrammar.wellFormed_ofRecord _
  | _, .freeze h => Grammar.wellFormed_freeze h.wellFormed
  | _, .edit h hu => FrozenGrammar.wellFormed_apply h.wellFormed hu

end

end

end PhraseGrammar
