import PhraseGrammar.Proofs.Reachable
import PhraseGrammar.Proofs.Showing

/-!
# PhraseGrammar.Proofs.Documents

What reading a document as a grammar comes to.

* `FrozenGrammar.ofDocument_eq`: a document gives the same grammar in either kind, or the same
  error.

`ofDocument_agree` spells out the agreement, with the type of a document that names none.
-/

namespace PhraseGrammar

/-! ## Both kinds of grammars -/

theorem Grammar.freeze_ofRecord (r : Record) :
    (Grammar.ofRecord r).freeze = FrozenGrammar.ofRecord r := by
  rw [Grammar.freeze_eq (Grammar.wellFormed_ofRecord r)]
  unfold Grammar.ofRecord FrozenGrammar.ofRecord
  rw [FrozenRules.ofPairs_eq]
  cases r.type with
  | none =>
    simp only [FrozenGrammar.reclassify, FrozenGrammar.on_setType]
    rfl
  | some type =>
    simp only [FrozenGrammar.on_setType]

theorem Grammar.type_ofRecord {r : Record} (h : r.type = none) :
    (Grammar.ofRecord r).type = (Grammar.ofRecord r).view.classify := by
  unfold Grammar.ofRecord
  rw [h]
  rfl

section

variable [Host]

/-- Reading a document as a frozen grammar is reading it as an editable one and freezing that. -/
theorem FrozenGrammar.ofDocument_eq (document : Value) :
    FrozenGrammar.ofDocument document = (Grammar.ofDocument document).map Grammar.freeze := by
  unfold FrozenGrammar.ofDocument Grammar.ofDocument
  cases Record.ofDocument document with
  | error e => rfl
  | ok r => exact congrArg Except.ok (Grammar.freeze_ofRecord r).symm

namespace Record

theorem readType_of_null {fields : List (Text × Value)}
    (h : (Value.lookup fields "type").getD .null = .null) : readType fields = .ok none := by
  unfold readType
  cases hlookup : Value.lookup fields "type" with
  | none => rfl
  | some v =>
    rw [hlookup, Option.getD_some] at h
    rw [h]

theorem type_of_ofDocument {fields : List (Text × Value)} {r : Record}
    (h : ofDocument (.object fields) = .ok r)
    (hnull : (Value.lookup fields "type").getD .null = .null) : r.type = none := by
  simp only [ofDocument, readType_of_null hnull, bind_eq_ok_iff] at h
  obtain ⟨id, -, start, -, name, -, nonterminals, -, terminals, -, elements, -, rules, -, type,
    htype, hr⟩ := h
  cases htype
  cases hr
  rfl

end Record

theorem Grammar.type_of_ofDocument {fields : List (Text × Value)} {g : Grammar}
    (h : Grammar.ofDocument (.object fields) = .ok g)
    (hnull : (Value.lookup fields "type").getD .null = .null) : g.type = g.view.classify := by
  obtain ⟨r, hr, hg⟩ := bind_eq_ok_iff.1 h
  cases hg
  exact Grammar.type_ofRecord (Record.type_of_ofDocument hr hnull)

/-- A document gives grammars of both kinds with the same contents in the same order, or the same
error. The type is that of the rules if the document names none. -/
theorem ofDocument_agree (document : Value) :
    (∃ g p, Grammar.ofDocument document = .ok g ∧ FrozenGrammar.ofDocument document = .ok p ∧
      g.freeze = p ∧
      ∀ fields, document = .object fields → (Value.lookup fields "type").getD .null = .null →
        g.type = g.view.classify ∧ p.type = p.view.classify) ∨
    ∃ e, Grammar.ofDocument document = .error e ∧ FrozenGrammar.ofDocument document = .error e := by
  have heq := FrozenGrammar.ofDocument_eq document
  cases hg : Grammar.ofDocument document with
  | error e =>
    rw [hg] at heq
    exact .inr ⟨e, rfl, heq⟩
  | ok g =>
    rw [hg] at heq
    refine .inl ⟨g, g.freeze, rfl, heq, rfl, ?_⟩
    rintro fields rfl hnull
    have htype := Grammar.type_of_ofDocument hg hnull
    have hwf : g.WellFormed := by
      obtain ⟨r, -, hr⟩ := bind_eq_ok_iff.1 hg
      cases hr
      exact Grammar.wellFormed_ofRecord r
    refine ⟨htype, ?_⟩
    rw [Grammar.view_freeze hwf]
    exact htype

end

end PhraseGrammar
