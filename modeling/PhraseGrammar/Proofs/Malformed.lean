import PhraseGrammar.Proofs.Acceptance

/-!
# PhraseGrammar.Proofs.Malformed

What is wrong with a document that is no grammar.

* `FaultyText`, `FaultyTexts`, `FaultyType`: what is wrong with a value that stands for a text, with
  a list of such values, and with a type.
* `FaultyField`: going through a field comes to a fault.
* `FaultyRule`, `Faulty`: what is wrong with a rule, and with a document, in the order in which
  their parts are read. What is read before is in order.
* `RecordError.IsReported`: the error is about the form of the document.
* `Value.IsUnwalkable`: the value cannot be gone through. `StopsAt`: one that cannot be stands in
  place of the rules of a document, or of the bodies of one of them. It is not looked at before it
  is gone through, so the error is another. `UnwalkableRules` leaves out what is read before.
* `Textless`: a value stands for a text, or has to be shown, but has none.

`Grammar.ofDocument_eq_error_iff` gives the error of every document that has one, and
`outcome_of_document` the documents of which the error is not reported. They exist:
`not_every_fault_reported`.
-/

namespace PhraseGrammar

open Value

def Value.IsUnwalkable (v : Value) : Prop := v.isTruthy = true ∧ v.elements? = none

/-- The value of a field cannot be gone through, or an element that it yields is bad, and none
before it is. -/
inductive FaultyField (good : Value → Prop) (bad : Nat → Value → RecordError → Prop)
    (fields : List (Text × Value)) (name : String) : RecordError → Prop where
  | unwalkable {v : Value} : lookup fields name = some v → v.IsUnwalkable →
      FaultyField good bad fields name (.notIterable v.kind)
  | element {v x : Value} {before after : List Value} {e : RecordError} :
      lookup fields name = some v → v.elements? = some (before ++ x :: after) →
      (∀ y ∈ before, good y) → bad before.length x e → FaultyField good bad fields name e

/-! ## Lists -/

def FailsOn {ε β : Type} (read : Nat → Value → Except ε β) (bad : Nat → Value → ε → Prop) : Prop :=
  ∀ i v e, read i v = .error e ↔ bad i v e

theorem readEach_eq_error_iff {ε β : Type} {read : Nat → Value → Except ε β} {good : Value → Prop}
    {f : Value → β} {bad : Nat → Value → ε → Prop} (hok : ReadsOn read good f)
    (herror : FailsOn read bad) {index : Nat} {vs : List Value} {e : ε} :
    readEach read index vs = .error e ↔
      ∃ before v after, vs = before ++ v :: after ∧ (∀ x ∈ before, good x) ∧
        bad (index + before.length) v e := by
  induction vs generalizing index with
  | nil => simp [readEach]
  | cons v vs ih =>
    simp only [readEach, bind_eq_error_iff, herror index v, hok index v, ih, pure, Except.pure,
      reduceCtorEq, and_false, exists_false, or_false]
    constructor
    · rintro (hbad | ⟨b, ⟨hv, rfl⟩, before, x, after, rfl, hbefore, hx⟩)
      · exact ⟨[], v, vs, rfl, List.forall_mem_nil _, hbad⟩
      · refine ⟨v :: before, x, after, rfl, List.forall_mem_cons.2 ⟨hv, hbefore⟩, ?_⟩
        rw [List.length_cons, Nat.add_comm before.length, ← Nat.add_assoc]
        exact hx
    · rintro ⟨before, x, after, heq, hbefore, hx⟩
      cases before with
      | nil =>
        cases heq
        exact .inl hx
      | cons y before =>
        cases heq
        obtain ⟨hv, hbefore⟩ := List.forall_mem_cons.1 hbefore
        refine .inr ⟨_, ⟨hv, rfl⟩, before, x, after, rfl, hbefore, ?_⟩
        rwa [List.length_cons, Nat.add_comm before.length, ← Nat.add_assoc] at hx

theorem Value.IsBlank.elements_eq_nil {v : Value} (h : v.IsBlank) {vs : List Value}
    (hvs : v.elements? = some vs) : vs = [] := by
  cases h <;> cases hvs <;> rfl

namespace Record

theorem readElements_eq_error_iff {fields : List (Text × Value)} {name : String}
    {e : RecordError} :
    readElements fields name = .error e ↔
      ∃ v, lookup fields name = some v ∧ v.IsUnwalkable ∧ e = .notIterable v.kind := by
  unfold readElements IsUnwalkable
  cases lookup fields name with
  | none => simp
  | some v =>
    cases htruthy : v.isTruthy <;> cases helements : v.elements? <;>
      simp [htruthy, helements, eq_comm (b := e)]

theorem readField_eq_error_iff {β : Type} {read : Nat → Value → Except RecordError β}
    {good : Value → Prop} {f : Value → β} {bad : Nat → Value → RecordError → Prop}
    (hok : ReadsOn read good f) (herror : FailsOn read bad) {fields : List (Text × Value)}
    {name : String} {e : RecordError} :
    (readElements fields name = .error e ∨
      ∃ vs, readElements fields name = .ok vs ∧ readEach read 0 vs = .error e) ↔
      FaultyField good bad fields name e := by
  simp only [readEach_eq_error_iff hok herror, Nat.zero_add]
  constructor
  · rintro (h | ⟨vs, hvs, before, x, after, rfl, hbefore, hx⟩)
    · obtain ⟨v, hv, hbad, rfl⟩ := readElements_eq_error_iff.1 h
      exact .unwalkable hv hbad
    · rcases readElements_eq_ok_iff.1 hvs with ⟨-, hnil⟩ | ⟨v, hv, -, helements⟩
      · simp at hnil
      · exact .element hv helements hbefore hx
  · intro h
    cases h with
    | unwalkable hv hbad => exact .inl (readElements_eq_error_iff.2 ⟨_, hv, hbad, rfl⟩)
    | @element v x before after _ hv helements hbefore hx =>
      have hgiven : ¬v.IsBlank := by
        intro hblank
        simpa using hblank.elements_eq_nil helements
      exact .inr ⟨_, readElements_eq_ok_iff.2 (.inr ⟨v, hv, hgiven, helements⟩), before, x, after,
        rfl, hbefore, hx⟩

end Record

theorem Value.eq_list_of_mem {v x : Value} {vs : List Value} (hvs : v.elements? = some vs)
    (hx : x ∈ vs) (hkind : x.kind ≠ .text) : v = .list vs := by
  cases v with
  | list =>
    cases hvs
    rfl
  | text s =>
    cases hvs
    obtain ⟨c, -, rfl⟩ := List.mem_map.1 hx
    exact absurd rfl hkind
  | object fields =>
    cases hvs
    obtain ⟨f, -, rfl⟩ := List.mem_map.1 hx
    exact absurd rfl hkind
  | null | bool | int | float | symbol => cases hvs

section

variable [Host]

/-! ## Faults -/

inductive FaultyText (fields : List (Text × Value)) (name : String) : RecordError → Prop where
  | missing : lookup fields name = none → FaultyText fields name (.missingField name)
  | noText {v : Value} {d : DisplayError} :
      lookup fields name = some v → v.LacksText d → FaultyText fields name (.noText d)

inductive FaultyTexts (place : ListPlace) : Value → RecordError → Prop where
  | notList {v : Value} : (∀ vs, v ≠ .list vs) → FaultyTexts place v (.notTextList place v.kind)
  | noText {vs : List Value} {d : DisplayError} :
      FirstLacks vs d → FaultyTexts place (.list vs) (.noText d)

inductive FaultyType (v : Value) : RecordError → Prop where
  | unknown {shown : String} :
      v.quoted Host.showingCalls = .ok shown → FaultyType v (.unknownType shown)
  | noText {d : DisplayError} : v.FailsToShow Host.showingCalls d → FaultyType v (.noText d)

/-- A rule, by its number, is no object with a head, or there is something wrong with its head, or
with its bodies. -/
inductive FaultyRule (index : Nat) : Value → RecordError → Prop where
  | notRule {v : Value} : (∀ rule, v = .object rule → lookup rule "head" = none) →
      FaultyRule index v (.notRule index)
  | head {rule : List (Text × Value)} {head : Value} {e : RecordError} :
      lookup rule "head" = some head → FaultyTexts (.head index) head e →
      FaultyRule index (.object rule) e
  | bodies {rule : List (Text × Value)} {e : RecordError} :
      HasField rule "head" (ListOf HasText) →
      FaultyField (ListOf HasText) (fun j => FaultyTexts (.body index j)) rule "bodies" e →
      FaultyRule index (.object rule) e

/-- What is wrong with a document. The id comes first, then the start symbol, the name, the
alphabets, the rules, and last the type. -/
inductive Faulty : Value → RecordError → Prop where
  | notObject {v : Value} : (∀ fields, v ≠ .object fields) → Faulty v (.notObject v.kind)
  | id {fields : List (Text × Value)} {e : RecordError} :
      FaultyText fields "id" e → Faulty (.object fields) e
  | start {fields : List (Text × Value)} {e : RecordError} :
      HasField fields "id" HasText → FaultyText fields "startSymbol" e → Faulty (.object fields) e
  | name {fields : List (Text × Value)} {v : Value} {d : DisplayError} :
      HasField fields "id" HasText → HasField fields "startSymbol" HasText →
      lookup fields "name" = some v → v.LacksText d → Faulty (.object fields) (.noText d)
  | nonterminals {fields : List (Text × Value)} {v : Value} {e : RecordError} :
      HasField fields "id" HasText → HasField fields "startSymbol" HasText →
      FieldIs fields "name" HasText → lookup fields "nonTerminals" = some v →
      FaultyTexts .nonterminals v e → Faulty (.object fields) e
  | terminals {fields : List (Text × Value)} {v : Value} {e : RecordError} :
      HasField fields "id" HasText → HasField fields "startSymbol" HasText →
      FieldIs fields "name" HasText → FieldIs fields "nonTerminals" (ListOf HasText) →
      lookup fields "terminals" = some v → FaultyTexts .terminals v e → Faulty (.object fields) e
  | rules {fields : List (Text × Value)} {e : RecordError} :
      Headed HasText fields → FaultyField (IsRule HasText) FaultyRule fields "rules" e →
      Faulty (.object fields) e
  | type {fields : List (Text × Value)} {v : Value} {e : RecordError} :
      Headed HasText fields → FieldIs fields "rules" (MayList (IsRule HasText)) →
      lookup fields "type" = some v → v ≠ .null → (∀ t : GrammarType, v ≠ .text t.name) →
      FaultyType v e → Faulty (.object fields) e

/-! ## Reading -/

namespace Record

theorem readText_eq_error_iff {v : Value} {e : RecordError} :
    readText v = .error e ↔ ∃ d, v.LacksText d ∧ e = .noText d := by
  simp only [readText, ← display_eq_error_iff]
  cases v.display <;> simp [eq_comm]

theorem requireText_eq_error_iff {fields : List (Text × Value)} {name : String}
    {e : RecordError} : requireText fields name = .error e ↔ FaultyText fields name e := by
  unfold requireText
  constructor
  · intro h
    cases hlookup : lookup fields name with
    | none =>
      rw [hlookup] at h
      cases h
      exact .missing hlookup
    | some v =>
      rw [hlookup] at h
      obtain ⟨d, hd, rfl⟩ := readText_eq_error_iff.1 h
      exact .noText hlookup hd
  · intro h
    cases h with
    | missing hnone => rw [hnone]
    | noText hv hd =>
      rw [hv]
      exact readText_eq_error_iff.2 ⟨_, hd, rfl⟩

theorem readName_eq_error_iff {fields : List (Text × Value)} {e : RecordError} :
    readName fields = .error e ↔
      ∃ v d, lookup fields "name" = some v ∧ v.LacksText d ∧ e = .noText d := by
  unfold readName
  cases lookup fields "name" <;> simp [readText_eq_error_iff]

theorem readTexts_eq_error_iff {place : ListPlace} {v : Value} {e : RecordError} :
    readTexts place v = .error e ↔ FaultyTexts place v e := by
  cases v with
  | list vs =>
    simp only [readTexts]
    constructor
    · intro h
      split at h
      · cases h
      · rename_i d hd
        cases h
        exact .noText (displayAll_eq_error_iff.1 hd)
    · intro h
      cases h with
      | notList hlist => exact absurd rfl (hlist vs)
      | noText hfirst => simp only [displayAll_eq_error_iff.2 hfirst]
  | _ =>
    constructor
    · intro h
      cases h
      exact .notList fun vs => Value.noConfusion
    · intro h
      cases h
      rfl

theorem readTextField_eq_error_iff {fields : List (Text × Value)} {name : String}
    {place : ListPlace} {e : RecordError} :
    readTextField fields name place = .error e ↔
      ∃ v, lookup fields name = some v ∧ FaultyTexts place v e := by
  unfold readTextField
  cases lookup fields name <;> simp [readTexts_eq_error_iff]

theorem typeFault_eq_iff {v : Value} {e : RecordError} : typeFault v = e ↔ FaultyType v e := by
  unfold typeFault
  constructor
  · rintro rfl
    cases hshown : v.quoted Host.showingCalls with
    | ok shown => exact .unknown hshown
    | error d => exact .noText (quoted_eq_error_iff.1 hshown)
  · intro h
    cases h with
    | unknown hshown => rw [hshown]
    | noText hfails => rw [quoted_eq_error_iff.2 hfails]

theorem readType_eq_error_iff {fields : List (Text × Value)} {e : RecordError} :
    readType fields = .error e ↔ ∃ v, lookup fields "type" = some v ∧ v ≠ .null ∧
      (∀ t : GrammarType, v ≠ .text t.name) ∧ FaultyType v e := by
  unfold readType
  cases lookup fields "type" with
  | none => simp
  | some v =>
    cases v with
    | null => simp
    | text s =>
      cases hname : GrammarType.ofName? s with
      | none =>
        have hno := GrammarType.ofName?_eq_none_iff.1 hname
        simp [hname, hno, typeFault_eq_iff]
      | some type =>
        have hs : s = type.name := GrammarType.ofName?_eq_some_iff.1 hname
        simp only [hname, reduceCtorEq, false_iff]
        rintro ⟨v, hv, -, hno, -⟩
        cases hv
        exact hno type (by rw [hs])
    | _ => simp [typeFault_eq_iff]

theorem bodies_eq_error_iff {index : Nat} {rule : List (Text × Value)} {e : RecordError} :
    (readElements rule "bodies" = .error e ∨
      ∃ vs, readElements rule "bodies" = .ok vs ∧ readBodies index 0 vs = .error e) ↔
      FaultyField (ListOf HasText) (fun j => FaultyTexts (.body index j)) rule "bodies" e := by
  simp only [readBodies_eq]
  exact readField_eq_error_iff (readsOn_readTexts index) fun j b e => readTexts_eq_error_iff

theorem readRule_eq_error_iff {index : Nat} {rule : List (Text × Value)} {head : Value}
    (hhead : lookup rule "head" = some head) {e : RecordError} :
    readRule index (.object rule) = .error e ↔ FaultyTexts (.head index) head e ∨
      head.ListOf HasText ∧
        FaultyField (ListOf HasText) (fun j => FaultyTexts (.body index j)) rule "bodies" e := by
  simp only [readRule, hhead, bind_eq_error_iff, readTexts_eq_error_iff, readTexts_eq_ok_iff,
    pure, Except.pure, reduceCtorEq, and_false, exists_false, or_false, bodies_eq_error_iff,
    and_assoc, exists_and_left, exists_eq_left]

theorem failsOn_readRule : FailsOn readRule FaultyRule := by
  intro i v e
  constructor
  · intro h
    cases v with
    | object rule =>
      cases hhead : lookup rule "head" with
      | none =>
        simp only [readRule, hhead] at h
        cases h
        refine .notRule ?_
        intro rule' heq
        cases heq
        exact hhead
      | some head =>
        rcases (readRule_eq_error_iff hhead).1 h with hfault | ⟨hlist, hfault⟩
        · exact .head hhead hfault
        · exact .bodies ⟨head, hhead, hlist⟩ hfault
    | _ =>
      cases h
      refine .notRule ?_
      intro rule heq
      cases heq
  · intro h
    cases h with
    | notRule hnone =>
      cases v with
      | object rule => simp only [readRule, hnone rule rfl]
      | _ => rfl
    | head hhead hfault => exact (readRule_eq_error_iff hhead).2 (.inl hfault)
    | bodies hlisted hfault =>
      obtain ⟨head, hhead, hlist⟩ := hlisted
      exact (readRule_eq_error_iff hhead).2 (.inr ⟨hlist, hfault⟩)

theorem rules_eq_error_iff {fields : List (Text × Value)} {e : RecordError} :
    (readElements fields "rules" = .error e ∨
      ∃ vs, readElements fields "rules" = .ok vs ∧ readRules 0 vs = .error e) ↔
      FaultyField (IsRule HasText) FaultyRule fields "rules" e := by
  simp only [readRules_eq]
  exact readField_eq_error_iff readsOn_readRule failsOn_readRule

theorem rules_eq_error_or_iff {fields : List (Text × Value)} {e : RecordError} {p : Prop} :
    (readElements fields "rules" = .error e ∨
      ∃ vs, readElements fields "rules" = .ok vs ∧
        (readRules 0 vs = .error e ∨ ∃ rs, readRules 0 vs = .ok rs ∧ p)) ↔
      FaultyField (IsRule HasText) FaultyRule fields "rules" e ∨
        FieldIs fields "rules" (MayList (IsRule HasText)) ∧ p := by
  rw [← rules_eq_error_iff]
  constructor
  · rintro (h | ⟨vs, hvs, h | ⟨rs, hrs, hp⟩⟩)
    · exact .inl (.inl h)
    · exact .inl (.inr ⟨vs, hvs, h⟩)
    · exact .inr ⟨(rules_eq_ok_iff.1 ⟨vs, hvs, hrs⟩).1, hp⟩
  · rintro ((h | ⟨vs, hvs, h⟩) | ⟨hrules, hp⟩)
    · exact .inl h
    · exact .inr ⟨vs, hvs, .inl h⟩
    · obtain ⟨vs, hvs, hrs⟩ := rules_eq_ok_iff.2 ⟨hrules, rfl⟩
      exact .inr ⟨vs, hvs, .inr ⟨_, hrs, hp⟩⟩

theorem ofDocument_eq_error_iff {document : Value} {e : RecordError} :
    ofDocument document = .error e ↔ Faulty document e := by
  cases document with
  | object fields =>
    simp only [ofDocument, bind_eq_error_iff, requireText_eq_error_iff, requireText_eq_ok_iff,
      readName_eq_error_iff, readName_eq_ok_iff, readTextField_eq_error_iff,
      readTextField_eq_ok_iff, readType_eq_error_iff, pure, Except.pure, reduceCtorEq, and_false,
      exists_false, or_false, and_assoc, exists_and_left, exists_eq_left, rules_eq_error_or_iff]
    constructor
    · rintro (hfault | ⟨hid, hfault | ⟨hstart, ⟨v, hv, d, hd, rfl⟩ | ⟨hname, ⟨v, hv, hfault⟩ |
        ⟨hnonterminals, ⟨v, hv, hfault⟩ | ⟨hterminals, hfault | ⟨hrules, v, hv, hnull, hno,
        hfault⟩⟩⟩⟩⟩⟩)
      · exact .id hfault
      · exact .start hid hfault
      · exact .name hid hstart hv hd
      · exact .nonterminals hid hstart hname hv hfault
      · exact .terminals hid hstart hname hnonterminals hv hfault
      · exact .rules ⟨hid, hstart, hname, hnonterminals, hterminals⟩ hfault
      · exact .type ⟨hid, hstart, hname, hnonterminals, hterminals⟩ hrules hv hnull hno hfault
    · intro h
      cases h with
      | notObject hobject => exact absurd rfl (hobject fields)
      | id hfault => exact .inl hfault
      | start hid hfault => exact .inr ⟨hid, .inl hfault⟩
      | name hid hstart hv hd => exact .inr ⟨hid, .inr ⟨hstart, .inl ⟨_, hv, _, hd, rfl⟩⟩⟩
      | nonterminals hid hstart hname hv hfault =>
        exact .inr ⟨hid, .inr ⟨hstart, .inr ⟨hname, .inl ⟨_, hv, hfault⟩⟩⟩⟩
      | terminals hid hstart hname hnonterminals hv hfault =>
        exact .inr ⟨hid, .inr ⟨hstart, .inr ⟨hname, .inr ⟨hnonterminals, .inl ⟨_, hv, hfault⟩⟩⟩⟩⟩
      | rules hheaded hfault =>
        exact .inr ⟨hheaded.id, .inr ⟨hheaded.start, .inr ⟨hheaded.name,
          .inr ⟨hheaded.nonterminals, .inr ⟨hheaded.terminals, .inl hfault⟩⟩⟩⟩⟩
      | type hheaded hrules hv hnull hno hfault =>
        exact .inr ⟨hheaded.id, .inr ⟨hheaded.start, .inr ⟨hheaded.name,
          .inr ⟨hheaded.nonterminals, .inr ⟨hheaded.terminals,
          .inr ⟨hrules, _, hv, hnull, hno, hfault⟩⟩⟩⟩⟩⟩
  | _ =>
    constructor
    · intro h
      cases h
      refine .notObject ?_
      intro fields heq
      cases heq
    · intro h
      cases h
      rfl

end Record

/-! ## Outcomes -/

/-- The error says what is wrong with the form of the document. -/
def RecordError.IsReported : RecordError → Prop
  | .notIterable _ | .noText _ => False
  | _ => True

/-- The rules, or the bodies of a rule that has a head, cannot be gone through, and all the rules
before are in order. -/
inductive StopsAt (fields : List (Text × Value)) : Value → Prop where
  | rules {v : Value} : lookup fields "rules" = some v → v.IsUnwalkable → StopsAt fields v
  | bodies {before after : List Value} {rule : List (Text × Value)} {v : Value} :
      lookup fields "rules" = some (.list (before ++ .object rule :: after)) →
      (∀ r ∈ before, r.IsRule HasText) → HasField rule "head" (ListOf HasText) →
      lookup rule "bodies" = some v → v.IsUnwalkable → StopsAt fields v

/-- A rule has a head that lists a value without a text, or has a head and a body that does. What is
read before is in order. -/
inductive TextlessRule (rule : List (Text × Value)) (d : DisplayError) : Prop where
  | head {vs : List Value} :
      lookup rule "head" = some (.list vs) → FirstLacks vs d → TextlessRule rule d
  | body {before after vs : List Value} : HasField rule "head" (ListOf HasText) →
      lookup rule "bodies" = some (.list (before ++ .list vs :: after)) →
      (∀ b ∈ before, b.ListOf HasText) → FirstLacks vs d → TextlessRule rule d

/-- A value that stands for a text, or that has to be shown because it is no type, has none. What is
read before is in order. -/
inductive Textless (fields : List (Text × Value)) (d : DisplayError) : Prop where
  | id {v : Value} : lookup fields "id" = some v → v.LacksText d → Textless fields d
  | start {v : Value} : HasField fields "id" HasText →
      lookup fields "startSymbol" = some v → v.LacksText d → Textless fields d
  | name {v : Value} : HasField fields "id" HasText → HasField fields "startSymbol" HasText →
      lookup fields "name" = some v → v.LacksText d → Textless fields d
  | nonterminal {vs : List Value} :
      HasField fields "id" HasText → HasField fields "startSymbol" HasText →
      FieldIs fields "name" HasText → lookup fields "nonTerminals" = some (.list vs) →
      FirstLacks vs d → Textless fields d
  | terminal {vs : List Value} :
      HasField fields "id" HasText → HasField fields "startSymbol" HasText →
      FieldIs fields "name" HasText → FieldIs fields "nonTerminals" (ListOf HasText) →
      lookup fields "terminals" = some (.list vs) → FirstLacks vs d → Textless fields d
  | rule {before after : List Value} {rule : List (Text × Value)} : Headed HasText fields →
      lookup fields "rules" = some (.list (before ++ .object rule :: after)) →
      (∀ r ∈ before, r.IsRule HasText) → TextlessRule rule d → Textless fields d
  | type {v : Value} : Headed HasText fields →
      FieldIs fields "rules" (MayList (IsRule HasText)) → lookup fields "type" = some v →
      v ≠ .null → (∀ t : GrammarType, v ≠ .text t.name) → v.FailsToShow Host.showingCalls d →
      Textless fields d

theorem faulty_notIterable_iff {document : Value} {kind : Kind} :
    Faulty document (.notIterable kind) ↔ ∃ fields v, document = .object fields ∧
      Headed HasText fields ∧ StopsAt fields v ∧ v.kind = kind := by
  constructor
  · intro h
    cases h with
    | id hfault | start _ hfault | nonterminals _ _ _ _ hfault | terminals _ _ _ _ _ hfault
    | type _ _ _ _ _ hfault => cases hfault
    | rules hheaded hfault =>
      cases hfault with
      | unwalkable hv hbad => exact ⟨_, _, rfl, hheaded, .rules hv hbad, rfl⟩
      | element hv helements hbefore hrule =>
        cases hrule with
        | head _ htexts => cases htexts
        | bodies hhead hbodies =>
          cases hbodies with
          | unwalkable hv' hbad =>
            cases eq_list_of_mem helements List.mem_append_cons_self Kind.noConfusion
            exact ⟨_, _, rfl, hheaded, .bodies hv hbefore hhead hv' hbad, rfl⟩
          | element _ _ _ hbody => cases hbody
  · rintro ⟨fields, v, rfl, hheaded, hstop, rfl⟩
    cases hstop with
    | rules hv hbad => exact .rules hheaded (.unwalkable hv hbad)
    | bodies hrules hbefore hhead hv hbad =>
      exact .rules hheaded (.element hrules rfl hbefore (.bodies hhead (.unwalkable hv hbad)))

theorem faultyTexts_noText_iff {place : ListPlace} {v : Value} {d : DisplayError} :
    FaultyTexts place v (.noText d) ↔ ∃ vs, v = .list vs ∧ FirstLacks vs d := by
  constructor
  · intro h
    cases h with
    | noText hfirst => exact ⟨_, rfl, hfirst⟩
  · rintro ⟨vs, rfl, hfirst⟩
    exact .noText hfirst

theorem faultyRule_noText_iff {index : Nat} {v : Value} {d : DisplayError} :
    FaultyRule index v (.noText d) ↔ ∃ rule, v = .object rule ∧ TextlessRule rule d := by
  constructor
  · intro h
    cases h with
    | head hhead hfault =>
      obtain ⟨vs, rfl, hfirst⟩ := faultyTexts_noText_iff.1 hfault
      exact ⟨_, rfl, .head hhead hfirst⟩
    | bodies hhead hfault =>
      cases hfault with
      | element hv helements hbefore hbody =>
        obtain ⟨vs, rfl, hfirst⟩ := faultyTexts_noText_iff.1 hbody
        cases eq_list_of_mem helements List.mem_append_cons_self Kind.noConfusion
        exact ⟨_, rfl, .body hhead hv hbefore hfirst⟩
  · rintro ⟨rule, rfl, hrule⟩
    cases hrule with
    | head hhead hfirst => exact .head hhead (.noText hfirst)
    | body hhead hv hbefore hfirst =>
      exact .bodies hhead (.element hv rfl hbefore (.noText hfirst))

theorem faulty_noText_iff {document : Value} {d : DisplayError} :
    Faulty document (.noText d) ↔ ∃ fields, document = .object fields ∧ Textless fields d := by
  constructor
  · intro h
    cases h with
    | id hfault =>
      cases hfault with
      | noText hv hd => exact ⟨_, rfl, .id hv hd⟩
    | start hid hfault =>
      cases hfault with
      | noText hv hd => exact ⟨_, rfl, .start hid hv hd⟩
    | name hid hstart hv hd => exact ⟨_, rfl, .name hid hstart hv hd⟩
    | nonterminals hid hstart hname hv hfault =>
      obtain ⟨vs, rfl, hfirst⟩ := faultyTexts_noText_iff.1 hfault
      exact ⟨_, rfl, .nonterminal hid hstart hname hv hfirst⟩
    | terminals hid hstart hname hnonterminals hv hfault =>
      obtain ⟨vs, rfl, hfirst⟩ := faultyTexts_noText_iff.1 hfault
      exact ⟨_, rfl, .terminal hid hstart hname hnonterminals hv hfirst⟩
    | rules hheaded hfault =>
      cases hfault with
      | element hv helements hbefore hrule =>
        obtain ⟨rule, rfl, htextless⟩ := faultyRule_noText_iff.1 hrule
        cases eq_list_of_mem helements List.mem_append_cons_self Kind.noConfusion
        exact ⟨_, rfl, .rule hheaded hv hbefore htextless⟩
    | type hheaded hrules hv hnull hno hfault =>
      cases hfault with
      | noText hfails => exact ⟨_, rfl, .type hheaded hrules hv hnull hno hfails⟩
  · rintro ⟨fields, rfl, htextless⟩
    cases htextless with
    | id hv hd => exact .id (.noText hv hd)
    | start hid hv hd => exact .start hid (.noText hv hd)
    | name hid hstart hv hd => exact .name hid hstart hv hd
    | nonterminal hid hstart hname hv hfirst =>
      exact .nonterminals hid hstart hname hv (.noText hfirst)
    | terminal hid hstart hname hnonterminals hv hfirst =>
      exact .terminals hid hstart hname hnonterminals hv (.noText hfirst)
    | rule hheaded hv hbefore hrule =>
      exact .rules hheaded (.element hv rfl hbefore (faultyRule_noText_iff.2 ⟨_, rfl, hrule⟩))
    | type hheaded hrules hv hnull hno hfails =>
      exact .type hheaded hrules hv hnull hno (.noText hfails)

inductive UnwalkableRules (fields : List (Text × Value)) : Prop where
  | rules {v : Value} :
      Value.lookup fields "rules" = some v → v.IsUnwalkable → UnwalkableRules fields
  | bodies {rules v : Value} {elements : List Value} {rule : List (Text × Value)} :
      Value.lookup fields "rules" = some rules → rules.elements? = some elements →
      .object rule ∈ elements → Value.lookup rule "bodies" = some v → v.IsUnwalkable →
      UnwalkableRules fields

theorem StopsAt.unwalkableRules {fields : List (Text × Value)} {v : Value}
    (h : StopsAt fields v) : UnwalkableRules fields := by
  cases h with
  | rules hrules hbad => exact .rules hrules hbad
  | bodies hrules _ _ hv hbad => exact .bodies hrules rfl List.mem_append_cons_self hv hbad

/-- Only of rules and bodies an error says that they cannot be gone through. -/
theorem Record.unwalkable_of_ofDocument {document : Value} {kind : Kind}
    (h : ofDocument document = .error (.notIterable kind)) :
    ∃ fields, document = .object fields ∧ UnwalkableRules fields := by
  obtain ⟨fields, v, hdocument, -, hstop, -⟩ :=
    faulty_notIterable_iff.1 (ofDocument_eq_error_iff.1 h)
  exact ⟨fields, hdocument, hstop.unwalkableRules⟩

theorem Grammar.ofDocument_eq_error_iff {document : Value} {e : RecordError} :
    ofDocument document = .error e ↔ Faulty document e := by
  rw [← Record.ofDocument_eq_error_iff]
  simp only [ofDocument, bind_eq_error_iff, pure, Except.pure, reduceCtorEq, and_false,
    exists_false, or_false]

/-- The error of a document is that of its first fault. It is a reported one, or the document is a
grammar, unless the reading stops at a value that cannot be gone through, or comes to a value that
has no text. Then the error names the kind of that value, or says why it has none. -/
theorem outcome_of_document (document : Value) :
    (∀ e, Grammar.ofDocument document = .error e ↔ Faulty document e) ∧
    (((∃ g, Grammar.ofDocument document = .ok g) ∨
        ∃ e, Grammar.ofDocument document = .error e ∧ e.IsReported) ↔
      ¬∃ fields, document = .object fields ∧
        ((∃ v, Headed HasText fields ∧ StopsAt fields v) ∨ ∃ d, Textless fields d)) ∧
    (∀ kind, Grammar.ofDocument document = .error (.notIterable kind) ↔
      ∃ fields v, document = .object fields ∧ Headed HasText fields ∧ StopsAt fields v ∧
        v.kind = kind) ∧
    ∀ d, Grammar.ofDocument document = .error (.noText d) ↔
      ∃ fields, document = .object fields ∧ Textless fields d := by
  have hstops : ∀ kind, Grammar.ofDocument document = .error (.notIterable kind) ↔
      ∃ fields v, document = .object fields ∧ Headed HasText fields ∧ StopsAt fields v ∧
        v.kind = kind :=
    fun kind => Grammar.ofDocument_eq_error_iff.trans faulty_notIterable_iff
  have htextless : ∀ d, Grammar.ofDocument document = .error (.noText d) ↔
      ∃ fields, document = .object fields ∧ Textless fields d :=
    fun d => Grammar.ofDocument_eq_error_iff.trans faulty_noText_iff
  refine ⟨fun e => Grammar.ofDocument_eq_error_iff, ?_, hstops, htextless⟩
  constructor
  · rintro h ⟨fields, hdocument, hfault⟩
    obtain ⟨e, he, hunreported⟩ : ∃ e, Grammar.ofDocument document = .error e ∧ ¬e.IsReported := by
      rcases hfault with ⟨v, hheaded, hstop⟩ | ⟨d, hd⟩
      · exact ⟨_, (hstops v.kind).2 ⟨fields, v, hdocument, hheaded, hstop, rfl⟩, id⟩
      · exact ⟨_, (htextless d).2 ⟨fields, hdocument, hd⟩, id⟩
    rcases h with ⟨g, hg⟩ | ⟨e', he', hreported⟩
    · rw [hg] at he
      cases he
    · rw [he'] at he
      cases he
      exact hunreported hreported
  · intro hno
    cases houtcome : Grammar.ofDocument document with
    | ok g => exact .inl ⟨g, rfl⟩
    | error e =>
      refine .inr ⟨e, rfl, ?_⟩
      cases e with
      | notIterable kind =>
        obtain ⟨fields, v, hdocument, hheaded, hstop, -⟩ := (hstops kind).1 houtcome
        exact absurd ⟨fields, hdocument, .inl ⟨v, hheaded, hstop⟩⟩ hno
      | noText d =>
        obtain ⟨fields, hdocument, hd⟩ := (htextless d).1 houtcome
        exact absurd ⟨fields, hdocument, .inr ⟨d, hd⟩⟩ hno
      | _ => trivial

end

section

open scoped Host

/-- With a number in place of the rules the error is not about the form of the document. -/
theorem not_every_fault_reported :
    ¬∀ document : Value, (∃ g, Grammar.ofDocument document = .ok g) ∨
      ∃ e, Grammar.ofDocument document = .error e ∧ e.IsReported := by
  intro h
  have herror : Grammar.ofDocument
      (.object [("id", .text "i"), ("startSymbol", .text "S"), ("rules", .int 7)]) =
      .error (.notIterable .int) := rfl
  rcases h (.object [("id", .text "i"), ("startSymbol", .text "S"), ("rules", .int 7)]) with
    ⟨g, hg⟩ | ⟨e, he, hreported⟩
  · rw [hg] at herror
    cases herror
  · rw [he] at herror
    cases herror
    exact hreported

end

end PhraseGrammar
