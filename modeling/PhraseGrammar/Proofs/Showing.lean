import PhraseGrammar.Argument

/-!
# PhraseGrammar.Proofs.Showing

Which values have a text.

* `bind_eq_ok_iff`, `mapM_eq_ok_iff`, …: steps that may fail, taken apart.
* `Value.Shows`: a value nests no deeper than there is room for calls, and no integer in it is too
  long.
* `Value.FailsToShow`: the first part of a value that cannot be shown, and why.
* `Value.HasText`, `Value.LacksText`: the same of a value on its own, where a text or a symbol is
  not shown but taken as it is.
* `Value.FirstLacks`: the first of some values that has no text.
-/

namespace PhraseGrammar

/-! ## Steps that may fail -/

section

variable {ε α β : Type} {x : Except ε α} {f : α → Except ε β} {as : List α}

theorem bind_eq_ok_iff {b : β} : x >>= f = .ok b ↔ ∃ a, x = .ok a ∧ f a = .ok b := by
  cases x with
  | error e => simp [bind, Except.bind]
  | ok a => simp [bind, Except.bind]

theorem bind_eq_error_iff {e : ε} :
    x >>= f = .error e ↔ x = .error e ∨ ∃ a, x = .ok a ∧ f a = .error e := by
  cases x with
  | error e' => simp [bind, Except.bind]
  | ok a => simp [bind, Except.bind]

theorem mapM_eq_ok_iff : (∃ bs, as.mapM f = .ok bs) ↔ ∀ a ∈ as, ∃ b, f a = .ok b := by
  induction as with
  | nil => simp [pure, Except.pure]
  | cons a as ih =>
    simp only [List.mapM_cons, List.forall_mem_cons, ← ih, bind_eq_ok_iff, pure, Except.pure]
    constructor
    · rintro ⟨_, b, hb, bs, hbs, -⟩
      exact ⟨⟨b, hb⟩, bs, hbs⟩
    · rintro ⟨⟨b, hb⟩, bs, hbs⟩
      exact ⟨_, b, hb, bs, hbs, rfl⟩

/-- Going through a list fails at the first element that fails. -/
theorem mapM_eq_error_iff {e : ε} : as.mapM f = .error e ↔
    ∃ before a after, as = before ++ a :: after ∧ (∀ x ∈ before, ∃ b, f x = .ok b) ∧
      f a = .error e := by
  induction as with
  | nil => simp [pure, Except.pure]
  | cons a as ih =>
    simp only [List.mapM_cons, bind_eq_error_iff, ih, pure, Except.pure, reduceCtorEq, and_false,
      exists_false, or_false]
    constructor
    · rintro (ha | ⟨b, hb, before, x, after, rfl, hbefore, hx⟩)
      · exact ⟨[], a, as, rfl, List.forall_mem_nil _, ha⟩
      · exact ⟨a :: before, x, after, rfl, List.forall_mem_cons.2 ⟨⟨b, hb⟩, hbefore⟩, hx⟩
    · rintro ⟨before, x, after, heq, hbefore, hx⟩
      cases before with
      | nil =>
        cases heq
        exact .inl hx
      | cons y before =>
        cases heq
        obtain ⟨⟨b, hb⟩, hbefore⟩ := List.forall_mem_cons.1 hbefore
        exact .inr ⟨b, hb, before, x, after, rfl, hbefore, hx⟩

theorem bind_pure_eq_ok_iff {g : α → β} :
    (∃ b, (x >>= fun a => .ok (g a)) = .ok b) ↔ ∃ a, x = .ok a := by
  cases x <;> simp [bind, Except.bind]

theorem map_eq_ok_iff {g : α → β} : (∃ b, x.map g = .ok b) ↔ ∃ a, x = .ok a := by
  cases x <;> simp [Except.map]

theorem map_eq_error_iff {g : α → β} {e : ε} : x.map g = .error e ↔ x = .error e := by
  cases x <;> simp [Except.map]

end

namespace Value

/-! ## Values inside others -/

/-- A value can be shown inside another, where there is room for some calls. -/
inductive Shows : (calls : Nat) → Value → Prop where
  | null {calls : Nat} : Shows (calls + 1) .null
  | bool {calls : Nat} (b : Bool) : Shows (calls + 1) (.bool b)
  | int {calls : Nat} {n : Int} :
      n.natAbs < DisplayError.integerBound → Shows (calls + 1) (.int n)
  | float {calls : Nat} (x : Number.Binary64) : Shows (calls + 1) (.float x)
  | text {calls : Nat} (t : Text) : Shows (calls + 1) (.text t)
  | symbol {calls : Nat} {s : Symbol} :
      Symbol.moreCalls ≤ calls → Shows (calls + 1) (.symbol s)
  | list {calls : Nat} {vs : List Value} :
      (∀ v ∈ vs, Shows calls v) → Shows (calls + 1) (.list vs)
  | object {calls : Nat} {fields : List (Text × Value)} :
      (∀ f ∈ fields, Shows calls f.2) → Shows (calls + 1) (.object fields)

/-- The first part of a value that cannot be shown is one for which there is no room for a call, or
an integer that is too long. -/
inductive FailsToShow : (calls : Nat) → Value → DisplayError → Prop where
  | tooDeep (v : Value) : FailsToShow 0 v .tooDeep
  | symbol {calls : Nat} {s : Symbol} :
      calls < Symbol.moreCalls → FailsToShow (calls + 1) (.symbol s) .tooDeep
  | int {calls : Nat} {n : Int} :
      DisplayError.integerBound ≤ n.natAbs → FailsToShow (calls + 1) (.int n) .hugeInteger
  | list {calls : Nat} {before after : List Value} {v : Value} {e : DisplayError} :
      (∀ x ∈ before, Shows calls x) → FailsToShow calls v e →
      FailsToShow (calls + 1) (.list (before ++ v :: after)) e
  | object {calls : Nat} {before after : List (Text × Value)} {f : Text × Value}
      {e : DisplayError} :
      (∀ x ∈ before, Shows calls x.2) → FailsToShow calls f.2 e →
      FailsToShow (calls + 1) (.object (before ++ f :: after)) e

theorem quotedElements_eq (calls : Nat) (vs : List Value) :
    quotedElements calls vs = vs.mapM (quoted calls) := by
  induction vs with
  | nil => simp [quotedElements, pure, Except.pure]
  | cons v vs ih => simp only [quotedElements, ih, List.mapM_cons]

theorem quotedFields_eq (calls : Nat) (fields : List (Text × Value)) :
    quotedFields calls fields =
      fields.mapM fun f => (f.2.quoted calls).map (Text.quoted f.1 ++ ": " ++ ·) := by
  induction fields with
  | nil => simp [quotedFields, pure, Except.pure]
  | cons f fields ih =>
    simp only [quotedFields, ih, List.mapM_cons]
    cases f.2.quoted calls <;> rfl

/-! ### What is shown, shape by shape -/

section

variable {calls : Nat} {n : Int} {s : Symbol} {vs : List Value} {fields : List (Text × Value)}
  {e : DisplayError}

theorem shows_int_iff :
    Shows (calls + 1) (.int n) ↔ n.natAbs < DisplayError.integerBound := by
  constructor
  · rintro ⟨⟩
    assumption
  · exact .int

theorem shows_symbol_iff : Shows (calls + 1) (.symbol s) ↔ Symbol.moreCalls ≤ calls := by
  constructor
  · rintro ⟨⟩
    assumption
  · exact .symbol

theorem shows_list_iff : Shows (calls + 1) (.list vs) ↔ ∀ v ∈ vs, Shows calls v := by
  constructor
  · rintro ⟨⟩
    assumption
  · exact .list

theorem shows_object_iff :
    Shows (calls + 1) (.object fields) ↔ ∀ f ∈ fields, Shows calls f.2 := by
  constructor
  · rintro ⟨⟩
    assumption
  · exact .object

theorem failsToShow_zero_iff {v : Value} : FailsToShow 0 v e ↔ e = .tooDeep := by
  constructor
  · rintro ⟨⟩
    rfl
  · rintro rfl
    exact .tooDeep v

theorem failsToShow_int_iff : FailsToShow (calls + 1) (.int n) e ↔
    DisplayError.integerBound ≤ n.natAbs ∧ e = .hugeInteger := by
  constructor
  · rintro ⟨⟩
    exact ⟨‹_›, rfl⟩
  · rintro ⟨hlong, rfl⟩
    exact .int hlong

theorem failsToShow_symbol_iff :
    FailsToShow (calls + 1) (.symbol s) e ↔ calls < Symbol.moreCalls ∧ e = .tooDeep := by
  constructor
  · rintro ⟨⟩
    exact ⟨‹_›, rfl⟩
  · rintro ⟨hlack, rfl⟩
    exact .symbol hlack

theorem failsToShow_list_iff : FailsToShow (calls + 1) (.list vs) e ↔
    ∃ before v after, vs = before ++ v :: after ∧ (∀ x ∈ before, Shows calls x) ∧
      FailsToShow calls v e := by
  constructor
  · rintro ⟨⟩
    exact ⟨_, _, _, rfl, ‹_›, ‹_›⟩
  · rintro ⟨before, v, after, rfl, hbefore, hv⟩
    exact .list hbefore hv

theorem failsToShow_object_iff : FailsToShow (calls + 1) (.object fields) e ↔
    ∃ before f after, fields = before ++ f :: after ∧ (∀ x ∈ before, Shows calls x.2) ∧
      FailsToShow calls f.2 e := by
  constructor
  · rintro ⟨⟩
    exact ⟨_, _, _, rfl, ‹_›, ‹_›⟩
  · rintro ⟨before, f, after, rfl, hbefore, hf⟩
    exact .object hbefore hf

end

theorem quoted_eq_ok_iff {calls : Nat} {v : Value} :
    (∃ s, v.quoted calls = .ok s) ↔ Shows calls v := by
  induction calls generalizing v with
  | zero =>
    constructor
    · rintro ⟨s, hs⟩
      simp [quoted] at hs
    · intro h
      cases h
  | succ calls ih =>
    cases v with
    | null => exact ⟨fun _ => .null, fun _ => ⟨_, by rw [quoted]⟩⟩
    | bool b => exact ⟨fun _ => .bool b, fun _ => ⟨_, by rw [quoted]⟩⟩
    | float x => exact ⟨fun _ => .float x, fun _ => ⟨_, by rw [quoted]⟩⟩
    | text t => exact ⟨fun _ => .text t, fun _ => ⟨_, by rw [quoted]⟩⟩
    | int n =>
      rw [shows_int_iff, ← Nat.not_le]
      simp only [quoted, quotedInteger]
      split <;> simp [*]
    | symbol s =>
      rw [shows_symbol_iff, ← Nat.not_lt]
      simp only [quoted]
      split <;> simp [*]
    | list vs =>
      have hall : (∃ ss, quotedElements calls vs = .ok ss) ↔ ∀ v ∈ vs, Shows calls v := by
        simp only [quotedElements_eq, mapM_eq_ok_iff, ih]
      simp only [quoted, pure, Except.pure, bind_pure_eq_ok_iff, shows_list_iff, hall]
    | object fields =>
      have hall : (∃ ss, quotedFields calls fields = .ok ss) ↔ ∀ f ∈ fields, Shows calls f.2 := by
        simp only [quotedFields_eq, mapM_eq_ok_iff, map_eq_ok_iff, ih]
      simp only [quoted, pure, Except.pure, bind_pure_eq_ok_iff, shows_object_iff, hall]

/-- The error of a value inside another is that of its first part that cannot be shown. -/
theorem quoted_eq_error_iff {calls : Nat} {v : Value} {e : DisplayError} :
    v.quoted calls = .error e ↔ FailsToShow calls v e := by
  induction calls generalizing v with
  | zero => simp [quoted, failsToShow_zero_iff, eq_comm]
  | succ calls ih =>
    cases v with
    | null | bool | float | text =>
      simp only [quoted, reduceCtorEq, false_iff]
      intro h
      cases h
    | int n =>
      simp only [quoted, quotedInteger, failsToShow_int_iff]
      split <;> simp [*, eq_comm]
    | symbol s =>
      simp only [quoted, failsToShow_symbol_iff]
      split <;> simp [*, eq_comm]
    | list vs =>
      simp only [quoted, bind_eq_error_iff, quotedElements_eq, mapM_eq_error_iff, quoted_eq_ok_iff,
        ih, failsToShow_list_iff, pure, Except.pure, reduceCtorEq, and_false, exists_false,
        or_false]
    | object fields =>
      simp only [quoted, bind_eq_error_iff, quotedFields_eq, mapM_eq_error_iff, map_eq_ok_iff,
        map_eq_error_iff, quoted_eq_ok_iff, ih, failsToShow_object_iff, pure, Except.pure,
        reduceCtorEq, and_false, exists_false, or_false]

/-- The least integer above zero with too many digits. -/
def leastHuge : Int := Int.ofNat DisplayError.integerBound

theorem failsToShow_leastHuge (calls : Nat) :
    FailsToShow (calls + 1) (.int leastHuge) .hugeInteger := by
  have habs : ∀ n : Nat, (Int.ofNat n).natAbs = n := Int.natAbs_natCast
  exact .int (Nat.le_of_eq (habs DisplayError.integerBound).symm)

/-! ## Values on their own -/

section

variable [Host]

/-- A value has a text: it is a text or a symbol, or it can be shown. -/
def HasText (v : Value) : Prop := v.kind = .text ∨ v.kind = .symbol ∨ v.Shows Host.showingCalls

/-- A value that is neither text nor symbol cannot be shown. -/
def LacksText (v : Value) (e : DisplayError) : Prop :=
  v.kind ≠ .text ∧ v.kind ≠ .symbol ∧ v.FailsToShow Host.showingCalls e

/-- Some values do not all have texts, and the first that has none is at fault. -/
def FirstLacks (vs : List Value) (e : DisplayError) : Prop :=
  ∃ before v after, vs = before ++ v :: after ∧ (∀ x ∈ before, x.HasText) ∧ v.LacksText e

theorem hasText_text (t : Text) : HasText (.text t) := .inl rfl

theorem hasText_symbol (s : Symbol) : HasText (.symbol s) := .inr (.inl rfl)

theorem display_eq_ok_iff {v : Value} : (∃ t, v.display = .ok t) ↔ v.HasText := by
  cases v with
  | text t => exact ⟨fun _ => hasText_text t, fun _ => ⟨t, rfl⟩⟩
  | symbol s => exact ⟨fun _ => hasText_symbol s, fun _ => ⟨s.text, rfl⟩⟩
  | _ =>
    simp only [display, HasText, kind, reduceCtorEq, false_or, ← quoted_eq_ok_iff, pure,
      Except.pure, bind_pure_eq_ok_iff]

theorem display_eq_error_iff {v : Value} {e : DisplayError} :
    v.display = .error e ↔ v.LacksText e := by
  cases v with
  | text t => exact ⟨fun h => (nomatch h), fun h => absurd rfl h.1⟩
  | symbol s => exact ⟨fun h => (nomatch h), fun h => absurd rfl h.2.1⟩
  | _ =>
    simp [display, LacksText, kind, ← quoted_eq_error_iff, bind_eq_error_iff, pure, Except.pure]

theorem displayAll_eq (vs : List Value) : displayAll vs = vs.mapM display := by
  induction vs with
  | nil => simp [displayAll, pure, Except.pure]
  | cons v vs ih => simp only [displayAll, ih, List.mapM_cons]

theorem displayAll_eq_ok_iff {vs : List Value} :
    (∃ ts, displayAll vs = .ok ts) ↔ ∀ v ∈ vs, v.HasText := by
  simp only [displayAll_eq, mapM_eq_ok_iff, display_eq_ok_iff]

theorem displayAll_eq_error_iff {vs : List Value} {e : DisplayError} :
    displayAll vs = .error e ↔ FirstLacks vs e := by
  simp only [displayAll_eq, mapM_eq_error_iff, display_eq_ok_iff, display_eq_error_iff, FirstLacks]

theorem toSymbol_eq_error_iff {v : Value} {err : ArgumentError} :
    v.toSymbol = .error err ↔ ∃ e, v.LacksText e ∧ err = .noText e := by
  simp only [toSymbol, ← display_eq_error_iff]
  cases v.display <;> simp [eq_comm]

end

end Value

end PhraseGrammar
