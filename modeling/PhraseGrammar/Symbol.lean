import PhraseGrammar.Text

/-!
# PhraseGrammar.Symbol

Symbols of a grammar and words over them.

* `Symbol` — a text; symbols with the same text are the same symbol.
* `Symbol.epsilon` — the reserved symbol `ε` for the empty string.
* `Word` — a sequence of symbols.
* `Word.normalize` — a word with no symbol but `ε` becomes the one word `Word.empty`.
-/

namespace PhraseGrammar

/-- A symbol is its text. -/
structure Symbol where
  text : Text
deriving DecidableEq, Repr, Inhabited

/-- The symbol for the empty string. -/
def Symbol.epsilon : Symbol := ⟨"ε"⟩

abbrev Word := List Symbol

namespace Word

/-- The normal form of the empty word. -/
def empty : Word := [Symbol.epsilon]

/-- Every word with no symbol but `ε` stands for the empty word; other words keep their `ε`s. -/
def normalize (symbols : List Symbol) : Word :=
  if symbols.all (· == Symbol.epsilon) then empty else symbols

/-- The number of symbols other than `ε`. -/
def realLength (w : Word) : Nat := w.countP (· != Symbol.epsilon)

def isEmptyWord (w : Word) : Bool := realLength w == 0

def texts (w : Word) : List Text := w.map (·.text)

/-- A word as a message names it. -/
def spaced (w : Word) : Text := List.intercalate " " w.texts

theorem normalize_of_all {w : List Symbol} (h : ∀ s ∈ w, s = Symbol.epsilon) :
    normalize w = empty := by
  simp only [normalize, List.all_eq_true, beq_iff_eq]
  exact if_pos h

@[simp] theorem normalize_empty : normalize empty = empty :=
  normalize_of_all (by simp [empty])

theorem normalize_eq (w : List Symbol) : normalize w = empty ∨ normalize w = w := by
  unfold normalize
  split
  · exact .inl rfl
  · exact .inr rfl

@[simp] theorem normalize_normalize (w : List Symbol) :
    normalize (normalize w) = normalize w := by
  rcases normalize_eq w with h | h
  · rw [h, normalize_empty]
  · rw [h, h]

theorem normalize_ne_nil (w : List Symbol) : normalize w ≠ [] := by
  cases w with
  | nil => simp [normalize, empty]
  | cons s w =>
    rcases normalize_eq (s :: w) with h | h <;> rw [h] <;> simp [empty]

end Word

end PhraseGrammar
