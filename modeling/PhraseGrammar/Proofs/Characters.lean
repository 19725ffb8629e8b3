import PhraseGrammar.Text.Utf8
import PhraseGrammar.View
import Mathlib.Data.List.Basic
import Mathlib.Tactic.MkIffOfInductiveProp

/-!
# PhraseGrammar.Proofs.Characters

The characters of a text, with a stand-in for half of a pair.

* `chars_append`, `chars_intercalate`: they are put together as the text is.
* `ofChars_chars`, `ofString_chars`: a whole text is its characters.
* `encodable_eq_ok_iff`: the whole texts are those that have octets.
* `View.IsWhole`: no half of a pair stands in a grammar.

What is said of the characters of a written text thus holds of every text, and for a whole one it
says what the text is.
-/

namespace PhraseGrammar

/-- A character as itself, and half of a pair as the replacement character. -/
def CodePoint.standIn : CodePoint → Char
  | .char c => c
  | .half _ => '\uFFFD'

namespace Text

def chars (t : Text) : List Char := t.map CodePoint.standIn

@[simp] theorem chars_nil : chars [] = [] := rfl

@[simp] theorem chars_cons (p : CodePoint) (t : Text) : chars (p :: t) = p.standIn :: chars t := rfl

@[simp] theorem chars_append (t u : Text) : chars (t ++ u) = chars t ++ chars u := List.map_append

@[simp] theorem chars_ofChars (cs : List Char) : (ofChars cs).chars = cs := by
  induction cs with
  | nil => rfl
  | cons c cs ih => rw [ofChars_cons, chars_cons, ih, CodePoint.standIn]

@[simp] theorem chars_ofString (s : String) : (ofString s).chars = s.toList :=
  chars_ofChars s.toList

theorem ofString_append (s t : String) : ofString (s ++ t) = ofString s ++ ofString t := by
  rw [ofString, String.toList_append, ofChars_append]
  rfl

theorem chars_intercalate (separator : Text) (items : List Text) :
    chars (separator.intercalate items) = separator.chars.intercalate (items.map chars) := by
  induction items with
  | nil => rfl
  | cons item items ih =>
    cases items with
    | nil => simp
    | cons next items =>
      rw [List.intercalate_cons_cons, chars_append, chars_append, ih, List.map_cons, List.map_cons,
        List.map_cons, List.intercalate_cons_cons]

/-! ## Whole texts -/

theorem isWhole_nil : IsWhole [] := isWhole_ofChars []

theorem isWhole_cons_iff {p : CodePoint} {t : Text} :
    IsWhole (p :: t) ↔ p.isChar = true ∧ IsWhole t := by
  constructor
  · intro h
    refine ⟨?_, fun n hn => h n (List.mem_cons_of_mem p hn)⟩
    cases p with
    | char c => rfl
    | half n => exact absurd List.mem_cons_self (h n)
  · rintro ⟨hp, ht⟩ n hn
    rcases List.mem_cons.1 hn with rfl | hn
    · cases hp
    · exact ht n hn

theorem isWhole_iff_all {t : Text} : t.IsWhole ↔ t.all CodePoint.isChar = true := by
  induction t with
  | nil => exact iff_of_true isWhole_nil rfl
  | cons p t ih => rw [isWhole_cons_iff, ih, List.all_cons, Bool.and_eq_true]

instance (t : Text) : Decidable t.IsWhole := decidable_of_iff _ isWhole_iff_all.symm

theorem isWhole_append_iff {t u : Text} : IsWhole (t ++ u) ↔ IsWhole t ∧ IsWhole u := by
  simp only [IsWhole, List.mem_append, not_or, forall_and]

theorem notMem_intercalate_iff {α : Type} {a : α} {separator : List α} {items : List (List α)}
    (hseparator : a ∉ separator) :
    a ∉ separator.intercalate items ↔ ∀ item ∈ items, a ∉ item := by
  induction items with
  | nil => simp
  | cons item items ih =>
    cases items with
    | nil => simp
    | cons next items =>
      rw [List.intercalate_cons_cons, List.mem_append, List.mem_append, not_or, not_or, ih,
        List.forall_mem_cons (a := item)]
      simp [hseparator]

theorem isWhole_intercalate_iff {separator : Text} {items : List Text}
    (hseparator : separator.IsWhole) :
    IsWhole (separator.intercalate items) ↔ ∀ item ∈ items, IsWhole item := by
  simp only [IsWhole, notMem_intercalate_iff (hseparator _)]
  exact ⟨fun h item hitem n => h n item hitem, fun h n item hitem => h item hitem n⟩

theorem ofChars_chars {t : Text} (h : t.IsWhole) : ofChars t.chars = t := by
  induction t with
  | nil => rfl
  | cons p t ih =>
    obtain ⟨hp, ht⟩ := isWhole_cons_iff.1 h
    cases p with
    | char c => rw [chars_cons, ofChars_cons, ih ht, CodePoint.standIn]
    | half n => cases hp

theorem ofString_chars {t : Text} (h : t.IsWhole) : ofString (String.ofList t.chars) = t := by
  rw [ofString, String.toList_ofList, ofChars_chars h]

namespace Utf8

theorem encodable_eq_ok_iff {t : Text} {s : String} : encodable t = .ok s ↔ t = ofString s := by
  unfold encodable
  constructor
  · intro h
    split at h
    · rename_i s' hs
      cases h
      exact eq_ofString_of_string? hs
    · cases h
  · rintro rfl
    rw [string?_ofString]

end Utf8

end Text

/-- No half of a pair stands in a text of the grammar. -/
@[mk_iff]
structure View.IsWhole (v : View) : Prop where
  id : v.id.IsWhole
  name : v.name.IsWhole
  start : v.start.text.IsWhole
  terminals : ∀ s ∈ v.terminals, s.text.IsWhole
  nonterminals : ∀ s ∈ v.nonterminals, s.text.IsWhole
  heads : ∀ r ∈ v.rules, ∀ s ∈ r.1, s.text.IsWhole
  bodies : ∀ r ∈ v.rules, ∀ b ∈ r.2, ∀ s ∈ b, s.text.IsWhole

instance (v : View) : Decidable v.IsWhole := decidable_of_iff _ (View.isWhole_iff v).symm

end PhraseGrammar
