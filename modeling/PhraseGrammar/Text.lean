/-!
# PhraseGrammar.Text

Texts as sequences of code points.

* `CodePoint` — a character, or half of a surrogate pair that stands alone.
* `Text` — some code points. Every string is a text.
* `Text.string?` — a text as a string, if no half stands in it.
* `Text.IsWhole` — no half stands in the text.

Files hold strings, but an escape may name half of a pair, so a symbol may hold one.
-/

namespace PhraseGrammar

/-- A character, or half of a surrogate pair that stands alone. -/
inductive CodePoint where
  | char (c : Char)
  | half (n : Fin 0x800)
deriving DecidableEq, Repr, Inhabited

namespace CodePoint

/-- The number of the first half of a pair. -/
def firstHalf : Nat := 0xD800

/-- The code point of a number. -/
def ofNat (n : Nat) : CodePoint :=
  if h : firstHalf ≤ n ∧ n - firstHalf < 0x800 then .half ⟨n - firstHalf, h.2⟩
  else .char (Char.ofNat n)

def isChar : CodePoint → Bool
  | .char _ => true
  | .half _ => false

end CodePoint

abbrev Text := List CodePoint

namespace Text

def ofChars (cs : List Char) : Text := cs.map .char

def ofString (s : String) : Text := ofChars s.toList

instance : Coe String Text := ⟨ofString⟩

/-- The characters of a text, if no half stands in it. -/
def chars? : Text → Option (List Char)
  | [] => some []
  | .char c :: t => (chars? t).map (c :: ·)
  | .half _ :: _ => none

def string? (t : Text) : Option String := t.chars?.map String.ofList

/-- No half stands in the text. -/
def IsWhole (t : Text) : Prop := ∀ n, .half n ∉ t

@[simp] theorem ofChars_nil : ofChars [] = [] := rfl

@[simp] theorem ofChars_cons (c : Char) (cs : List Char) :
    ofChars (c :: cs) = .char c :: ofChars cs := rfl

@[simp] theorem ofChars_append (cs ds : List Char) :
    ofChars (cs ++ ds) = ofChars cs ++ ofChars ds := List.map_append

theorem ofChars_injective {cs ds : List Char} (h : ofChars cs = ofChars ds) : cs = ds :=
  (List.map_inj_right fun _ _ hc => CodePoint.char.inj hc).1 h

theorem ofString_injective {s t : String} (h : ofString s = ofString t) : s = t :=
  String.toList_inj.1 (ofChars_injective h)

theorem isWhole_ofChars (cs : List Char) : (ofChars cs).IsWhole := by
  intro n h
  obtain ⟨c, _, hc⟩ := List.mem_map.1 h
  cases hc

theorem isWhole_ofString (s : String) : (ofString s).IsWhole := isWhole_ofChars s.toList

@[simp] theorem chars?_ofChars (cs : List Char) : (ofChars cs).chars? = some cs := by
  induction cs with
  | nil => rfl
  | cons c cs ih => simp only [ofChars_cons, chars?, ih, Option.map_some]

theorem eq_ofChars_of_chars? {t : Text} {cs : List Char} (h : t.chars? = some cs) :
    t = ofChars cs := by
  induction t generalizing cs with
  | nil =>
    cases h
    rfl
  | cons p t ih =>
    cases p with
    | char c =>
      obtain ⟨ds, hds, rfl⟩ := Option.map_eq_some_iff.1 h
      rw [ih hds, ofChars_cons]
    | half n => cases h

@[simp] theorem string?_ofString (s : String) : (ofString s).string? = some s := by
  rw [string?, ofString, chars?_ofChars, Option.map_some, String.ofList_toList]

theorem eq_ofString_of_string? {t : Text} {s : String} (h : t.string? = some s) :
    t = ofString s := by
  obtain ⟨cs, hcs, rfl⟩ := Option.map_eq_some_iff.1 h
  rw [eq_ofChars_of_chars? hcs, ofString, String.toList_ofList]

end Text

end PhraseGrammar
