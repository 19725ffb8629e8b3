/-!
# PhraseGrammar.OrderedSet

Sets that remember the order in which their elements were added.

* `insert` — adds an element at the end unless it is there.
* `erase` — removes an element if it is there.
* `sameElements` — equality that ignores the order.

`Nodup` of `toList` is not part of the type: `empty` has it, and each operation keeps it.
-/

namespace PhraseGrammar

/-- A set whose elements are listed in the order in which they were added. -/
structure OrderedSet (α : Type) where
  toList : List α
deriving DecidableEq, Repr

namespace OrderedSet

variable {α : Type} [DecidableEq α]

def empty : OrderedSet α := ⟨[]⟩

instance : Inhabited (OrderedSet α) := ⟨empty⟩

def contains (s : OrderedSet α) (a : α) : Bool := s.toList.contains a

/-- Adds an element at the end; one that is there keeps its place. -/
def insert (s : OrderedSet α) (a : α) : OrderedSet α :=
  if s.contains a then s else ⟨s.toList ++ [a]⟩

def erase (s : OrderedSet α) (a : α) : OrderedSet α := ⟨s.toList.erase a⟩

def insertAll (s : OrderedSet α) (as : List α) : OrderedSet α := as.foldl insert s

def eraseAll (s : OrderedSet α) (as : List α) : OrderedSet α := as.foldl erase s

/-- The set of the elements of a list, in the order of their first occurrences. -/
def ofList (as : List α) : OrderedSet α := empty.insertAll as

def size (s : OrderedSet α) : Nat := s.toList.length

/-- Whether two sets have the same elements, in whatever order. -/
def sameElements (s t : OrderedSet α) : Bool :=
  s.toList.all t.contains && t.toList.all s.contains

@[simp] theorem contains_iff {s : OrderedSet α} {a : α} : s.contains a = true ↔ a ∈ s.toList := by
  simp [contains]

theorem toList_insert (s : OrderedSet α) (a : α) :
    (s.insert a).toList = if a ∈ s.toList then s.toList else s.toList ++ [a] := by
  unfold insert
  by_cases h : a ∈ s.toList
  · rw [if_pos (contains_iff.2 h), if_pos h]
  · rw [if_neg (fun c => h (contains_iff.1 c)), if_neg h]

@[simp] theorem toList_erase (s : OrderedSet α) (a : α) :
    (s.erase a).toList = s.toList.erase a := rfl

@[simp] theorem mem_insert {s : OrderedSet α} {a b : α} :
    b ∈ (s.insert a).toList ↔ b ∈ s.toList ∨ b = a := by
  rw [toList_insert]
  split
  · constructor
    · exact .inl
    · rintro (h | rfl)
      · exact h
      · assumption
  · simp

theorem nodup_insert {s : OrderedSet α} (h : s.toList.Nodup) (a : α) :
    (s.insert a).toList.Nodup := by
  rw [toList_insert]
  split
  · exact h
  · rename_i ha
    refine List.nodup_append.2 ⟨h, by simp, ?_⟩
    intro b hb c hc e
    rw [List.mem_singleton.1 hc] at e
    exact ha (e ▸ hb)

theorem nodup_erase {s : OrderedSet α} (h : s.toList.Nodup) (a : α) :
    (s.erase a).toList.Nodup := h.erase a

theorem mem_of_mem_erase {s : OrderedSet α} {a b : α} (h : b ∈ (s.erase a).toList) :
    b ∈ s.toList := List.mem_of_mem_erase h

@[simp] theorem insertAll_nil (s : OrderedSet α) : s.insertAll [] = s := rfl

@[simp] theorem insertAll_cons (s : OrderedSet α) (a : α) (as : List α) :
    s.insertAll (a :: as) = (s.insert a).insertAll as := rfl

theorem insertAll_append (s : OrderedSet α) (as bs : List α) :
    s.insertAll (as ++ bs) = (s.insertAll as).insertAll bs := List.foldl_append

theorem mem_insertAll {s : OrderedSet α} {as : List α} {b : α} :
    b ∈ (s.insertAll as).toList ↔ b ∈ s.toList ∨ b ∈ as := by
  induction as generalizing s with
  | nil => simp
  | cons a as ih => simp [ih, or_assoc]

theorem nodup_insertAll {s : OrderedSet α} (h : s.toList.Nodup) (as : List α) :
    (s.insertAll as).toList.Nodup := by
  induction as generalizing s with
  | nil => exact h
  | cons a as ih => exact ih (nodup_insert h a)

theorem mem_ofList {as : List α} {a : α} : a ∈ (ofList as).toList ↔ a ∈ as := by
  simp [ofList, mem_insertAll, empty]

theorem insert_of_mem {s : OrderedSet α} {a : α} (h : a ∈ s.toList) : s.insert a = s := by
  unfold insert
  rw [if_pos (contains_iff.2 h)]

theorem insert_of_notMem {s : OrderedSet α} {a : α} (h : a ∉ s.toList) :
    s.insert a = ⟨s.toList ++ [a]⟩ := by
  unfold insert
  rw [if_neg fun c => h (contains_iff.1 c)]

theorem insertAll_of_nodup {s : OrderedSet α} {as : List α} (h : (s.toList ++ as).Nodup) :
    s.insertAll as = ⟨s.toList ++ as⟩ := by
  induction as generalizing s with
  | nil => simp
  | cons a as ih =>
    have ha : a ∉ s.toList := fun hs => by
      rw [List.nodup_append] at h
      exact h.2.2 a hs a (List.mem_cons_self ..) rfl
    rw [insertAll_cons, insert_of_notMem ha, ih (by simpa using h)]
    simp

theorem ofList_toList {s : OrderedSet α} (h : s.toList.Nodup) : ofList s.toList = s := by
  rw [ofList, insertAll_of_nodup (by simpa [empty] using h)]
  rfl

theorem nodup_ofList (as : List α) : (ofList as).toList.Nodup :=
  nodup_insertAll List.nodup_nil as

/-- Elements that were put together in a set before are added in the same order. -/
theorem insertAll_insertAll (s t : OrderedSet α) (as : List α) :
    s.insertAll (t.insertAll as).toList = (s.insertAll t.toList).insertAll as := by
  induction as generalizing t with
  | nil => rfl
  | cons a as ih =>
    have hinsert : s.insertAll (t.insert a).toList = (s.insertAll t.toList).insert a := by
      by_cases ha : a ∈ t.toList
      · rw [insert_of_mem ha, insert_of_mem (mem_insertAll.2 (.inr ha))]
      · rw [insert_of_notMem ha, insertAll_append]
        rfl
    rw [insertAll_cons, ih, hinsert, insertAll_cons]

theorem insertAll_ofList (s : OrderedSet α) (as : List α) :
    s.insertAll (ofList as).toList = s.insertAll as := insertAll_insertAll s .empty as

/-- Lists that make the same set add the same to every set. -/
theorem insertAll_congr {as bs : List α} (h : ofList as = ofList bs) (s : OrderedSet α) :
    s.insertAll as = s.insertAll bs := by
  rw [← insertAll_ofList, h, insertAll_ofList]

theorem sublist_eraseAll (as : List α) :
    ∀ s : OrderedSet α, (s.eraseAll as).toList.Sublist s.toList := by
  induction as with
  | nil => intro s; exact List.Sublist.refl _
  | cons a as ih =>
    intro s
    exact (ih (s.erase a)).trans List.erase_sublist

theorem mem_eraseAll {as : List α} {b : α} :
    ∀ {s : OrderedSet α}, s.toList.Nodup →
      (b ∈ (s.eraseAll as).toList ↔ b ∈ s.toList ∧ b ∉ as) := by
  induction as with
  | nil => intro s _; simp [eraseAll]
  | cons a as ih =>
    intro s h
    have hstep : s.eraseAll (a :: as) = (s.erase a).eraseAll as := rfl
    rw [hstep, ih (nodup_erase h a), toList_erase, h.mem_erase_iff, List.mem_cons, not_or]
    exact ⟨fun ⟨⟨hba, hb⟩, has⟩ => ⟨hb, hba, has⟩, fun ⟨hb, hba, has⟩ => ⟨⟨hba, hb⟩, has⟩⟩

theorem sameElements_iff {s t : OrderedSet α} :
    s.sameElements t = true ↔ ∀ a, a ∈ s.toList ↔ a ∈ t.toList := by
  simp only [sameElements, Bool.and_eq_true, List.all_eq_true, contains_iff]
  exact ⟨fun h a => ⟨h.1 a, h.2 a⟩, fun h => ⟨fun a => (h a).1, fun a => (h a).2⟩⟩

end OrderedSet

end PhraseGrammar
