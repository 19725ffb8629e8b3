/-!
# PhraseGrammar.OrderedMap

Maps that remember the order in which their keys were added.

* `get?` — the value at a key.
* `insertNew`, `set` — give a key a value; a new key goes to the end, an old one keeps its place.
* `modify`, `erase` — change or remove the entry of a key.

Each operation has a lemma on `get?` and one on `keys`.
-/

namespace PhraseGrammar

/-- A map whose entries are listed in the order in which their keys were added. -/
structure OrderedMap (κ ν : Type) where
  entries : List (κ × ν)
deriving DecidableEq, Repr

namespace OrderedMap

variable {κ ν : Type} [DecidableEq κ]

def empty : OrderedMap κ ν := ⟨[]⟩

instance : Inhabited (OrderedMap κ ν) := ⟨empty⟩

def keys (m : OrderedMap κ ν) : List κ := m.entries.map (·.1)

def get? (m : OrderedMap κ ν) (k : κ) : Option ν :=
  (m.entries.find? fun e => e.1 == k).map (·.2)

def contains (m : OrderedMap κ ν) (k : κ) : Bool := m.keys.contains k

/-- Gives a new key a value, at the end; a key that has a value keeps it. -/
def insertNew (m : OrderedMap κ ν) (k : κ) (v : ν) : OrderedMap κ ν :=
  if m.contains k then m else ⟨m.entries ++ [(k, v)]⟩

/-- Changes the value at a key; nothing happens without one. -/
def modify (m : OrderedMap κ ν) (k : κ) (f : ν → ν) : OrderedMap κ ν :=
  ⟨m.entries.map fun e => if e.1 = k then (e.1, f e.2) else e⟩

/-- Gives a key a value: an old key keeps its place, a new one goes to the end. -/
def set (m : OrderedMap κ ν) (k : κ) (v : ν) : OrderedMap κ ν :=
  if m.contains k then m.modify k (fun _ => v) else ⟨m.entries ++ [(k, v)]⟩

def erase (m : OrderedMap κ ν) (k : κ) : OrderedMap κ ν :=
  ⟨m.entries.filter fun e => e.1 != k⟩

def size (m : OrderedMap κ ν) : Nat := m.entries.length

@[simp] theorem contains_iff {m : OrderedMap κ ν} {k : κ} :
    m.contains k = true ↔ k ∈ m.keys := by
  simp [contains]

theorem get?_eq_none_iff {m : OrderedMap κ ν} {k : κ} : m.get? k = none ↔ k ∉ m.keys := by
  simp only [get?, keys, Option.map_eq_none_iff, List.find?_eq_none, beq_iff_eq, List.mem_map,
    not_exists, not_and]

theorem get?_isSome_iff {m : OrderedMap κ ν} {k : κ} : (m.get? k).isSome ↔ k ∈ m.keys := by
  rw [Option.isSome_iff_ne_none, ne_eq, get?_eq_none_iff, Decidable.not_not]

theorem exists_get?_of_mem {m : OrderedMap κ ν} {k : κ} (h : k ∈ m.keys) :
    ∃ v, m.get? k = some v := Option.isSome_iff_exists.1 (get?_isSome_iff.2 h)

theorem mem_entries_of_get? {m : OrderedMap κ ν} {k : κ} {v : ν} (h : m.get? k = some v) :
    (k, v) ∈ m.entries := by
  obtain ⟨e, he, rfl⟩ := Option.map_eq_some_iff.1 h
  have hk : e.1 = k := by simpa using List.find?_some he
  subst hk
  exact List.mem_of_find?_eq_some he

theorem get?_append_new {m : OrderedMap κ ν} {k : κ} (h : k ∉ m.keys) (v : ν) (j : κ) :
    (OrderedMap.mk (m.entries ++ [(k, v)])).get? j = if j = k then some v else m.get? j := by
  unfold get?
  rw [List.find?_append]
  by_cases hj : j = k
  · subst hj
    have hn : m.entries.find? (fun e => e.1 == j) = none :=
      Option.map_eq_none_iff.1 (get?_eq_none_iff.2 h)
    simp [hn]
  · simp [hj, Ne.symm hj]

theorem get?_insertNew (m : OrderedMap κ ν) (k : κ) (v : ν) (j : κ) :
    (m.insertNew k v).get? j = if j = k ∧ k ∉ m.keys then some v else m.get? j := by
  unfold insertNew
  by_cases h : k ∈ m.keys
  · simp [contains_iff.2 h, h]
  · rw [if_neg (fun c => h (contains_iff.1 c)), get?_append_new h]
    simp [h]

theorem get?_modify (m : OrderedMap κ ν) (k : κ) (f : ν → ν) (j : κ) :
    (m.modify k f).get? j = if j = k then (m.get? j).map f else m.get? j := by
  obtain ⟨es⟩ := m
  unfold modify get?
  induction es with
  | nil => simp
  | cons e es ih =>
    by_cases hj : j = k <;> by_cases hk : e.1 = k <;> by_cases he : e.1 = j <;> simp_all

theorem get?_set (m : OrderedMap κ ν) (k : κ) (v : ν) (j : κ) :
    (m.set k v).get? j = if j = k then some v else m.get? j := by
  unfold set
  by_cases h : k ∈ m.keys
  · rw [if_pos (contains_iff.2 h), get?_modify]
    by_cases hj : j = k
    · subst hj
      obtain ⟨w, hw⟩ := Option.isSome_iff_exists.1 (get?_isSome_iff.2 h)
      simp [hw]
    · simp [hj]
  · rw [if_neg (fun c => h (contains_iff.1 c)), get?_append_new h]

theorem get?_erase (m : OrderedMap κ ν) (k j : κ) :
    (m.erase k).get? j = if j = k then none else m.get? j := by
  obtain ⟨es⟩ := m
  unfold erase get?
  induction es with
  | nil => simp
  | cons e es ih =>
    by_cases hk : e.1 = k <;> by_cases hj : e.1 = j <;> simp_all

theorem keys_insertNew (m : OrderedMap κ ν) (k : κ) (v : ν) :
    (m.insertNew k v).keys = if k ∈ m.keys then m.keys else m.keys ++ [k] := by
  unfold insertNew
  by_cases h : k ∈ m.keys
  · simp [contains_iff.2 h, h]
  · rw [if_neg (fun c => h (contains_iff.1 c)), if_neg h]
    simp [keys]

@[simp] theorem keys_modify (m : OrderedMap κ ν) (k : κ) (f : ν → ν) :
    (m.modify k f).keys = m.keys := by
  simp only [modify, keys, List.map_map]
  refine List.map_congr_left fun e _ => ?_
  simp only [Function.comp_apply]
  split <;> rfl

theorem keys_set (m : OrderedMap κ ν) (k : κ) (v : ν) :
    (m.set k v).keys = if k ∈ m.keys then m.keys else m.keys ++ [k] := by
  unfold set
  by_cases h : k ∈ m.keys
  · rw [if_pos (contains_iff.2 h), keys_modify, if_pos h]
  · rw [if_neg (fun c => h (contains_iff.1 c)), if_neg h]
    simp [keys]

theorem keys_erase (m : OrderedMap κ ν) (k : κ) :
    (m.erase k).keys = m.keys.filter (· != k) := by
  simp only [erase, keys, List.filter_map]
  rfl

theorem modify_of_notMem {m : OrderedMap κ ν} {k : κ} (h : k ∉ m.keys) (f : ν → ν) :
    m.modify k f = m := by
  have hid : m.entries.map (fun e => if e.1 = k then (e.1, f e.2) else e) = m.entries := by
    refine (List.map_congr_left fun e he => ?_).trans (List.map_id m.entries)
    have hek : e.1 ≠ k := fun c => h (c ▸ List.mem_map_of_mem he)
    exact if_neg hek
  rw [modify, hid]

theorem modify_append_new {m : OrderedMap κ ν} {k : κ} (h : k ∉ m.keys) (v : ν) (f : ν → ν) :
    (mk (m.entries ++ [(k, v)])).modify k f = ⟨m.entries ++ [(k, f v)]⟩ := by
  have hold := congrArg entries (modify_of_notMem h f)
  simp only [modify] at hold ⊢
  rw [List.map_append, hold]
  simp

theorem set_of_notMem {m : OrderedMap κ ν} {k : κ} (h : k ∉ m.keys) (v : ν) :
    m.set k v = ⟨m.entries ++ [(k, v)]⟩ := by
  unfold set
  rw [if_neg fun c => h (contains_iff.1 c)]

theorem insertNew_of_notMem {m : OrderedMap κ ν} {k : κ} (h : k ∉ m.keys) (v : ν) :
    m.insertNew k v = ⟨m.entries ++ [(k, v)]⟩ := by
  unfold insertNew
  rw [if_neg fun c => h (contains_iff.1 c)]

theorem insertNew_of_mem {m : OrderedMap κ ν} {k : κ} (h : k ∈ m.keys) (v : ν) :
    m.insertNew k v = m := by
  unfold insertNew
  rw [if_pos (contains_iff.2 h)]

theorem erase_of_notMem {m : OrderedMap κ ν} {k : κ} (h : k ∉ m.keys) : m.erase k = m := by
  have hall : ∀ e ∈ m.entries, (e.1 != k) = true := by
    intro e he
    have hek : e.1 ≠ k := fun c => h (c ▸ List.mem_map_of_mem he)
    simpa using hek
  rw [erase, List.filter_eq_self.2 hall]

theorem get?_of_mem {m : OrderedMap κ ν} (h : m.keys.Nodup) {e : κ × ν} (he : e ∈ m.entries) :
    m.get? e.1 = some e.2 := by
  obtain ⟨es⟩ := m
  induction es with
  | nil => cases he
  | cons d es ih =>
    simp only [keys, List.map_cons, List.nodup_cons] at h
    rcases List.mem_cons.1 he with rfl | he
    · simp [get?]
    · have hne : d.1 ≠ e.1 := fun c => h.1 (c ▸ List.mem_map_of_mem he)
      have hfind : (OrderedMap.mk (d :: es)).get? e.1 = (OrderedMap.mk es).get? e.1 := by
        simp [get?, hne]
      rw [hfind]
      exact ih h.2 he

/-- With distinct keys, changing the value of a key is giving it the changed value. -/
theorem modify_eq_set {m : OrderedMap κ ν} (h : m.keys.Nodup) {k : κ} {v : ν}
    (hv : m.get? k = some v) (f : ν → ν) : m.modify k f = m.set k (f v) := by
  have hk : k ∈ m.keys := get?_isSome_iff.1 (by rw [hv]; rfl)
  unfold set
  rw [if_pos (contains_iff.2 hk)]
  simp only [modify, mk.injEq]
  refine List.map_congr_left fun e he => ?_
  by_cases hek : e.1 = k
  · have hev : some e.2 = some v := by rw [← get?_of_mem h he, hek, hv]
    rw [if_pos hek, if_pos hek, Option.some.inj hev]
  · rw [if_neg hek, if_neg hek]

theorem set_get? {m : OrderedMap κ ν} (h : m.keys.Nodup) {k : κ} {v : ν}
    (hv : m.get? k = some v) : m.set k v = m := by
  have hmodify := modify_eq_set h hv id
  rw [id] at hmodify
  rw [← hmodify]
  simp [modify]

theorem entries_eq {m : OrderedMap κ ν} (h : m.keys.Nodup) (d : ν) :
    m.entries = m.keys.map fun k => (k, (m.get? k).getD d) := by
  have hentry : ∀ e ∈ m.entries, (e.1, (m.get? e.1).getD d) = e := by
    intro e he
    rw [get?_of_mem h he]
    rfl
  rw [keys, List.map_map]
  exact ((List.map_congr_left hentry).trans (List.map_id m.entries)).symm

/-- A map with distinct keys is known by its keys in their order and by what stands at them. -/
theorem ext_getD {m n : OrderedMap κ ν} (h : m.keys.Nodup) (hkeys : m.keys = n.keys) {d : ν}
    (hget : ∀ k, (m.get? k).getD d = (n.get? k).getD d) : m = n := by
  have hentries : m.entries = n.entries := by
    rw [entries_eq h d, entries_eq (hkeys ▸ h) d, hkeys]
    exact List.map_congr_left fun k _ => by rw [hget]
  cases m
  cases n
  exact congrArg OrderedMap.mk hentries

end OrderedMap

end PhraseGrammar
