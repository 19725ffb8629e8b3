import PhraseGrammar.Files.Tree

/-!
# PhraseGrammar.Proofs.Paths

Where a path leads, before and after a file is written.

* `steps`: the parts of a path that lead somewhere. `steps_text`: the normal form of a path has the
  steps of the path.
* `walk_filter`, `walk_of_filter`: a path that ends in a name leads where its steps lead.
* `step_eq_ok_iff`: all that a step can do. `walk_putFile`: the way to anything is the same after a
  file is written.

`FoundAt.read` reads a file back: by the path that it was written by, and by any other spelling of
that path that ends in a name.
-/

namespace PhraseGrammar.Files

/-! ## Parts of a path -/

def leads (part : List Char) : Bool := part != [] && part != ['.']

/-- The parts of a path that lead somewhere. -/
def steps (path : List Char) : List (List Char) := (components path).filter leads

/-- A path that does not go on after the name that it ends in. -/
def EndsInName (path : String) : Prop :=
  ∀ part ∈ (components path.toList).getLast?, leads part = true

instance (path : String) : Decidable (EndsInName path) :=
  inferInstanceAs (Decidable (∀ part ∈ (components path.toList).getLast?, leads part = true))

theorem components_ne_nil (cs : List Char) : components cs ≠ [] := by
  cases cs with
  | nil => simp [components]
  | cons c cs =>
    simp only [components]
    split
    · simp
    · split <;> simp

theorem components_slash (cs : List Char) : components ('/' :: cs) = [] :: components cs := by
  simp [components]

theorem components_cons {c : Char} (h : c ≠ '/') (cs : List Char) :
    ∃ part parts, components cs = part :: parts ∧ components (c :: cs) = (c :: part) :: parts := by
  obtain ⟨part, parts, hcs⟩ := List.exists_cons_of_ne_nil (components_ne_nil cs)
  exact ⟨part, parts, hcs, by simp [components, h, hcs]⟩

theorem slash_notMem_of_mem_components {part cs : List Char} (h : part ∈ components cs) :
    '/' ∉ part := by
  induction cs generalizing part with
  | nil =>
    rw [List.mem_singleton.1 h]
    simp
  | cons c cs ih =>
    by_cases hc : c = '/'
    · rw [hc, components_slash] at h
      rcases List.mem_cons.1 h with rfl | h
      · simp
      · exact ih h
    · obtain ⟨first, parts, hcs, hcons⟩ := components_cons hc cs
      rw [hcons] at h
      rw [hcs] at ih
      rcases List.mem_cons.1 h with rfl | h
      · have hfirst : '/' ∉ first := ih List.mem_cons_self
        simp [hfirst, Ne.symm hc]
      · exact ih (List.mem_cons_of_mem first h)

theorem exists_mem_components {c : Char} (hc : c ≠ '/') {cs : List Char} (h : c ∈ cs) :
    ∃ part ∈ components cs, c ∈ part := by
  induction cs with
  | nil => cases h
  | cons d cs ih =>
    by_cases hd : d = '/'
    · rw [hd] at h
      rcases List.mem_cons.1 h with h | h
      · exact absurd h hc
      · obtain ⟨part, hpart, hmem⟩ := ih h
        rw [hd, components_slash]
        exact ⟨part, List.mem_cons_of_mem [] hpart, hmem⟩
    · obtain ⟨first, parts, hcs, hcons⟩ := components_cons hd cs
      rw [hcons]
      rcases List.mem_cons.1 h with rfl | h
      · exact ⟨c :: first, List.mem_cons_self, List.mem_cons_self⟩
      · obtain ⟨part, hpart, hmem⟩ := ih h
        rw [hcs] at hpart
        rcases List.mem_cons.1 hpart with rfl | hpart
        · exact ⟨d :: part, List.mem_cons_self, List.mem_cons_of_mem d hmem⟩
        · exact ⟨part, List.mem_cons_of_mem _ hpart, hmem⟩

theorem components_of_notMem {part : List Char} (h : '/' ∉ part) : components part = [part] := by
  induction part with
  | nil => rfl
  | cons c part ih =>
    simp only [List.mem_cons, not_or] at h
    simp [components, Ne.symm h.1, ih h.2]

theorem components_append {part : List Char} (h : '/' ∉ part) (rest : List Char) :
    components (part ++ '/' :: rest) = part :: components rest := by
  induction part with
  | nil => exact components_slash rest
  | cons c part ih =>
    simp only [List.mem_cons, not_or] at h
    simp [components, Ne.symm h.1, ih h.2]

theorem components_intercalate {parts : List (List Char)} (hne : parts ≠ [])
    (h : ∀ part ∈ parts, '/' ∉ part) : components (['/'].intercalate parts) = parts := by
  induction parts with
  | nil => exact absurd rfl hne
  | cons part parts ih =>
    have hpart := h part List.mem_cons_self
    cases parts with
    | nil => simpa using components_of_notMem hpart
    | cons next parts =>
      have hnext := ih (by simp) fun part hmem => h part (List.mem_cons_of_mem _ hmem)
      rw [List.intercalate_cons_cons, List.append_assoc, List.singleton_append,
        components_append hpart, hnext]

theorem mem_intercalate {α : Type} {a : α} {separator item : List α} {items : List (List α)}
    (hitem : item ∈ items) (ha : a ∈ item) : a ∈ separator.intercalate items := by
  induction items with
  | nil => cases hitem
  | cons first items ih =>
    cases items with
    | nil =>
      rw [List.mem_singleton.1 hitem] at ha
      simpa using ha
    | cons next items =>
      rw [List.intercalate_cons_cons]
      rcases List.mem_cons.1 hitem with rfl | hitem
      · simp [ha]
      · simp [ih hitem]

/-! ## The normal form of a path -/

theorem slash_notMem_of_mem_steps {part cs : List Char} (h : part ∈ steps cs) : '/' ∉ part :=
  slash_notMem_of_mem_components (List.mem_filter.1 h).1

theorem ne_nil_of_mem_steps {part cs : List Char} (h : part ∈ steps cs) : part ≠ [] := by
  rintro rfl
  have hleads := (List.mem_filter.1 h).2
  simp [leads] at hleads

theorem steps_slash (cs : List Char) : steps ('/' :: cs) = steps cs := by
  simp [steps, components_slash, leads]

theorem steps_intercalate (cs : List Char) : steps (['/'].intercalate (steps cs)) = steps cs := by
  cases hsteps : steps cs with
  | nil => rfl
  | cons part parts =>
    rw [← hsteps]
    have hne : steps cs ≠ [] := by simp [hsteps]
    have hslash : ∀ part ∈ steps cs, '/' ∉ part := fun part h => slash_notMem_of_mem_steps h
    rw [steps, components_intercalate hne hslash, List.filter_eq_self]
    exact fun part h => (List.mem_filter.1 h).2

def dotted : Nat → List Char → List Char
  | 0, cs => cs
  | n + 1, cs => '.' :: '/' :: dotted n cs

theorem components_dotted (n : Nat) (cs : List Char) :
    components (dotted n cs) = List.replicate n ['.'] ++ components cs := by
  induction n with
  | zero => rfl
  | succ n ih =>
    have hslash : '/' ∉ ['.'] := by decide
    have hdot : components ('.' :: '/' :: dotted n cs) = ['.'] :: components (dotted n cs) :=
      components_append hslash _
    rw [dotted, hdot, ih]
    rfl

theorem steps_dotted (n : Nat) (cs : List Char) : steps (dotted n cs) = steps cs := by
  have hdots : (List.replicate n ['.']).filter leads = [] := by
    simp [leads]
  rw [steps, components_dotted, List.filter_append, hdots, List.nil_append, steps]

theorem getLast?_components_dotted (n : Nat) (cs : List Char) :
    (components (dotted n cs)).getLast? = (components cs).getLast? := by
  obtain ⟨part, parts, hcs⟩ := List.exists_cons_of_ne_nil (components_ne_nil cs)
  rw [components_dotted, hcs, List.getLast?_append, List.getLast?_cons, Option.some_or]

namespace FilePath

theorem parts_ofText (s : String) : (ofText s).parts = (steps s.toList).map String.ofList := rfl

theorem toList_text (s : String) : (ofText s).text.toList =
    if (ofText s).root = "" ∧ steps s.toList = [] then ['.']
    else (ofText s).root.toList ++ ['/'].intercalate (steps s.toList) := by
  unfold text
  rw [parts_ofText]
  by_cases hempty : (ofText s).root = "" ∧ steps s.toList = []
  · simp [hempty]
  · rw [if_neg (by simpa using hempty), if_neg hempty]
    simp

theorem root_cases (s : String) :
    ((ofText s).root = "" ∧ s.toList.head? ≠ some '/') ∨
      (((ofText s).root = "/" ∨ (ofText s).root = "//") ∧ s.toList.head? = some '/') := by
  unfold ofText rootOf
  cases hs : s.toList with
  | nil => simp
  | cons c cs =>
    by_cases hc : c = '/'
    · subst hc
      rw [List.takeWhile_cons_of_pos (by decide)]
      simp only [List.length_cons]
      split <;> simp_all
    · rw [List.takeWhile_cons_of_neg (by simpa using hc)]
      simp [hc]

theorem ofText_dotted (n : Nat) (cs : List Char) :
    ofText (String.ofList (dotted (n + 1) cs)) = ⟨"", (steps cs).map String.ofList⟩ := by
  have hroot : rootOf (dotted (n + 1) cs) = "" := rfl
  have hsteps := steps_dotted (n + 1) cs
  rw [steps] at hsteps
  unfold ofText
  rw [String.toList_ofList, hroot, ← hsteps]
  rfl

theorem steps_text (s : String) : steps (ofText s).text.toList = steps s.toList := by
  rw [toList_text]
  split
  · rename_i hempty
    rw [hempty.2]
    rfl
  · rcases root_cases s with ⟨hroot, _⟩ | ⟨hroot | hroot, _⟩ <;> rw [hroot]
    · exact steps_intercalate s.toList
    · exact (steps_slash _).trans (steps_intercalate s.toList)
    · exact (steps_slash _).trans ((steps_slash _).trans (steps_intercalate s.toList))

theorem head?_text (s : String) :
    (ofText s).text.toList.head? = some '/' ↔ s.toList.head? = some '/' := by
  rw [toList_text]
  rcases root_cases s with ⟨hroot, hs⟩ | ⟨hroot | hroot, hs⟩
  · simp only [hroot, true_and, hs, iff_false]
    cases hsteps : steps s.toList with
    | nil => simp
    | cons part parts =>
      have hpart : part ∈ steps s.toList := by simp [hsteps]
      have hslash := slash_notMem_of_mem_steps hpart
      obtain ⟨c, part, rfl⟩ := List.exists_cons_of_ne_nil (ne_nil_of_mem_steps hpart)
      simp only [List.mem_cons, not_or] at hslash
      cases parts <;> simp [Ne.symm hslash.1]
  · simp [hroot, hs]
  · simp [hroot, hs]

theorem isRecordPath_text (s : String) : isRecordPath (ofText s).text = isRecordPath s := by
  have hparts : (ofText (ofText s).text).parts = (ofText s).parts := by
    rw [parts_ofText, steps_text, parts_ofText]
  unfold isRecordPath name
  rw [hparts]

theorem nul_mem_text {s : String} (h : '\x00' ∈ s.toList) : '\x00' ∈ (ofText s).text.toList := by
  obtain ⟨part, hpart, hmem⟩ := exists_mem_components (by decide) h
  have hleads : leads part = true := by
    unfold leads
    rw [Bool.and_eq_true, bne_iff_ne, bne_iff_ne]
    constructor <;> rintro rfl <;> revert hmem <;> decide
  have hstep : part ∈ steps s.toList := List.mem_filter.2 ⟨hpart, hleads⟩
  have hne : steps s.toList ≠ [] := List.ne_nil_of_mem hstep
  rw [toList_text, if_neg fun hempty => hne hempty.2]
  exact List.mem_append_right _ (mem_intercalate hstep hmem)

end FilePath

/-! ## The way to a file -/

/-- Where a file can be written: in place of a file, or under a name that is free. -/
def Place.target? : Place → Option Location
  | .directory _ => none
  | .file l _ | .absent l => some l

/-- What becomes of a place when a file is put at a location. -/
def Place.put (l : Location) (octets : List UInt8) (place : Place) : Place :=
  if place.target? = some l then .file l octets else place

/-- Where the way to a path begins. -/
def origin (path : List Char) : Location := if path.head? = some '/' then .root else .working

namespace Tree

variable {t t' : Tree} {place next final : Place} {part : List Char} {parts : List (List Char)}
  {l : Location} {octets : List UInt8}

theorem locate_eq_ok_iff {path : String} : t.locate path = .ok place ↔
    path ≠ "" ∧ octetCount path.toList ≤ pathLimit ∧
      t.walk (.directory (origin path.toList)) (components path.toList) = .ok place := by
  unfold locate
  by_cases hlimit : pathLimit < octetCount path.toList
  · simp [hlimit, Nat.not_le.2 hlimit]
  · have hle : octetCount path.toList ≤ pathLimit := Nat.not_lt.1 hlimit
    rw [if_neg hlimit]
    split
    · rename_i hnil
      simp [String.toList_eq_nil_iff.1 hnil]
    · rename_i cs hcs
      have hne : path ≠ "" := by
        rintro rfl
        cases hcs
      have hroot : t.walk (.directory .root) ([] :: components cs) =
          t.walk (.directory .root) (components cs) := rfl
      rw [hcs] at hle
      simp [hne, hle, hcs, components_slash, origin, hroot]
    · rename_i hnil hslash
      have hne : path ≠ "" := fun hempty => hnil (String.toList_eq_nil_iff.2 hempty)
      have hhead : path.toList.head? ≠ some '/' := by
        intro hhead
        obtain ⟨cs, hcs⟩ := List.head?_eq_some_iff.1 hhead
        exact hslash cs hcs
      simp [hne, hle, origin, hhead]

theorem look_cases (t : Tree) (d : Location) :
    t.look d = .directory d ∨ (t.look d).target? = some d := by
  unfold look
  split
  · exact .inr rfl
  · split
    · exact .inl rfl
    · exact .inr rfl

/-- All that a step can do. -/
theorem step_eq_ok_iff : t.step place part = .ok next ↔
    ∃ d, place = .directory d ∧
      (leads part = false ∧ next = .directory d ∨
        part = ['.', '.'] ∧ next = .directory d.parent ∨
        leads part = true ∧ part ≠ ['.', '.'] ∧ octetCount part ≤ nameLimit ∧
          next = t.look (d.child (String.ofList part))) := by
  cases place with
  | absent l => simp [step]
  | file l octets => simp [step]
  | directory d =>
    simp only [step]
    by_cases hempty : part = [] ∨ part = ['.']
    · have hleads : leads part = false := by
        rcases hempty with rfl | rfl <;> rfl
      have hparent : part ≠ ['.', '.'] := by
        rcases hempty with rfl | rfl <;> decide
      simp [hempty, hleads, hparent, eq_comm]
    · have hleads : leads part = true := by
        rw [not_or] at hempty
        simp [leads, hempty]
      by_cases hparent : part = ['.', '.']
      · subst hparent
        simp [hleads, @eq_comm _ next]
      · by_cases hlong : nameLimit < octetCount part
        · simp [hempty, hleads, hparent, hlong, Nat.not_le.2 hlong]
        · simp [hempty, hleads, hparent, hlong, Nat.not_lt.1 hlong, eq_comm]

theorem walk_cons : t.walk place (part :: parts) = .ok final ↔
    ∃ next, t.step place part = .ok next ∧ t.walk next parts = .ok final := by
  simp only [walk]
  cases t.step place part <;> simp

/-- A part that leads nowhere can stand only where there is a directory. -/
theorem step_of_not_leads (hpart : leads part = false) :
    t.step place part = .ok next ↔ ∃ d, place = .directory d ∧ next = .directory d := by
  have hparent : part ≠ ['.', '.'] := by
    rintro rfl
    cases hpart
  rw [step_eq_ok_iff]
  simp [hpart, hparent]

/-- Parts that lead nowhere can be left out. -/
theorem walk_filter (h : t.walk place parts = .ok final) :
    t.walk place (parts.filter leads) = .ok final := by
  induction parts generalizing place with
  | nil => exact h
  | cons part parts ih =>
    obtain ⟨next, hstep, hwalk⟩ := walk_cons.1 h
    cases hpart : leads part with
    | true =>
      rw [List.filter_cons_of_pos hpart]
      exact walk_cons.2 ⟨next, hstep, ih hwalk⟩
    | false =>
      obtain ⟨d, rfl, rfl⟩ := (step_of_not_leads hpart).1 hstep
      rw [List.filter_cons_of_neg (by simp [hpart])]
      exact ih hwalk

/-- They can be put in again, but not at the end: there has to be a directory where they stand. -/
theorem walk_of_filter (hlast : ∀ part ∈ parts.getLast?, leads part = true)
    (h : t.walk place (parts.filter leads) = .ok final) : t.walk place parts = .ok final := by
  induction parts generalizing place with
  | nil => exact h
  | cons part parts ih =>
    cases parts with
    | nil =>
      have hpart : leads part = true := hlast part rfl
      rwa [List.filter_cons_of_pos hpart] at h
    | cons next parts =>
      have hlast' : ∀ part ∈ (next :: parts).getLast?, leads part = true := by
        simpa [List.getLast?_cons_cons] using hlast
      cases hpart : leads part with
      | true =>
        rw [List.filter_cons_of_pos hpart] at h
        obtain ⟨middle, hstep, hwalk⟩ := walk_cons.1 h
        exact walk_cons.2 ⟨middle, hstep, ih hlast' hwalk⟩
      | false =>
        rw [List.filter_cons_of_neg (by simp [hpart])] at h
        have hwalk := ih hlast' h
        obtain ⟨middle, hstep, _⟩ := walk_cons.1 hwalk
        obtain ⟨d, rfl, _⟩ := step_eq_ok_iff.1 hstep
        exact walk_cons.2 ⟨.directory d, (step_of_not_leads hpart).2 ⟨d, rfl, rfl⟩, hwalk⟩

/-! ## Writing and reading -/

theorem find?_filter_ne (files : List (Location × List UInt8)) (d l : Location) :
    (files.filter fun f => f.1 != l).find? (fun f => f.1 == d) =
      if d = l then none else files.find? fun f => f.1 == d := by
  rw [List.find?_filter]
  by_cases hd : d = l
  · subst hd
    simp
  · rw [if_neg hd]
    congr 1
    funext f
    by_cases hf : f.1 = d <;> simp [hf, hd]

theorem look_putFile (t : Tree) (l d : Location) (octets : List UInt8) :
    (t.putFile l octets).look d = if d = l then .file l octets else t.look d := by
  unfold look putFile
  rw [List.find?_append, find?_filter_ne]
  by_cases hd : d = l
  · simp [hd]
  · simp [hd, Ne.symm hd]

theorem target?_look_eq_some_iff (hfree : (t.look l).target? = some l) {d : Location} :
    (t.look d).target? = some l ↔ d = l := by
  constructor
  · intro hd
    rcases look_cases t d with hlook | hlook <;> rw [hlook] at hd
    · cases hd
    · exact Option.some.inj hd
  · rintro rfl
    exact hfree

theorem look_of_step (h : t.step place part = .ok next) (hl : next.target? = some l) :
    t.look l = next := by
  obtain ⟨d, -, ⟨-, rfl⟩ | ⟨-, rfl⟩ | ⟨-, -, -, rfl⟩⟩ := step_eq_ok_iff.1 h
  · cases hl
  · cases hl
  · rcases look_cases t (d.child (String.ofList part)) with hlook | hlook
    · rw [hlook] at hl
      cases hl
    · rw [hlook, Option.some.injEq] at hl
      rw [hl]

theorem look_of_walk (h : t.walk place parts = .ok final)
    (hplace : ∀ l, place.target? = some l → t.look l = place) (hl : final.target? = some l) :
    t.look l = final := by
  induction parts generalizing place with
  | nil =>
    cases h
    exact hplace l hl
  | cons part parts ih =>
    obtain ⟨next, hstep, hwalk⟩ := walk_cons.1 h
    exact ih hwalk fun l => look_of_step hstep

theorem step_putFile (hfree : (t.look l).target? = some l) (h : t.step place part = .ok next) :
    (t.putFile l octets).step (place.put l octets) part = .ok (next.put l octets) := by
  obtain ⟨d, rfl, hcases⟩ := step_eq_ok_iff.1 h
  refine step_eq_ok_iff.2 ⟨d, rfl, ?_⟩
  rcases hcases with ⟨hpart, rfl⟩ | ⟨hpart, rfl⟩ | ⟨hpart, hparent, hlimit, rfl⟩
  · exact .inl ⟨hpart, rfl⟩
  · exact .inr (.inl ⟨hpart, rfl⟩)
  · refine .inr (.inr ⟨hpart, hparent, hlimit, ?_⟩)
    simp only [look_putFile, Place.put, target?_look_eq_some_iff hfree]

/-- The way to anything is the same after a file is put at a location that is none of a
directory. -/
theorem walk_putFile (hfree : (t.look l).target? = some l) (h : t.walk place parts = .ok final) :
    (t.putFile l octets).walk (place.put l octets) parts = .ok (final.put l octets) := by
  induction parts generalizing place with
  | nil =>
    cases h
    rfl
  | cons part parts ih =>
    obtain ⟨next, hstep, hwalk⟩ := walk_cons.1 h
    exact walk_cons.2 ⟨_, step_putFile hfree hstep, ih hwalk⟩

theorem read_eq_ok {path : String} (hnul : '\x00' ∉ path.toList)
    (h : t.locate path = .ok (.file l octets)) : t.read path = .ok octets := by
  unfold read
  rw [String.contains_char_eq, h]
  simp [hnul]

theorem write_eq_ok_iff {path : String} : t.write path octets = .ok t' ↔
    '\x00' ∉ path.toList ∧
      ∃ place l, t.locate path = .ok place ∧ place.target? = some l ∧ t' = t.putFile l octets := by
  unfold write
  rw [String.contains_char_eq]
  by_cases hnul : '\x00' ∈ path.toList
  · simp [hnul]
  · cases hplace : t.locate path with
    | error e => simp [hnul]
    | ok place =>
      cases place <;> simp [hnul, Place.target?, eq_comm]

/-- The way that leads to where a file is written leads to the file. -/
theorem walk_putFile_target {d : Location} (h : t.walk (.directory d) parts = .ok place)
    (hl : place.target? = some l) :
    (t.putFile l octets).walk (.directory d) parts = .ok (.file l octets) := by
  have hlook := look_of_walk h (fun l hd => by cases hd) hl
  have hfree : (t.look l).target? = some l := by rw [hlook, hl]
  have hwalk : (t.putFile l octets).walk ((Place.directory d).put l octets) parts =
      .ok (place.put l octets) := walk_putFile hfree h
  rwa [Place.put, Place.put, if_pos hl, if_neg (by simp [Place.target?])] at hwalk

theorem read_of_write {path : String} (h : t.write path octets = .ok t') :
    t'.read path = .ok octets := by
  obtain ⟨hnul, place, l, hlocate, hl, rfl⟩ := write_eq_ok_iff.1 h
  obtain ⟨hne, hlimit, hwalk⟩ := locate_eq_ok_iff.1 hlocate
  exact read_eq_ok hnul (locate_eq_ok_iff.2 ⟨hne, hlimit, walk_putFile_target hwalk hl⟩)

/-- A file that is written at the normal form of a path is read back by the path as it is spelled,
if that ends in a name. -/
theorem read_of_write_text {s : String} (h : t.write (FilePath.ofText s).text octets = .ok t')
    (hname : EndsInName s) (hlimit : octetCount s.toList ≤ pathLimit) : t'.read s = .ok octets := by
  obtain ⟨hnul, place, l, hlocate, hl, rfl⟩ := write_eq_ok_iff.1 h
  obtain ⟨-, -, hwalk⟩ := locate_eq_ok_iff.1 hlocate
  have hnul' : '\x00' ∉ s.toList := fun hmem => hnul (FilePath.nul_mem_text hmem)
  have hne : s ≠ "" := by
    rintro rfl
    revert hname
    decide
  have horigin : origin (FilePath.ofText s).text.toList = origin s.toList := by
    simp only [origin, FilePath.head?_text]
  have hsteps := walk_filter hwalk
  rw [← steps, FilePath.steps_text, horigin] at hsteps
  have hspelled := walk_of_filter hname hsteps
  exact read_eq_ok hnul' (locate_eq_ok_iff.2 ⟨hne, hlimit, walk_putFile_target hspelled hl⟩)

theorem octetCount_dotted (n : Nat) (cs : List Char) :
    octetCount (dotted n cs) = 2 * n + octetCount cs := by
  induction n with
  | zero => simp [dotted]
  | succ n ih =>
    have hdot : octetCount ('.' :: '/' :: dotted n cs) = 2 + octetCount (dotted n cs) := by
      simp only [octetCount, Text.Utf8.encode, List.flatMap_cons, List.length_append,
        ← Nat.add_assoc]
      rfl
    rw [dotted, hdot, ih]
    omega

theorem read_of_long {path : String} (t : Tree) (h : pathLimit < octetCount path.toList) :
    ∃ e, t.read path = .error e := by
  unfold read locate
  rw [if_pos h]
  split <;> exact ⟨_, rfl⟩

/-- The spellings of a path at which a file that is written there is found: its normal form, and
the path itself if it ends in a name and is not too long. -/
inductive FoundAt (path : String) : String → Prop where
  | normal : FoundAt path (FilePath.ofText path).text
  | spelled : EndsInName path → octetCount path.toList ≤ pathLimit → FoundAt path path

theorem FoundAt.isRecordPath_eq {path spelling : String} (h : FoundAt path spelling) :
    isRecordPath spelling = isRecordPath path := by
  cases h with
  | normal => exact FilePath.isRecordPath_text path
  | spelled => rfl

section

variable [Host]

def save (t : Tree) (path : FilePath) (octets : List UInt8) : Except FileError Tree :=
  match t.makeDirectories path.parent with
  | .error e => .error e
  | .ok made => made.write path.text octets

def Writable (t : Tree) (path : FilePath) : Prop := ∃ octets t', t.save path octets = .ok t'

theorem save_eq_ok_iff {path : FilePath} : t.save path octets = .ok t' ↔
    ∃ made, t.makeDirectories path.parent = .ok made ∧ made.write path.text octets = .ok t' := by
  unfold save
  cases t.makeDirectories path.parent <;> simp

/-- Where something can be written everything can be written. -/
theorem Writable.save {path : FilePath} (h : t.Writable path) (octets : List UInt8) :
    ∃ t', t.save path octets = .ok t' := by
  obtain ⟨other, _, hsave⟩ := h
  obtain ⟨made, hmade, hwrite⟩ := save_eq_ok_iff.1 hsave
  obtain ⟨hnul, place, l, hlocate, hl, -⟩ := write_eq_ok_iff.1 hwrite
  have hother : made.write path.text octets = .ok (made.putFile l octets) :=
    write_eq_ok_iff.2 ⟨hnul, place, l, hlocate, hl, rfl⟩
  exact ⟨_, save_eq_ok_iff.2 ⟨made, hmade, hother⟩⟩

theorem FoundAt.read {path spelling : String} (h : FoundAt path spelling)
    (hsave : t.save (.ofText path) octets = .ok t') : t'.read spelling = .ok octets := by
  obtain ⟨made, -, hwrite⟩ := save_eq_ok_iff.1 hsave
  cases h with
  | normal => exact read_of_write hwrite
  | spelled hname hlimit => exact read_of_write_text hwrite hname hlimit

theorem makeDirectories_of_directory {path : FilePath} (hnul : '\x00' ∉ path.text.toList)
    (h : t.locate path.text = .ok (.directory l)) : t.makeDirectories path = .ok t := by
  have hmake : t.makeDirectory path.text = .error (.system .alreadyExists path.text) := by
    unfold makeDirectory
    rw [String.contains_char_eq, h]
    simp [hnul]
  unfold makeDirectories makeDirectoriesBelow
  simp [hmake, orPresent, isDirectory, h]

end

end Tree

end PhraseGrammar.Files
