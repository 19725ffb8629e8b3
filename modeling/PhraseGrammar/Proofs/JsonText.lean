import PhraseGrammar.Proofs.Escape

/-!
# PhraseGrammar.Proofs.JsonText

A value that is written as JSON text is read back, in every layout.

* `Storable`: values of texts, lists and objects whose names are distinct. Numbers are left out:
  they are never stored.
* `isWhole_list_iff`, `isWhole_object_iff`: half of a pair stands in a text if it does in an item.
* `ReadsAs`: a text is read as a value, whatever follows it.
* `readElements_written`, `readFields_written`: the items of a list or an object, with a comma and
  spaces between them.

`read_write` is the whole text. Fuel is counted against the length of the text: a list takes two
more than its items, and so do its brackets. Calls are counted against the depth of the value.
-/

namespace PhraseGrammar.Json

/-- Values of texts, lists and objects whose names are distinct, for which some calls are enough. -/
inductive Storable : (calls : Nat) → Value → Prop where
  | null {calls : Nat} : Storable calls .null
  | text {calls : Nat} (t : Text) : Storable calls (.text t)
  | list {calls : Nat} {vs : List Value} :
      (∀ v ∈ vs, Storable calls v) → Storable (calls + 1) (.list vs)
  | object {calls : Nat} {fields : List (Text × Value)} :
      (fields.map fun f => f.1).Nodup → (∀ f ∈ fields, Storable calls f.2) →
      Storable (calls + 1) (.object fields)

/-- A text is read as a value, whatever follows it, where there is room for some calls. -/
def ReadsAs (calls : Nat) (cs : List Char) (v : Value) : Prop :=
  ∀ ⦃room fuel : Nat⦄ (rest : List Char), calls ≤ room → 2 * cs.length ≤ fuel →
    readValue room fuel (cs ++ rest) = .ok (v, rest)

/-! ## Space -/

def AllSpace (cs : List Char) : Prop := ∀ c ∈ cs, isSpace c = true

/-- A text that begins like a storable value. -/
def Opens (cs : List Char) : Prop :=
  ∃ c rest, cs = c :: rest ∧ c ∈ ['n', '"', '[', '\x7b']

theorem skipSpace_append {cs : List Char} (h : AllSpace cs) (rest : List Char) :
    skipSpace (cs ++ rest) = skipSpace rest := by
  induction cs with
  | nil => rfl
  | cons c cs ih =>
    have hc : isSpace c = true := h c List.mem_cons_self
    rw [List.cons_append, skipSpace, List.dropWhile_cons_of_pos hc]
    exact ih fun d hd => h d (List.mem_cons_of_mem c hd)

theorem skipSpace_cons {c : Char} (h : isSpace c = false) (rest : List Char) :
    skipSpace (c :: rest) = c :: rest := by
  have hc : ¬isSpace c = true := by simp [h]
  rw [skipSpace, List.dropWhile_cons_of_neg hc]

theorem skipSpace_space (cs : List Char) : skipSpace (' ' :: cs) = skipSpace cs :=
  List.dropWhile_cons_of_pos rfl

theorem skipSpace_colon (cs : List Char) : skipSpace (':' :: cs) = ':' :: cs :=
  skipSpace_cons rfl cs

theorem Opens.append {cs : List Char} (h : Opens cs) (rest : List Char) : Opens (cs ++ rest) := by
  obtain ⟨c, cs, rfl, hc⟩ := h
  exact ⟨c, cs ++ rest, rfl, hc⟩

theorem Opens.skipSpace_eq {cs : List Char} (h : Opens cs) : skipSpace cs = cs := by
  obtain ⟨c, cs, rfl, hc⟩ := h
  simp only [List.mem_cons, List.not_mem_nil, or_false] at hc
  rcases hc with rfl | rfl | rfl | rfl <;> exact skipSpace_cons rfl cs

namespace Layout

theorem allSpace_newline (layout : Layout) (depth : Nat) : AllSpace (layout.newline depth) := by
  cases layout with
  | oneLine =>
    intro c hc
    cases hc
  | indented width =>
    intro c hc
    rcases List.mem_cons.1 hc with rfl | hc
    · rfl
    · rw [(List.mem_replicate.1 hc).2]
      rfl

theorem separator_eq (layout : Layout) (depth : Nat) :
    ∃ space, layout.separator depth = ',' :: space ∧ AllSpace space := by
  cases layout with
  | oneLine =>
    refine ⟨[' '], rfl, ?_⟩
    intro c hc
    rw [List.mem_singleton.1 hc]
    rfl
  | indented width => exact ⟨_, rfl, allSpace_newline (.indented width) depth⟩

end Layout

theorem intercalate_cons_eq {α : Type} (sep a : List α) (as : List (List α)) :
    sep.intercalate (a :: as) = a ++ as.flatMap fun b => sep ++ b := by
  induction as generalizing a with
  | nil => rw [List.intercalate_singleton, List.flatMap_nil, List.append_nil]
  | cons b as ih =>
    rw [List.intercalate_cons_cons, ih, List.flatMap_cons, List.append_assoc, List.append_assoc]

/-! ## Written texts -/

def writeChars (layout : Layout) (depth : Nat) (v : Value) : List Char :=
  Text.chars (writeAt layout depth v)

def fieldText (write : Value → List Char) (f : Text × Value) : List Char :=
  quoteChars f.1.chars ++ ':' :: ' ' :: write f.2

theorem writeElements_eq (layout : Layout) (depth : Nat) (vs : List Value) :
    writeElements layout depth vs = vs.map (writeAt layout depth) := by
  induction vs with
  | nil => rfl
  | cons v vs ih => rw [writeElements, ih, List.map_cons]

theorem writeFields_eq (layout : Layout) (depth : Nat) (fields : List (Text × Value)) :
    writeFields layout depth fields =
      fields.map fun f => quote f.1 ++ Text.ofString ": " ++ writeAt layout depth f.2 := by
  induction fields with
  | nil => rfl
  | cons f fields ih =>
    rw [writeFields, ih, List.map_cons]

theorem chars_bracketed_cons (layout : Layout) (depth : Nat) (opening closing : Char)
    (item : Text) (items : List Text) :
    ∃ space, AllSpace space ∧
      Text.chars (bracketed layout depth opening closing (item :: items)) =
        opening :: (layout.newline depth ++ (item.chars ++
          ((items.flatMap fun i => ',' :: space ++ i.chars) ++
            (layout.newline (depth - 1) ++ [closing])))) := by
  obtain ⟨space, hsep, hspace⟩ := layout.separator_eq depth
  refine ⟨space, hspace, ?_⟩
  simp only [bracketed, Text.chars_append, Text.chars_cons, Text.chars_ofChars,
    Text.chars_intercalate, List.map_cons, hsep]
  simp [intercalate_cons_eq, List.flatMap_map, CodePoint.standIn]

theorem chars_field (layout : Layout) (depth : Nat) (f : Text × Value) :
    Text.chars (quote f.1 ++ Text.ofString ": " ++ writeAt layout depth f.2) =
      fieldText (writeChars layout depth) f := by
  rw [Text.chars_append, Text.chars_append, chars_quote, Text.chars_ofString, List.append_assoc]
  rfl

/-! ### Halves of pairs -/

theorem isWhole_bracketed_iff (layout : Layout) (depth : Nat) (opening closing : Char)
    (items : List Text) :
    Text.IsWhole (bracketed layout depth opening closing items) ↔
      ∀ item ∈ items, Text.IsWhole item := by
  cases items with
  | nil => exact iff_of_true (Text.isWhole_ofChars [opening, closing]) (by simp)
  | cons item items =>
    simp only [bracketed, Text.isWhole_append_iff, Text.isWhole_cons_iff, Text.isWhole_ofChars,
      Text.isWhole_intercalate_iff (Text.isWhole_ofChars _), CodePoint.isChar, Text.isWhole_nil,
      true_and, and_true]

theorem isWhole_text_iff {layout : Layout} {depth : Nat} {t : Text} :
    Text.IsWhole (writeAt layout depth (.text t)) ↔ t.IsWhole := by
  rw [writeAt, isWhole_quote_iff]

theorem isWhole_list_iff {layout : Layout} {depth : Nat} {vs : List Value} :
    Text.IsWhole (writeAt layout depth (.list vs)) ↔
      ∀ v ∈ vs, Text.IsWhole (writeAt layout (depth + 1) v) := by
  rw [writeAt, writeElements_eq, isWhole_bracketed_iff, List.forall_mem_map]

theorem isWhole_object_iff {layout : Layout} {depth : Nat} {fields : List (Text × Value)} :
    Text.IsWhole (writeAt layout depth (.object fields)) ↔
      ∀ f ∈ fields, f.1.IsWhole ∧ Text.IsWhole (writeAt layout (depth + 1) f.2) := by
  rw [writeAt, writeFields_eq, isWhole_bracketed_iff, List.forall_mem_map]
  simp only [Text.isWhole_append_iff, isWhole_quote_iff, Text.isWhole_ofString, and_true]

/-! ## Strings -/

theorem readString_quoteChars (cs rest : List Char) (opened : Nat) :
    readString opened ((cs.flatMap escapeChar ++ '"' :: rest).length + 1)
      (cs.flatMap escapeChar ++ '"' :: rest) = .ok (Text.ofChars cs, rest) := by
  apply readString_escaped
  have hlength := length_le_escaped cs
  rw [List.length_append]
  omega

theorem readQuoted_quoteChars {t : Text} (ht : t.IsWhole) (rest : List Char) (calls : Nat) :
    readQuoted calls (t.chars.flatMap escapeChar ++ '"' :: rest) = .ok (t, rest) := by
  rw [readQuoted, readString_quoteChars, Text.ofChars_chars ht]
  rfl

theorem quoteChars_append (cs rest : List Char) :
    quoteChars cs ++ rest = '"' :: (cs.flatMap escapeChar ++ '"' :: rest) := by
  simp [quoteChars]

theorem readsAs_text {t : Text} (ht : t.IsWhole) (calls : Nat) :
    ReadsAs calls (quoteChars t.chars) (.text t) := by
  intro room fuel rest _ hfuel
  obtain ⟨fuel, rfl⟩ : ∃ n, fuel = n + 1 := by
    refine ⟨fuel - 1, ?_⟩
    simp only [quoteChars, List.length_append, List.length_cons] at hfuel
    omega
  rw [quoteChars_append, readValue]
  simp only [readQuoted_quoteChars ht]

theorem readsAs_null (calls : Nat) : ReadsAs calls "null".toList .null := by
  intro room fuel rest _ hfuel
  obtain ⟨fuel, rfl⟩ : ∃ n, fuel = n + 1 := ⟨fuel - 1, by
    have hlength : "null".toList.length = 4 := rfl
    omega⟩
  rfl

/-! ## Items -/

theorem readElements_last {calls fuel : Nat} {cs rest : List Char} {v : Value}
    (hread : readValue calls fuel cs = .ok (v, rest)) {after : List Char}
    (hrest : skipSpace rest = ']' :: after) :
    readElements calls (fuel + 1) cs = .ok ([v], after) := by
  rw [readElements, hread]
  simp only [hrest]

theorem readElements_more {calls fuel : Nat} {cs rest more after : List Char} {v : Value}
    {vs : List Value} (hread : readValue calls fuel cs = .ok (v, rest))
    (hrest : skipSpace rest = ',' :: more)
    (hmore : readElements calls fuel (skipSpace more) = .ok (vs, after)) :
    readElements calls (fuel + 1) cs = .ok (v :: vs, after) := by
  rw [readElements, hread]
  simp only [hrest, hmore]

/-- Elements with a comma and spaces between them. -/
theorem readElements_written {calls room : Nat} (hroom : calls ≤ room)
    {write : Value → List Char} {space closing : List Char}
    (hspace : AllSpace space) (hclosing : AllSpace closing) (rest : List Char) {v : Value}
    {vs : List Value} (h : ∀ u ∈ v :: vs, ReadsAs calls (write u) u ∧ Opens (write u)) :
    ∀ {fuel : Nat}, 2 * (write v ++ vs.flatMap fun u => ',' :: space ++ write u).length < fuel →
      readElements room fuel (write v ++ ((vs.flatMap fun u => ',' :: space ++ write u) ++
        (closing ++ ']' :: rest))) = .ok (v :: vs, rest) := by
  induction vs generalizing v with
  | nil =>
    intro fuel hfuel
    obtain ⟨fuel, rfl⟩ : ∃ n, fuel = n + 1 := ⟨fuel - 1, by omega⟩
    rw [List.flatMap_nil, List.append_nil] at hfuel
    have hread := (h v List.mem_cons_self).1 (closing ++ ']' :: rest) hroom
      (Nat.le_of_lt_succ hfuel)
    have hend : skipSpace (closing ++ ']' :: rest) = ']' :: rest := by
      rw [skipSpace_append hclosing, skipSpace_cons rfl]
    exact readElements_last hread hend
  | cons next vs ih =>
    intro fuel hfuel
    obtain ⟨fuel, rfl⟩ : ∃ n, fuel = n + 1 := ⟨fuel - 1, by omega⟩
    have hopens := (h next (List.mem_cons_of_mem v List.mem_cons_self)).2
    simp only [List.flatMap_cons, List.length_append, List.length_cons] at hfuel
    have hmore : readElements room fuel (write next ++
        ((vs.flatMap fun u => ',' :: space ++ write u) ++ (closing ++ ']' :: rest))) =
          .ok (next :: vs, rest) := by
      refine ih (fun u hu => h u (List.mem_cons_of_mem v hu)) ?_
      rw [List.length_append]
      omega
    rw [← (hopens.append _).skipSpace_eq] at hmore
    rw [← skipSpace_append hspace] at hmore
    have hread := (h v List.mem_cons_self).1 (',' :: (space ++ (write next ++
      ((vs.flatMap fun u => ',' :: space ++ write u) ++ (closing ++ ']' :: rest))))) hroom
      (show 2 * (write v).length ≤ fuel by omega)
    have hcomma := readElements_more hread (skipSpace_cons rfl _) hmore
    simpa using hcomma

theorem setField_of_notMem {fields : List (Text × Value)} {name : Text}
    (h : name ∉ fields.map fun f => f.1) (v : Value) :
    setField fields name v = fields ++ [(name, v)] := by
  have hany : fields.any (fun f => f.1 == name) = false := by
    rw [List.any_eq_false]
    intro f hf hname
    exact h (beq_iff_eq.1 hname ▸ List.mem_map_of_mem hf)
  unfold setField
  rw [if_neg (by simp [hany])]

section

variable {write : Value → List Char} {calls room fuel : Nat} {done : List (Text × Value)}
  {f : Text × Value} {rest after : List Char}

theorem opens_fieldText : Opens (fieldText write f) := ⟨'"', _, rfl, by decide⟩

theorem fieldText_append (f : Text × Value) (rest : List Char) :
    fieldText write f ++ rest =
      '"' :: (f.1.chars.flatMap escapeChar ++ '"' :: ':' :: ' ' :: (write f.2 ++ rest)) := by
  simp [fieldText, quoteChars]

theorem length_le_fieldText (f : Text × Value) :
    (write f.2).length ≤ (fieldText write f).length := by
  simp only [fieldText, List.length_append, List.length_cons]
  omega

/-- A field whose name is whole and whose value is read as it is written. -/
structure FieldReads (calls : Nat) (write : Value → List Char) (f : Text × Value) : Prop where
  name : f.1.IsWhole
  value : ReadsAs calls (write f.2) f.2
  opens : Opens (write f.2)

theorem readFields_last (h : FieldReads calls write f) (hroom : calls ≤ room)
    (hfuel : 2 * (write f.2).length ≤ fuel) (hnew : f.1 ∉ done.map fun d => d.1)
    (hrest : skipSpace rest = '\x7d' :: after) :
    readFields room (fuel + 1) done (fieldText write f ++ rest) = .ok (done ++ [f], after) := by
  rw [fieldText_append, readFields]
  simp only [readQuoted_quoteChars h.name, skipSpace_colon, skipSpace_space,
    (h.opens.append rest).skipSpace_eq, h.value rest hroom hfuel, setField_of_notMem hnew, hrest]

theorem readFields_more {fields : List (Text × Value)} {more : List Char}
    (h : FieldReads calls write f) (hroom : calls ≤ room)
    (hfuel : 2 * (write f.2).length ≤ fuel) (hnew : f.1 ∉ done.map fun d => d.1)
    (hrest : skipSpace rest = ',' :: more)
    (hmore : readFields room fuel (done ++ [f]) (skipSpace more) = .ok (fields, after)) :
    readFields room (fuel + 1) done (fieldText write f ++ rest) = .ok (fields, after) := by
  rw [fieldText_append, readFields]
  simp only [readQuoted_quoteChars h.name, skipSpace_colon, skipSpace_space,
    (h.opens.append rest).skipSpace_eq, h.value rest hroom hfuel, setField_of_notMem hnew, hrest,
    hmore]

end

theorem notMem_of_nodup_append {α : Type} {as bs : List α} {b : α}
    (h : (as ++ b :: bs).Nodup) : b ∉ as := by
  intro hmem
  exact (List.nodup_append.1 h).2.2 b hmem b List.mem_cons_self rfl

theorem readFields_written {calls room : Nat} (hroom : calls ≤ room)
    {write : Value → List Char} {space closing : List Char}
    (hspace : AllSpace space) (hclosing : AllSpace closing) (rest : List Char)
    {f : Text × Value} {fs done : List (Text × Value)}
    (h : ∀ i ∈ f :: fs, FieldReads calls write i)
    (hdistinct : (done.map (fun d => d.1) ++ (f :: fs).map fun i => i.1).Nodup) :
    ∀ {fuel : Nat},
      2 * (fieldText write f ++ fs.flatMap fun i => ',' :: space ++ fieldText write i).length <
        fuel →
      readFields room fuel done (fieldText write f ++
        ((fs.flatMap fun i => ',' :: space ++ fieldText write i) ++ (closing ++ '\x7d' :: rest))) =
          .ok (done ++ f :: fs, rest) := by
  induction fs generalizing f done with
  | nil =>
    intro fuel hfuel
    obtain ⟨fuel, rfl⟩ : ∃ n, fuel = n + 1 := ⟨fuel - 1, by omega⟩
    have hf : (write f.2).length ≤ (fieldText write f).length := length_le_fieldText f
    have hend : skipSpace (closing ++ '\x7d' :: rest) = '\x7d' :: rest := by
      rw [skipSpace_append hclosing, skipSpace_cons rfl]
    rw [List.flatMap_nil, List.append_nil] at hfuel
    exact readFields_last (h f List.mem_cons_self) hroom (by omega)
      (notMem_of_nodup_append hdistinct) hend
  | cons next fs ih =>
    intro fuel hfuel
    obtain ⟨fuel, rfl⟩ : ∃ n, fuel = n + 1 := ⟨fuel - 1, by omega⟩
    have hf : (write f.2).length ≤ (fieldText write f).length := length_le_fieldText f
    simp only [List.flatMap_cons, List.length_append, List.length_cons] at hfuel
    have hmore : readFields room fuel (done ++ [f]) (fieldText write next ++
        ((fs.flatMap fun i => ',' :: space ++ fieldText write i) ++ (closing ++ '\x7d' :: rest))) =
        .ok (done ++ [f] ++ next :: fs, rest) := by
      refine ih (fun i hi => h i (List.mem_cons_of_mem f hi)) ?_ ?_
      · simpa using hdistinct
      · rw [List.length_append]
        omega
    have hopens' : Opens (fieldText write next) := opens_fieldText
    rw [← (hopens'.append _).skipSpace_eq] at hmore
    rw [← skipSpace_append hspace] at hmore
    have hcomma := readFields_more (h f List.mem_cons_self) hroom (by omega)
      (notMem_of_nodup_append hdistinct) (skipSpace_cons rfl _) hmore
    simpa using hcomma

/-! ## Values -/

theorem readValue_list {room fuel : Nat} {space body after : List Char} {vs : List Value}
    (hspace : AllSpace space) (hopens : Opens body)
    (hread : readElements room fuel body = .ok (vs, after)) :
    readValue (room + 1) (fuel + 1) ('[' :: (space ++ body)) = .ok (.list vs, after) := by
  have hskip : skipSpace (space ++ body) = body := by
    rw [skipSpace_append hspace, hopens.skipSpace_eq]
  obtain ⟨c, body, rfl, hc⟩ := hopens
  have hclose : c ≠ ']' := by
    rintro rfl
    revert hc
    decide
  rw [readValue]
  simp only [hskip, Nat.add_one_ne_zero, if_false, Nat.add_sub_cancel]
  split
  · rename_i h
    exact absurd (List.cons.inj h).1 hclose
  · simp only [hread]

theorem readValue_object {room fuel : Nat} {space body after : List Char}
    {fields : List (Text × Value)} (hspace : AllSpace space)
    (hread : readFields room fuel [] ('"' :: body) = .ok (fields, after)) :
    readValue (room + 1) (fuel + 1) ('\x7b' :: (space ++ '"' :: body)) =
      .ok (.object fields, after) := by
  have hskip : skipSpace (space ++ '"' :: body) = '"' :: body := by
    rw [skipSpace_append hspace, skipSpace_cons rfl]
  rw [readValue]
  simp only [hskip, Nat.add_one_ne_zero, if_false, Nat.add_sub_cancel]
  split
  · rename_i h
    exact absurd (List.cons.inj h).1 (by decide)
  · simp only [hread]

theorem readsAs_list (layout : Layout) (depth : Nat) {calls : Nat} {vs : List Value}
    (h : ∀ v ∈ vs, ReadsAs calls (writeChars layout (depth + 1) v) v ∧
      Opens (writeChars layout (depth + 1) v)) :
    ReadsAs (calls + 1) (writeChars layout depth (.list vs)) (.list vs) := by
  intro room fuel rest hroom hfuel
  obtain ⟨room, rfl⟩ : ∃ n, room = n + 1 := ⟨room - 1, by omega⟩
  rw [writeChars, writeAt, writeElements_eq] at hfuel ⊢
  cases vs with
  | nil =>
    obtain ⟨fuel, rfl⟩ : ∃ n, fuel = n + 1 := ⟨fuel - 1, by simp [bracketed] at hfuel; omega⟩
    rfl
  | cons v vs =>
    obtain ⟨space, hspace, htext⟩ := chars_bracketed_cons layout (depth + 1) '[' ']'
      (writeAt layout (depth + 1) v) (vs.map (writeAt layout (depth + 1)))
    rw [List.map_cons, htext, List.flatMap_map] at hfuel ⊢
    simp only [List.length_cons, List.length_append] at hfuel
    obtain ⟨fuel, rfl⟩ : ∃ n, fuel = n + 1 := ⟨fuel - 1, by omega⟩
    have hitems : readElements room fuel (writeChars layout (depth + 1) v ++
        ((vs.flatMap fun u => ',' :: space ++ writeChars layout (depth + 1) u) ++
          (layout.newline depth ++ ']' :: rest))) = .ok (v :: vs, rest) := by
      refine readElements_written (Nat.le_of_succ_le_succ hroom) hspace
        (layout.allSpace_newline depth) rest h ?_
      simp only [List.length_append, writeChars]
      omega
    have hlist := readValue_list (layout.allSpace_newline (depth + 1))
      ((h v List.mem_cons_self).2.append _) hitems
    simpa [writeChars] using hlist

theorem readsAs_object (layout : Layout) (depth : Nat) {calls : Nat}
    {fields : List (Text × Value)} (hdistinct : (fields.map fun f => f.1).Nodup)
    (h : ∀ f ∈ fields, FieldReads calls (writeChars layout (depth + 1)) f) :
    ReadsAs (calls + 1) (writeChars layout depth (.object fields)) (.object fields) := by
  intro room fuel rest hroom hfuel
  obtain ⟨room, rfl⟩ : ∃ n, room = n + 1 := ⟨room - 1, by omega⟩
  rw [writeChars, writeAt, writeFields_eq] at hfuel ⊢
  cases fields with
  | nil =>
    obtain ⟨fuel, rfl⟩ : ∃ n, fuel = n + 1 := ⟨fuel - 1, by simp [bracketed] at hfuel; omega⟩
    rfl
  | cons f fields =>
    obtain ⟨space, hspace, htext⟩ := chars_bracketed_cons layout (depth + 1) '\x7b' '\x7d'
      (quote f.1 ++ Text.ofString ": " ++ writeAt layout (depth + 1) f.2)
      (fields.map fun f => quote f.1 ++ Text.ofString ": " ++ writeAt layout (depth + 1) f.2)
    rw [List.map_cons, htext, List.flatMap_map] at hfuel ⊢
    simp only [chars_field] at hfuel ⊢
    simp only [List.length_cons, List.length_append] at hfuel
    obtain ⟨fuel, rfl⟩ : ∃ n, fuel = n + 1 := ⟨fuel - 1, by omega⟩
    have hitems : readFields room fuel [] (fieldText (writeChars layout (depth + 1)) f ++
        ((fields.flatMap fun i => ',' :: space ++ fieldText (writeChars layout (depth + 1)) i) ++
          (layout.newline depth ++ '\x7d' :: rest))) = .ok (f :: fields, rest) := by
      have hnone : (([] : List (Text × Value)).map (fun d => d.1) ++
          (f :: fields).map fun i => i.1).Nodup := hdistinct
      refine readFields_written (Nat.le_of_succ_le_succ hroom) hspace
        (layout.allSpace_newline depth) rest h hnone ?_
      rw [List.length_append]
      omega
    rw [fieldText_append] at hitems
    have hobject := readValue_object (layout.allSpace_newline (depth + 1)) hitems
    rw [← fieldText_append] at hobject
    simpa using hobject

theorem opens_bracketed (layout : Layout) (depth : Nat) {opening closing : Char}
    (hopening : opening ∈ ['n', '"', '[', '\x7b']) (items : List Text) :
    Opens (Text.chars (bracketed layout depth opening closing items)) := by
  cases items with
  | nil => exact ⟨opening, [closing], rfl, hopening⟩
  | cons item items => exact ⟨opening, _, rfl, hopening⟩

theorem opens_writeChars (layout : Layout) (depth : Nat) {calls : Nat} {v : Value}
    (h : Storable calls v) : Opens (writeChars layout depth v) := by
  cases h with
  | null => exact ⟨'n', _, rfl, by decide⟩
  | text t => exact ⟨'"', _, rfl, by decide⟩
  | list _ => exact opens_bracketed layout (depth + 1) (by decide) _
  | object _ _ => exact opens_bracketed layout (depth + 1) (by decide) _

theorem readsAs_writeChars (layout : Layout) {calls : Nat} {v : Value} (h : Storable calls v)
    (depth : Nat) (hwhole : Text.IsWhole (writeAt layout depth v)) :
    ReadsAs calls (writeChars layout depth v) v := by
  induction h generalizing depth with
  | @null calls => exact readsAs_null calls
  | @text calls t =>
    rw [writeChars, writeAt, chars_quote]
    exact readsAs_text (isWhole_quote_iff.1 hwhole) calls
  | list hvs ih =>
    have hwholes := isWhole_list_iff.1 hwhole
    exact readsAs_list layout depth fun v hv =>
      ⟨ih v hv (depth + 1) (hwholes v hv), opens_writeChars layout (depth + 1) (hvs v hv)⟩
  | object hdistinct hfields ih =>
    have hwholes := isWhole_object_iff.1 hwhole
    exact readsAs_object layout depth hdistinct fun f hf =>
      { name := (hwholes f hf).1
        value := ih f hf (depth + 1) (hwholes f hf).2
        opens := opens_writeChars layout (depth + 1) (hfields f hf) }

section

variable [Host]

theorem readChars_of_readsAs {calls : Nat} {cs space : List Char} {v : Value}
    (hread : ReadsAs calls cs v) (hcalls : calls ≤ Host.readingCalls) (hopens : Opens cs)
    (hspace : AllSpace space) : readChars (cs ++ space) = .ok v := by
  have hvalue : readValue Host.readingCalls (2 * (cs ++ space).length + 2) (cs ++ space) =
      .ok (v, space) := by
    refine hread space hcalls ?_
    rw [List.length_append]
    omega
  have hend : skipSpace space = [] := by
    have hnil := skipSpace_append hspace []
    rwa [List.append_nil] at hnil
  have hskip := (hopens.append space).skipSpace_eq
  obtain ⟨c, rest, rfl, hc⟩ := hopens
  unfold readChars
  split
  · rename_i heq
    rw [(List.cons.inj heq).1] at hc
    exact absurd hc (by decide)
  · rw [hskip, hvalue]
    simp only [hend]

/-- A storable value that is written in any layout is read back, also with space after it. -/
theorem read_of_write (layout : Layout) {calls : Nat} {v : Value} (h : Storable calls v)
    (hcalls : calls ≤ Host.readingCalls) {s space : String}
    (hs : write layout v = Text.ofString s) (hspace : AllSpace space.toList) :
    read (s ++ space) = .ok v := by
  have hwhole : Text.IsWhole (writeAt layout 0 v) := by
    rw [← write, hs]
    exact Text.isWhole_ofString s
  have hchars : writeChars layout 0 v = s.toList := by
    rw [writeChars, ← write, hs, Text.chars_ofString]
  have hread := readChars_of_readsAs (readsAs_writeChars layout h 0 hwhole) hcalls
    (opens_writeChars layout 0 h) hspace
  unfold read
  rw [String.toList_append, ← hchars, hread]

end

/-! ## Line ends -/

theorem return_notMem_newline (layout : Layout) (depth : Nat) : '\r' ∉ layout.newline depth := by
  cases layout with
  | oneLine => simp [Layout.newline]
  | indented width =>
    intro hr
    rcases List.mem_cons.1 hr with hr | hr
    · cases hr
    · cases (List.mem_replicate.1 hr).2

theorem return_notMem_separator (layout : Layout) (depth : Nat) :
    '\r' ∉ layout.separator depth := by
  have hnewline := return_notMem_newline layout depth
  cases layout <;> simp [Layout.separator, hnewline]

theorem return_notMem_bracketed (layout : Layout) (depth : Nat) {opening closing : Char}
    (hopening : opening ≠ '\r') (hclosing : closing ≠ '\r') {items : List Text}
    (h : ∀ item ∈ items, '\r' ∉ item.chars) :
    '\r' ∉ Text.chars (bracketed layout depth opening closing items) := by
  have hitems := (Text.notMem_intercalate_iff (return_notMem_separator layout depth)).2
    (List.forall_mem_map.2 h)
  cases items with
  | nil => simp [bracketed, CodePoint.standIn, hopening.symm, hclosing.symm]
  | cons item items =>
    rw [List.map_cons] at hitems
    simp [bracketed, Text.chars_intercalate, CodePoint.standIn, hopening.symm, hclosing.symm,
      return_notMem_newline, hitems]

/-- Text in any layout has no line end but line feeds. -/
theorem return_notMem_writeChars (layout : Layout) {calls : Nat} {v : Value}
    (h : Storable calls v) (depth : Nat) : '\r' ∉ writeChars layout depth v := by
  induction h generalizing depth with
  | null =>
    rw [writeChars, writeAt]
    decide
  | text t =>
    rw [writeChars, writeAt, chars_quote]
    exact return_notMem_quoteChars t.chars
  | list _ ih =>
    rw [writeChars, writeAt, writeElements_eq]
    refine return_notMem_bracketed layout (depth + 1) (by decide) (by decide) fun item hitem => ?_
    obtain ⟨v, hv, rfl⟩ := List.mem_map.1 hitem
    exact ih v hv (depth + 1)
  | object _ _ ih =>
    rw [writeChars, writeAt, writeFields_eq]
    refine return_notMem_bracketed layout (depth + 1) (by decide) (by decide) fun item hitem => ?_
    obtain ⟨f, hf, rfl⟩ := List.mem_map.1 hitem
    have hname := return_notMem_quoteChars f.1.chars
    have hvalue := ih f hf (depth + 1)
    rw [chars_field]
    simp [fieldText, hname, hvalue]

end PhraseGrammar.Json
