import Mathlib.Data.List.Induction
import PhraseGrammar.Proofs.Merging

/-!
# PhraseGrammar.Proofs.Acceptance

Which documents are grammars, and what the grammar of a document holds.

* `Value.IsBlank`: the values that count as not given.
* `WellShaped`: the fields of a document that is a grammar, by which values may stand for texts.
  `Headed` is the part of it that is looked at before the rules, `IsRule` is about one rule.
* `Stored`: a grammar is what the fields of a document store.
* `readEach_eq_ok_iff`: reading a list succeeds if reading each element does.
* `Record.ofDocument_eq_ok_iff`: the documents that store a record, and the record.

A text or an object in place of the rules, or of the bodies of a rule, can be gone through, but what
it yields are texts, and those are neither rules nor lists. So only an empty one is read, and that
counts as not given. `stored_iff` puts the acceptance and the contents together: the values that
stand for texts are those that have one. Not all do (`not_stored_of_shape`).
-/

namespace PhraseGrammar

/-! ## Shapes -/

namespace Value

/-- The values that count as not given. -/
inductive IsBlank : Value → Prop where
  | null : IsBlank .null
  | no : IsBlank (.bool false)
  | zero : IsBlank (.int 0)
  | floatZero {x : Number.Binary64} : x.isZero = true → IsBlank (.float x)
  | emptyText : IsBlank (.text "")
  | emptyList : IsBlank (.list [])
  | emptyObject : IsBlank (.object [])

theorem isBlank_iff {v : Value} : v.IsBlank ↔ v.isTruthy = false := by
  constructor
  · intro h
    cases h with
    | floatZero hx => simp [isTruthy, hx]
    | _ => rfl
  · intro h
    cases v with
    | null => exact .null
    | bool b => cases h; exact .no
    | int n =>
      have hn : n = 0 := by simpa [isTruthy] using h
      exact hn ▸ .zero
    | float x => exact .floatZero (by simpa [isTruthy] using h)
    | text s =>
      have hs : s = [] := by simpa [isTruthy] using h
      exact hs ▸ .emptyText
    | list vs =>
      have hvs : vs = [] := by simpa [isTruthy] using h
      exact hvs ▸ .emptyList
    | object fields =>
      have hfields : fields = [] := by simpa [isTruthy] using h
      exact hfields ▸ .emptyObject
    | symbol s => cases h

def ListOf (p : Value → Prop) (v : Value) : Prop := ∃ vs, v = .list vs ∧ ∀ x ∈ vs, p x

/-- The value counts as not given, or is a list of what is asked for. -/
def MayList (p : Value → Prop) (v : Value) : Prop := v.IsBlank ∨ v.ListOf p

def HasField (fields : List (Text × Value)) (name : String) (p : Value → Prop) : Prop :=
  ∃ v, lookup fields name = some v ∧ p v

def FieldIs (fields : List (Text × Value)) (name : String) (p : Value → Prop) : Prop :=
  ∀ v, lookup fields name = some v → p v

def field (fields : List (Text × Value)) (name : String) : Value :=
  (lookup fields name).getD .null

def listed : Value → List Value
  | .list vs => vs
  | _ => []

theorem listed_of_isBlank {v : Value} (h : v.IsBlank) : v.listed = [] := by
  cases h <;> rfl

theorem listed_field_of_blank {fields : List (Text × Value)} {name : String}
    (h : FieldIs fields name IsBlank) : (field fields name).listed = [] := by
  unfold field
  cases hlookup : lookup fields name with
  | none => rfl
  | some v => exact listed_of_isBlank (h v hlookup)

/-- What is no list and counts as given yields texts, at least one. -/
theorem list_or_text_mem {v : Value} {vs : List Value} (h : v.elements? = some vs)
    (hgiven : ¬v.IsBlank) : v = .list vs ∨ ∃ s, .text s ∈ vs := by
  cases v with
  | list vs' =>
    cases h
    exact .inl rfl
  | text s =>
    cases h
    have hs : s ≠ [] := by
      rintro rfl
      exact hgiven .emptyText
    obtain ⟨c, hc⟩ := List.exists_mem_of_ne_nil _ hs
    exact .inr ⟨_, List.mem_map_of_mem hc⟩
  | object fields =>
    cases h
    cases fields with
    | nil => exact absurd .emptyObject hgiven
    | cons f fields => exact .inr ⟨f.1, List.mem_cons_self⟩
  | null | bool | int | float | symbol => cases h

/-- The value is an object with a list for a head, and with a list of lists for bodies, if it has
bodies at all. The elements of the lists stand for texts. -/
def IsRule (stands : Value → Prop) (v : Value) : Prop :=
  ∃ rule, v = .object rule ∧ HasField rule "head" (ListOf stands) ∧
    FieldIs rule "bodies" (MayList (ListOf stands))

theorem not_listOf_text {p : Value → Prop} (t : Text) : ¬ListOf p (.text t) := by
  rintro ⟨vs, h, -⟩
  cases h

theorem not_isRule_text {stands : Value → Prop} (t : Text) : ¬IsRule stands (.text t) := by
  rintro ⟨rule, h, -⟩
  cases h

end Value

open Value

section

variable (stands : Value → Prop) (fields : List (Text × Value))

/-- There is an id and a start symbol, and the alphabets are lists, if there are any. The id, the
start symbol, the name and the elements of the lists stand for texts. -/
structure Headed : Prop where
  id : HasField fields "id" stands
  start : HasField fields "startSymbol" stands
  name : FieldIs fields "name" stands
  nonterminals : FieldIs fields "nonTerminals" (ListOf stands)
  terminals : FieldIs fields "terminals" (ListOf stands)

/-- The fields of a document that is a grammar, where `stands` holds of the values that may stand
for texts. -/
structure WellShaped : Prop extends Headed stands fields where
  rules : FieldIs fields "rules" (MayList (IsRule stands))
  type : FieldIs fields "type" fun v => v = .null ∨ ∃ t : GrammarType, v = .text t.name

end

/-- Rules with every head in normal form and once, where it first occurs, and with it every body
that some rule gives it, likewise. -/
def mergedRules (ps : List (Word × List Word)) : List (Word × List Word) :=
  (ps.map fun p => Word.normalize p.1).eraseDups.map fun h =>
    (h, (Relation.bodiesIn ps h).eraseDups)

theorem OrderedSet.toList_ofList {α : Type} [DecidableEq α] [BEq α] [LawfulBEq α] (as : List α) :
    (ofList as).toList = as.eraseDups := by
  induction as using List.reverseRecOn with
  | nil => rfl
  | append_singleton as a ih =>
    have hstep : ofList (as ++ [a]) = (ofList as).insert a := insertAll_append empty as [a]
    rw [hstep, toList_insert, ih, List.eraseDups_append]
    by_cases ha : a ∈ as
    · simp [List.removeAll, ha]
    · simp [List.removeAll, ha]
      rfl

theorem Relation.items_ofPairs (ps : List (Word × List Word)) :
    (ofPairs ps).items = mergedRules ps := by
  have hkeys : (ofPairs ps).rules.keys = (ps.map fun p => Word.normalize p.1).eraseDups := by
    have hset := congrArg OrderedSet.toList (keys_addRules empty ps)
    rw [← OrderedSet.toList_ofList]
    exact hset
  have hbodies : ∀ h, (((ofPairs ps).rules.get? h).getD .empty).toList =
      (bodiesIn ps h).eraseDups := by
    intro h
    have hset := congrArg OrderedSet.toList (bodies_addRules empty ps h)
    rw [← OrderedSet.toList_ofList]
    exact hset
  rw [items, OrderedMap.entries_eq (wellFormed_ofPairs ps).nodup .empty, List.map_map, mergedRules,
    ← hkeys]
  exact List.map_congr_left fun h _ => congrArg (Prod.mk h) (hbodies h)

theorem Relation.eq_of_items {r t : Relation} (h : r.items = t.items) : r = t := by
  obtain ⟨⟨es⟩⟩ := r
  obtain ⟨⟨es'⟩⟩ := t
  have hentries : es = es' := by
    refine (List.map_inj_right ?_).1 h
    rintro ⟨k, ⟨s⟩⟩ ⟨k', ⟨s'⟩⟩ heq
    cases heq
    rfl
  rw [hentries]

/-! ## Lists -/

def readEach {ε β : Type} (read : Nat → Value → Except ε β) (index : Nat) :
    List Value → Except ε (List β)
  | [] => .ok []
  | v :: vs => do
    let b ← read index v
    let bs ← readEach read (index + 1) vs
    return b :: bs

/-- Reading succeeds on the values of a shape, and what is read depends on nothing but the value. -/
def ReadsOn {ε β : Type} (read : Nat → Value → Except ε β) (p : Value → Prop) (f : Value → β) :
    Prop :=
  ∀ i v b, read i v = .ok b ↔ p v ∧ b = f v

section

variable {ε β : Type} {read : Nat → Value → Except ε β} {p : Value → Prop} {f : Value → β}

theorem readEach_eq_ok_iff (hread : ReadsOn read p f) {index : Nat} {vs : List Value}
    {bs : List β} : readEach read index vs = .ok bs ↔ (∀ v ∈ vs, p v) ∧ bs = vs.map f := by
  induction vs generalizing index bs with
  | nil => simp [readEach, eq_comm]
  | cons v vs ih =>
    simp only [readEach, bind_eq_ok_iff, hread index v, ih, List.forall_mem_cons, List.map_cons]
    constructor
    · rintro ⟨b, ⟨hv, rfl⟩, bs', ⟨hvs, rfl⟩, hbs⟩
      cases hbs
      exact ⟨⟨hv, hvs⟩, rfl⟩
    · rintro ⟨⟨hv, hvs⟩, rfl⟩
      exact ⟨_, ⟨hv, rfl⟩, _, ⟨hvs, rfl⟩, rfl⟩

end

namespace Record

theorem readElements_eq_ok_iff {fields : List (Text × Value)} {name : String}
    {vs : List Value} :
    readElements fields name = .ok vs ↔ FieldIs fields name IsBlank ∧ vs = [] ∨
      ∃ v, lookup fields name = some v ∧ ¬v.IsBlank ∧ v.elements? = some vs := by
  unfold readElements FieldIs
  cases lookup fields name with
  | none => simp [eq_comm]
  | some v =>
    by_cases hblank : v.IsBlank
    · simp [isBlank_iff.1 hblank, hblank, eq_comm]
    · have hgiven : v.isTruthy = true := by simpa [isBlank_iff] using hblank
      cases helements : v.elements? <;> simp [hgiven, hblank, helements]

/-- A field that may list something yields what it lists. -/
theorem readElements_of_mayList {p : Value → Prop} {fields : List (Text × Value)} {name : String}
    (h : FieldIs fields name (MayList p)) :
    readElements fields name = .ok (field fields name).listed ∧
      ∀ v ∈ (field fields name).listed, p v := by
  by_cases hblank : FieldIs fields name IsBlank
  · rw [listed_field_of_blank hblank]
    exact ⟨readElements_eq_ok_iff.2 (.inl ⟨hblank, rfl⟩), List.forall_mem_nil p⟩
  · obtain ⟨v, hv, hgiven⟩ : ∃ v, lookup fields name = some v ∧ ¬v.IsBlank := by
      simpa [FieldIs] using hblank
    have hfield : field fields name = v := by rw [field, hv, Option.getD_some]
    rcases h v hv with hv' | ⟨vs, rfl, hall⟩
    · exact absurd hv' hgiven
    · rw [hfield]
      exact ⟨readElements_eq_ok_iff.2 (.inr ⟨_, hv, hgiven, rfl⟩), hall⟩

/-- Reading what a field yields succeeds if the field may list what can be read. It is enough that
no text can be read: a value that is no list yields nothing but texts. -/
theorem readField_eq_ok_iff {β : Type} {read : Nat → Value → Except RecordError β}
    {p : Value → Prop} {f : Value → β} (hread : ReadsOn read p f) (htext : ∀ t, ¬p (.text t))
    {fields : List (Text × Value)} {name : String} {bs : List β} :
    (∃ vs, readElements fields name = .ok vs ∧ readEach read 0 vs = .ok bs) ↔
      FieldIs fields name (MayList p) ∧ bs = (field fields name).listed.map f := by
  simp only [readEach_eq_ok_iff hread]
  constructor
  · rintro ⟨vs, hvs, hall, rfl⟩
    rcases readElements_eq_ok_iff.1 hvs with ⟨hblank, rfl⟩ | ⟨v, hv, hgiven, helements⟩
    · rw [listed_field_of_blank hblank]
      exact ⟨fun v hv => .inl (hblank v hv), rfl⟩
    · rcases list_or_text_mem helements hgiven with rfl | ⟨s, hs⟩
      · refine ⟨fun v' hv' => ?_, by rw [field, hv]; rfl⟩
        rw [hv] at hv'
        cases hv'
        exact .inr ⟨vs, rfl, hall⟩
      · exact absurd (hall _ hs) (htext s)
  · rintro ⟨hfield, rfl⟩
    obtain ⟨hread, hall⟩ := readElements_of_mayList hfield
    exact ⟨_, hread, hall, rfl⟩

end Record

section

variable [Host]

namespace Value

def shown (v : Value) : Text := v.display.toOption.getD ""

theorem display_eq_ok {v : Value} {t : Text} : v.display = .ok t ↔ v.HasText ∧ t = v.shown := by
  rw [← display_eq_ok_iff, shown]
  cases v.display <;> simp [Except.toOption, eq_comm]

theorem displayAll_eq_ok {vs : List Value} {ts : List Text} :
    displayAll vs = .ok ts ↔ (∀ v ∈ vs, v.HasText) ∧ ts = vs.map shown := by
  induction vs generalizing ts with
  | nil => simp [displayAll, eq_comm]
  | cons v vs ih =>
    simp only [displayAll, bind_eq_ok_iff, display_eq_ok, ih, List.forall_mem_cons, List.map_cons]
    constructor
    · rintro ⟨t, ⟨hv, rfl⟩, ts', ⟨hvs, rfl⟩, hts⟩
      cases hts
      exact ⟨⟨hv, hvs⟩, rfl⟩
    · rintro ⟨⟨hv, hvs⟩, rfl⟩
      exact ⟨_, ⟨hv, rfl⟩, _, ⟨hvs, rfl⟩, rfl⟩

def symbols (v : Value) : List Symbol := v.listed.map fun x => ⟨x.shown⟩

/-- The head and the bodies of a rule, not in normal form. -/
def rule : Value → Word × List Word
  | .object rule => ((field rule "head").symbols, (field rule "bodies").listed.map symbols)
  | _ => ([], [])

end Value

/-- The grammar that the fields of a document store. Every value stands for its text. -/
structure Stored (fields : List (Text × Value)) (g : Grammar) : Prop where
  id : g.id = (field fields "id").shown
  start : g.start = ⟨(field fields "startSymbol").shown⟩
  name : g.name = ((lookup fields "name").map shown).getD ""
  nonterminals : g.nonterminals.toList = (field fields "nonTerminals").symbols.eraseDups
  terminals : g.terminals.toList = (field fields "terminals").symbols.eraseDups
  rules : g.relation.items = mergedRules ((field fields "rules").listed.map Value.rule)
  label : ∀ t : GrammarType, field fields "type" = .text t.name → g.type = t
  /-- A type that is left out, or null, is found from the rules. -/
  found : field fields "type" = .null → g.type = g.view.classify

namespace Record

theorem readBodies_eq (rule index : Nat) (vs : List Value) :
    readBodies rule index vs = readEach (fun j => readTexts (.body rule j)) index vs := by
  induction vs generalizing index with
  | nil => rfl
  | cons v vs ih => simp only [readBodies, readEach, ih]

theorem readRules_eq (index : Nat) (vs : List Value) :
    readRules index vs = readEach readRule index vs := by
  induction vs generalizing index with
  | nil => rfl
  | cons v vs ih => simp only [readRules, readEach, ih]

theorem readText_eq_ok_iff {v : Value} {t : Text} :
    readText v = .ok t ↔ v.HasText ∧ t = v.shown := by
  rw [← display_eq_ok, readText]
  cases v.display <;> simp

theorem requireText_eq_ok_iff {fields : List (Text × Value)} {name : String} {t : Text} :
    requireText fields name = .ok t ↔
      HasField fields name HasText ∧ t = (field fields name).shown := by
  unfold requireText field HasField
  cases lookup fields name <;> simp [readText_eq_ok_iff]

theorem readName_eq_ok_iff {fields : List (Text × Value)} {t : Text} :
    readName fields = .ok t ↔
      FieldIs fields "name" HasText ∧ t = ((lookup fields "name").map shown).getD "" := by
  unfold readName FieldIs
  cases lookup fields "name" with
  | none => simp [eq_comm]
  | some v => simp [readText_eq_ok_iff]

theorem readTexts_eq_ok_iff {place : ListPlace} {v : Value} {ts : List Text} :
    readTexts place v = .ok ts ↔ v.ListOf HasText ∧ ts = v.listed.map shown := by
  cases v with
  | list vs =>
    simp only [readTexts, ListOf, listed, Value.list.injEq, exists_eq_left', ← displayAll_eq_ok]
    cases displayAll vs <;> simp
  | _ => simp [readTexts, ListOf]

theorem readTextField_eq_ok_iff {fields : List (Text × Value)} {name : String}
    {place : ListPlace} {ts : List Text} :
    readTextField fields name place = .ok ts ↔
      FieldIs fields name (ListOf HasText) ∧ ts = (field fields name).listed.map shown := by
  unfold readTextField FieldIs field
  cases lookup fields name with
  | none => simp [listed, eq_comm]
  | some v => simp [readTexts_eq_ok_iff]

def ruleOf : Value → RuleRecord
  | .object rule =>
    ⟨(field rule "head").listed.map shown,
      (field rule "bodies").listed.map fun b => b.listed.map shown⟩
  | _ => ⟨[], []⟩

theorem toItem_ruleOf (v : Value) : (ruleOf v).toItem = v.rule := by
  cases v with
  | object rule => simp [ruleOf, RuleRecord.toItem, Value.rule, symbols, Function.comp_def]
  | _ => rfl

theorem readsOn_readTexts (rule : Nat) :
    ReadsOn (fun j => readTexts (.body rule j)) (ListOf HasText) (fun b => b.listed.map shown) :=
  fun _ _ _ => readTexts_eq_ok_iff

theorem bodies_eq_ok_iff {index : Nat} {rule : List (Text × Value)} {bs : List (List Text)} :
    (∃ vs, readElements rule "bodies" = .ok vs ∧ readBodies index 0 vs = .ok bs) ↔
      FieldIs rule "bodies" (MayList (ListOf HasText)) ∧
        bs = (field rule "bodies").listed.map fun b => b.listed.map shown := by
  simp only [readBodies_eq]
  exact readField_eq_ok_iff (readsOn_readTexts index) not_listOf_text

theorem readsOn_readRule : ReadsOn readRule (IsRule HasText) ruleOf := by
  intro i v r
  cases v with
  | object rule =>
    simp only [readRule]
    cases hhead : lookup rule "head" with
    | none => simp [IsRule, HasField, hhead]
    | some head =>
      have hfield : field rule "head" = head := by rw [field, hhead, Option.getD_some]
      simp only [bind_eq_ok_iff, readTexts_eq_ok_iff]
      constructor
      · rintro ⟨ts, ⟨hlist, rfl⟩, vs, hvs, bs, hbs, hr⟩
        obtain ⟨hshape, rfl⟩ := bodies_eq_ok_iff.1 ⟨vs, hvs, hbs⟩
        cases hr
        exact ⟨⟨rule, rfl, ⟨head, hhead, hlist⟩, hshape⟩, by rw [ruleOf, hfield]⟩
      · rintro ⟨⟨rule', heq, ⟨head', hhead', hlist⟩, hshape⟩, rfl⟩
        cases heq
        rw [hhead] at hhead'
        cases hhead'
        obtain ⟨vs, hvs, hbs⟩ := bodies_eq_ok_iff.2 ⟨hshape, rfl⟩
        exact ⟨_, ⟨hlist, rfl⟩, vs, hvs, _, hbs, by rw [ruleOf, hfield]; rfl⟩
  | _ => simp [readRule, IsRule]

theorem rules_eq_ok_iff {fields : List (Text × Value)} {rs : List RuleRecord} :
    (∃ vs, readElements fields "rules" = .ok vs ∧ readRules 0 vs = .ok rs) ↔
      FieldIs fields "rules" (MayList (IsRule HasText)) ∧
        rs = (field fields "rules").listed.map ruleOf := by
  simp only [readRules_eq]
  exact readField_eq_ok_iff readsOn_readRule not_isRule_text

def typeOf : Value → Option GrammarType
  | .text s => GrammarType.ofName? s
  | _ => none

theorem readType_eq_ok_iff {fields : List (Text × Value)} {t : Option GrammarType} :
    readType fields = .ok t ↔
      FieldIs fields "type" (fun v => v = .null ∨ ∃ t : GrammarType, v = .text t.name) ∧
        t = typeOf (field fields "type") := by
  unfold readType FieldIs field
  cases lookup fields "type" with
  | none => simp [typeOf, eq_comm]
  | some v =>
    cases v with
    | null => simp [typeOf, eq_comm]
    | text s =>
      cases hname : GrammarType.ofName? s with
      | none =>
        have hno := GrammarType.ofName?_eq_none_iff.1 hname
        simp [hname, hno]
      | some type =>
        have hyes : ∃ t : GrammarType, s = t.name :=
          ⟨type, GrammarType.ofName?_eq_some_iff.1 hname⟩
        simp [typeOf, hname, hyes, eq_comm]
    | _ => simp

def ofFields (fields : List (Text × Value)) : Record where
  id := (field fields "id").shown
  start := (field fields "startSymbol").shown
  name := ((lookup fields "name").map shown).getD ""
  nonterminals := (field fields "nonTerminals").listed.map shown
  terminals := (field fields "terminals").listed.map shown
  rules := (field fields "rules").listed.map ruleOf
  type := typeOf (field fields "type")

/-- The documents that store a record are the well-shaped objects. -/
theorem ofDocument_eq_ok_iff {document : Value} {r : Record} :
    ofDocument document = .ok r ↔
      ∃ fields, document = .object fields ∧ WellShaped HasText fields ∧ r = ofFields fields := by
  cases document with
  | object fields =>
    simp only [ofDocument, bind_eq_ok_iff, requireText_eq_ok_iff, readName_eq_ok_iff,
      readTextField_eq_ok_iff, readType_eq_ok_iff]
    constructor
    · rintro ⟨id, ⟨hid, rfl⟩, start, ⟨hstart, rfl⟩, name, ⟨hname, rfl⟩, nonterminals,
        ⟨hnonterminals, rfl⟩, terminals, ⟨hterminals, rfl⟩, vs, hvs, rs, hrs, type, ⟨htype, rfl⟩,
        hr⟩
      obtain ⟨hshape, rfl⟩ := rules_eq_ok_iff.1 ⟨vs, hvs, hrs⟩
      cases hr
      exact ⟨fields, rfl, ⟨⟨hid, hstart, hname, hnonterminals, hterminals⟩, hshape, htype⟩, rfl⟩
    · rintro ⟨fields', heq, hshape, rfl⟩
      cases heq
      obtain ⟨vs, hvs, hrs⟩ := rules_eq_ok_iff.2 ⟨hshape.rules, rfl⟩
      exact ⟨_, ⟨hshape.id, rfl⟩, _, ⟨hshape.start, rfl⟩, _, ⟨hshape.name, rfl⟩, _,
        ⟨hshape.nonterminals, rfl⟩, _, ⟨hshape.terminals, rfl⟩, vs, hvs, _, hrs, _,
        ⟨hshape.type, rfl⟩, rfl⟩
  | _ => simp [ofDocument]

theorem items_ofFields (fields : List (Text × Value)) :
    (ofFields fields).items = (field fields "rules").listed.map Value.rule := by
  simp only [items, ofFields, List.map_map]
  exact List.map_congr_left fun v _ => toItem_ruleOf v

end Record

/-! ## Grammars -/

theorem Grammar.stored_ofRecord (fields : List (Text × Value)) :
    Stored fields (ofRecord (Record.ofFields fields)) := by
  obtain ⟨hid, hstart, hname, hterminals, hnonterminals, hrelation⟩ :=
    parts_ofRecord (Record.ofFields fields)
  have hsymbols : ∀ v : Value, (v.listed.map shown).map Symbol.mk = v.symbols := by
    intro v
    rw [List.map_map]
    rfl
  constructor
  case id => exact hid
  case start => exact hstart
  case name => exact hname
  case nonterminals =>
    rw [hnonterminals, OrderedSet.toList_ofList]
    exact congrArg List.eraseDups (hsymbols _)
  case terminals =>
    rw [hterminals, OrderedSet.toList_ofList]
    exact congrArg List.eraseDups (hsymbols _)
  case rules => rw [hrelation, Relation.items_ofPairs, Record.items_ofFields]
  case label =>
    intro t ht
    have hname : GrammarType.ofName? t.name = some t := GrammarType.ofName?_eq_some_iff.2 rfl
    exact type_ofRecord_some (by rw [Record.ofFields, ht, Record.typeOf, hname])
  case found =>
    intro hnull
    exact type_ofRecord (by simp [Record.ofFields, hnull, Record.typeOf])

theorem Stored.unique {fields : List (Text × Value)} (hshape : WellShaped HasText fields)
    {g h : Grammar} (hg : Stored fields g) (hh : Stored fields h) : g = h := by
  have hnamed : field fields "type" = .null ∨
      ∃ t : GrammarType, field fields "type" = .text t.name := by
    cases hlookup : lookup fields "type" with
    | none => exact .inl (by rw [field, hlookup, Option.getD_none])
    | some v =>
      rw [field, hlookup, Option.getD_some]
      exact hshape.type v hlookup
  obtain ⟨id, start, name, type, ⟨terminals⟩, ⟨nonterminals⟩, relation⟩ := g
  obtain ⟨id', start', name', type', ⟨terminals'⟩, ⟨nonterminals'⟩, relation'⟩ := h
  cases hg.id.trans hh.id.symm
  cases hg.start.trans hh.start.symm
  cases hg.name.trans hh.name.symm
  cases hg.nonterminals.trans hh.nonterminals.symm
  cases hg.terminals.trans hh.terminals.symm
  cases Relation.eq_of_items (hg.rules.trans hh.rules.symm)
  have htype : type = type' := by
    rcases hnamed with hnull | ⟨t, ht⟩
    · exact (hg.found hnull).trans (hh.found hnull).symm
    · exact (hg.label t ht).trans (hh.label t ht).symm
  rw [htype]

theorem Grammar.ofDocument_eq_ok_iff {document : Value} {g : Grammar} :
    ofDocument document = .ok g ↔
      ∃ fields, document = .object fields ∧ WellShaped HasText fields ∧ Stored fields g := by
  have hrecord : ofDocument document = .ok g ↔
      ∃ r, Record.ofDocument document = .ok r ∧ g = ofRecord r := by
    simp only [ofDocument, bind_eq_ok_iff, pure, Except.pure, Except.ok.injEq, eq_comm (a := g)]
  rw [hrecord]
  simp only [Record.ofDocument_eq_ok_iff]
  constructor
  · rintro ⟨r, ⟨fields, rfl, hshape, rfl⟩, rfl⟩
    exact ⟨fields, rfl, hshape, stored_ofRecord fields⟩
  · rintro ⟨fields, rfl, hshape, hg⟩
    exact ⟨_, ⟨fields, rfl, hshape, rfl⟩, hg.unique hshape (stored_ofRecord fields)⟩

/-- A document is a grammar exactly if it is an object of the right shape in which every value that
stands for a text has one, and then it is the one grammar that its fields store. -/
theorem stored_iff (document : Value) :
    ((∃ g, Grammar.ofDocument document = .ok g) ↔
      ∃ fields, document = .object fields ∧ WellShaped HasText fields) ∧
    ∀ g, Grammar.ofDocument document = .ok g ↔
      ∃ fields, document = .object fields ∧ WellShaped HasText fields ∧ Stored fields g := by
  refine ⟨?_, fun g => Grammar.ofDocument_eq_ok_iff⟩
  simp only [Grammar.ofDocument_eq_ok_iff]
  constructor
  · rintro ⟨g, fields, rfl, hshape, -⟩
    exact ⟨fields, rfl, hshape⟩
  · rintro ⟨fields, rfl, hshape⟩
    exact ⟨_, fields, rfl, hshape, Grammar.stored_ofRecord fields⟩

end

def hugeIdFields : List (Text × Value) :=
  [("id", .int Value.leastHuge), ("startSymbol", .text "S")]

section

open scoped Host

/-- The shape alone does not make a document a grammar: an integer may be too long to have a
text. -/
theorem not_stored_of_shape :
    ¬∀ document : Value, (∃ g, Grammar.ofDocument document = .ok g) ↔
      ∃ fields, document = .object fields ∧ WellShaped (fun _ => True) fields := by
  intro h
  have hshape : WellShaped (fun _ => True) hugeIdFields := by
    refine ⟨⟨⟨_, rfl, trivial⟩, ⟨_, rfl, trivial⟩, fun _ _ => trivial, ?_, ?_⟩, ?_, ?_⟩
    all_goals
      intro v hv
      cases hv
  obtain ⟨g, hg⟩ := (h (.object hugeIdFields)).2 ⟨_, rfl, hshape⟩
  obtain ⟨fields, heq, hwell, -⟩ := Grammar.ofDocument_eq_ok_iff.1 hg
  cases heq
  obtain ⟨v, hv, htext⟩ := hwell.id
  cases hv
  obtain ⟨t, ht⟩ := display_eq_ok_iff.2 htext
  have hlacks : (Value.int leastHuge).LacksText .hugeInteger :=
    ⟨by decide, by decide, failsToShow_leastHuge _⟩
  rw [display_eq_error_iff.2 hlacks] at ht
  cases ht

/-- The fields of a document in which three entries have the empty head, each written in its own
way. Numbers stand for their texts, and what counts as not given stands in place of lists. -/
def looseFields : List (Text × Value) := [
  ("startSymbol", .int 5), ("id", .null), ("type", .null),
  ("terminals", .list [.text "a", .bool true, .text "True"]),
  ("rules", .list [
    .object [("head", .list []), ("bodies", .list [.list [.text "a"], .list [.text "ε"]])],
    .object [("head", .list [.text "A"]), ("bodies", .bool false)],
    .object [("bodies", .object []), ("head", .list [.text "ε", .text "ε"])],
    .object [("head", .list [.text "ε"]),
      ("bodies", .list [.list [], .list [.bool true, .int 5], .list [.text "a"]])]])]

theorem stored_looseFields :
    ∃ g, Grammar.ofDocument (.object looseFields) = .ok g ∧ Stored looseFields g ∧
      g.id = "None" ∧ g.name = "" ∧ g.start = ⟨"5"⟩ ∧ g.terminals.toList = [⟨"a"⟩, ⟨"True"⟩] ∧
      g.relation.items =
        [(Word.empty, [[⟨"a"⟩], Word.empty, [⟨"True"⟩, ⟨"5"⟩]]), ([⟨"A"⟩], [])] ∧
      g.type = .regular := by
  have htype : (Grammar.ofDocument (.object looseFields)).toOption.map (·.type) =
      some .regular := by decide +kernel
  cases hg : Grammar.ofDocument (.object looseFields) with
  | error e =>
    rw [hg] at htype
    cases htype
  | ok g =>
    rw [hg] at htype
    obtain ⟨fields, heq, -, hstored⟩ := ((stored_iff (.object looseFields)).2 g).1 hg
    cases heq
    have hstart : g.start = ⟨"5"⟩ := hstored.start.trans (by decide +kernel)
    have hterminals : g.terminals.toList = [⟨"a"⟩, ⟨"True"⟩] := hstored.terminals
    have hrules : g.relation.items =
        [(Word.empty, [[⟨"a"⟩], Word.empty, [⟨"True"⟩, ⟨"5"⟩]]), ([⟨"A"⟩], [])] :=
      hstored.rules.trans (by decide +kernel)
    exact ⟨g, rfl, hstored, hstored.id, hstored.name, hstart, hterminals, hrules,
      Option.some.inj htype⟩

end

end PhraseGrammar
