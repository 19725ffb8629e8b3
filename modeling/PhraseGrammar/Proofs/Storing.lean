import PhraseGrammar.Proofs.JsonText
import PhraseGrammar.Proofs.Reachable

/-!
# PhraseGrammar.Proofs.Storing

A grammar that is stored as a document or as JSON text is the same grammar when it is read.

* `Record.ofDocument_document`, `Record.read_of_write`: every record is read back, in every layout.
* `View.isWhole_write_iff`: a record is written without half of a pair if none stands in it.
* `Grammar.ofRecord_record`, `FrozenGrammar.ofRecord_record`: the grammar of its record.
* `View.Restored`: what storing and reading keeps.

`restored_of_reachable` says this of every grammar. An indentation has to be one that the writer
can lay out, and a file holds no half of a pair.
-/

namespace PhraseGrammar

namespace Record

/-! ## Documents -/

theorem readElements_list {fields : List (Text × Value)} {name : String} {vs : List Value}
    (h : Value.lookup fields name = some (.list vs)) : readElements fields name = .ok vs := by
  unfold readElements
  rw [h]
  cases vs <;> rfl

section

variable [Host]

theorem readTexts_textList (place : ListPlace) (texts : List Text) :
    readTexts place (textList texts) = .ok texts := by
  simp only [readTexts, textList, Value.displayAll_map Value.display_text, List.map_id']

theorem readBodies_textLists (rule index : Nat) (bodies : List (List Text)) :
    readBodies rule index (bodies.map textList) = .ok bodies := by
  induction bodies generalizing index with
  | nil => rfl
  | cons body bodies ih =>
    rw [List.map_cons, readBodies, readTexts_textList, ih]
    rfl

theorem readRule_ruleDocument (index : Nat) (r : RuleRecord) :
    readRule index (ruleDocument r) = .ok r := by
  have hhead : Value.lookup [("head", textList r.head), ("bodies", .list (r.bodies.map textList))]
      "head" = some (textList r.head) := rfl
  have hbodies : readElements [("head", textList r.head),
      ("bodies", .list (r.bodies.map textList))] "bodies" = .ok (r.bodies.map textList) :=
    readElements_list rfl
  simp only [ruleDocument, readRule, hhead, hbodies, readTexts_textList, readBodies_textLists, bind,
    Except.bind, pure, Except.pure]

theorem readRules_ruleDocuments (index : Nat) (rules : List RuleRecord) :
    readRules index (rules.map ruleDocument) = .ok rules := by
  induction rules generalizing index with
  | nil => rfl
  | cons r rules ih =>
    rw [List.map_cons, readRules, readRule_ruleDocument, ih]
    rfl

theorem readType_typeDocument {fields : List (Text × Value)} {type : Option GrammarType}
    (h : Value.lookup fields "type" = some (typeDocument type)) :
    readType fields = .ok type := by
  unfold readType
  rw [h]
  cases type with
  | none => rfl
  | some t => cases t <;> rfl

theorem ofDocument_document (r : Record) : ofDocument r.document = .ok r := by
  obtain ⟨id, start, name, nonterminals, terminals, rules, type⟩ := r
  simp only [document]
  generalize hfields : [(Text.ofString "id", Value.text id), ("name", .text name),
    ("type", typeDocument type), ("startSymbol", .text start),
    ("nonTerminals", textList nonterminals),
    ("terminals", textList terminals), ("rules", .list (rules.map ruleDocument))] = fields
  have hid : requireText fields "id" = .ok id := by rw [← hfields]; rfl
  have hstart : requireText fields "startSymbol" = .ok start := by rw [← hfields]; rfl
  have hname : readName fields = .ok name := by rw [← hfields]; rfl
  have hnonterminals : readTextField fields "nonTerminals" .nonterminals = .ok nonterminals := by
    rw [← hfields]
    exact readTexts_textList .nonterminals nonterminals
  have hterminals : readTextField fields "terminals" .terminals = .ok terminals := by
    rw [← hfields]
    exact readTexts_textList .terminals terminals
  have helements : readElements fields "rules" = .ok (rules.map ruleDocument) :=
    readElements_list (by rw [← hfields]; rfl)
  have htype : readType fields = .ok type := readType_typeDocument (by rw [← hfields]; rfl)
  simp only [ofDocument, hid, hstart, hname, hnonterminals, hterminals, helements,
    readRules_ruleDocuments, htype, bind, Except.bind, pure, Except.pure]

end

/-! ## Texts -/

theorem storable_textList {calls : Nat} (texts : List Text) :
    Json.Storable (calls + 1) (textList texts) := by
  refine .list fun v hv => ?_
  obtain ⟨text, _, rfl⟩ := List.mem_map.1 hv
  exact .text text

theorem storable_ruleDocument (r : RuleRecord) : Json.Storable 3 (ruleDocument r) := by
  have hnames : [Text.ofString "head", Text.ofString "bodies"].Nodup := by decide
  refine .object hnames fun f hf => ?_
  rcases List.mem_cons.1 hf with rfl | hf
  · exact storable_textList r.head
  · rw [List.mem_singleton.1 hf]
    refine .list fun v hv => ?_
    obtain ⟨body, _, rfl⟩ := List.mem_map.1 hv
    exact storable_textList body

theorem storable_typeDocument {calls : Nat} (type : Option GrammarType) :
    Json.Storable calls (typeDocument type) := by
  cases type with
  | none => exact .null
  | some t => exact .text t.name

theorem storable_document (r : Record) : Json.Storable recordCalls r.document := by
  have hnames : (["id", "name", "type", "startSymbol", "nonTerminals", "terminals",
      "rules"].map Text.ofString).Nodup := by decide
  refine .object hnames fun f hf => ?_
  simp only [List.mem_cons, List.not_mem_nil, or_false] at hf
  rcases hf with rfl | rfl | rfl | rfl | rfl | rfl | rfl
  · exact .text r.id
  · exact .text r.name
  · exact storable_typeDocument r.type
  · exact .text r.start
  · exact storable_textList r.nonterminals
  · exact storable_textList r.terminals
  · refine .list fun v hv => ?_
    obtain ⟨rule, _, rfl⟩ := List.mem_map.1 hv
    exact storable_ruleDocument rule

theorem return_notMem_write (layout : Json.Layout) (r : Record) :
    '\r' ∉ (r.write layout).chars :=
  Json.return_notMem_writeChars layout (storable_document r) 0

section

variable [Host]

theorem read_of_json {r : Record} {text : String} (h : Json.read text = .ok r.document) :
    read text = .ok r := by
  unfold read
  rw [h]
  simp only [ofDocument_document]

variable {layout : Json.Layout} {r : Record} {text : String}

/-- Every record is read back from its text, whatever the layout. -/
theorem read_of_write (h : r.write layout = Text.ofString text) : read text = .ok r := by
  have hspace : Json.AllSpace "".toList := by
    intro c hc
    cases hc
  have hread := Json.read_of_write layout (storable_document r) Host.recordCalls_le h hspace
  rw [String.append_empty] at hread
  exact read_of_json hread

theorem read_line_of_write (h : r.write layout = Text.ofString text) :
    read (text ++ "\n") = .ok r := by
  have hspace : Json.AllSpace "\n".toList := by
    intro c hc
    rw [List.mem_singleton.1 hc]
    rfl
  exact read_of_json
    (Json.read_of_write layout (storable_document r) Host.recordCalls_le h hspace)

theorem read_of_writeIndented {indent : Option Int}
    (h : r.writeIndented indent = .ok (Text.ofString text)) : read text = .ok r := by
  unfold writeIndented at h
  split at h
  · cases h
  · exact read_of_write (Except.ok.inj h)

theorem ofIndent_of_le {indent : Option Int}
    (h : ∀ width ∈ indent, -Json.Layout.wordBound ≤ width ∧ width < Json.Layout.wordBound ∧
      width ≤ Host.widest) : ∃ layout, Json.Layout.ofIndent indent = .ok layout := by
  cases indent with
  | none => exact ⟨_, rfl⟩
  | some width =>
    obtain ⟨hlow, hhigh, hwidest⟩ := h width rfl
    have hword : ¬(width < -Json.Layout.wordBound ∨ Json.Layout.wordBound ≤ width) := by omega
    have hroom : ¬Host.widest < width := by omega
    exact ⟨_, by rw [Json.Layout.ofIndent, Json.Layout.ofWidth, if_neg hword, if_neg hroom]⟩

end

/-! ## Halves of pairs -/

theorem isWhole_textList_iff {layout : Json.Layout} {depth : Nat} {texts : List Text} :
    Text.IsWhole (Json.writeAt layout depth (textList texts)) ↔ ∀ t ∈ texts, t.IsWhole := by
  rw [textList, Json.isWhole_list_iff, List.forall_mem_map]
  simp only [Json.isWhole_text_iff]

theorem isWhole_ruleDocument_iff {layout : Json.Layout} {depth : Nat} {r : RuleRecord} :
    Text.IsWhole (Json.writeAt layout depth (ruleDocument r)) ↔
      (∀ t ∈ r.head, t.IsWhole) ∧ ∀ b ∈ r.bodies, ∀ t ∈ b, t.IsWhole := by
  simp only [ruleDocument, Json.isWhole_object_iff, List.forall_mem_cons, List.not_mem_nil,
    Text.isWhole_ofString, true_and, isWhole_textList_iff, Json.isWhole_list_iff,
    List.forall_mem_map, false_imp_iff, implies_true, and_true]

theorem isWhole_typeDocument (layout : Json.Layout) (depth : Nat) (type : Option GrammarType) :
    Text.IsWhole (Json.writeAt layout depth (typeDocument type)) := by
  cases type with
  | none => exact Text.isWhole_ofString "null"
  | some t => exact Json.isWhole_quote_iff.2 (Text.isWhole_ofString t.name)

end Record

/-- Half of a pair stands in the text of a record if it does in the grammar. -/
theorem View.isWhole_write_iff {v : View} {layout : Json.Layout} :
    Text.IsWhole (v.record.write layout) ↔ v.IsWhole := by
  simp only [View.isWhole_iff, Record.write, Json.write, Record.document, View.record,
    Json.isWhole_object_iff, List.forall_mem_cons, Text.isWhole_ofString, true_and,
    Record.isWhole_textList_iff, Json.isWhole_list_iff, List.forall_mem_map,
    Record.isWhole_ruleDocument_iff, RuleRecord.ofItem, Word.texts, Record.isWhole_typeDocument,
    Json.isWhole_text_iff, List.not_mem_nil, false_imp_iff, implies_true, and_true]
  constructor
  · rintro ⟨hid, hname, hstart, hnonterminals, hterminals, hrules⟩
    exact ⟨hid, hname, hstart, hterminals, hnonterminals, fun r hr => (hrules r hr).1,
      fun r hr => (hrules r hr).2⟩
  · rintro ⟨hid, hname, hstart, hterminals, hnonterminals, hheads, hbodies⟩
    exact ⟨hid, hname, hstart, hnonterminals, hterminals,
      fun r hr => ⟨hheads r hr, hbodies r hr⟩⟩

theorem View.exists_write {v : View} (h : v.IsWhole) (layout : Json.Layout) :
    ∃ text : String, v.record.write layout = text :=
  ⟨_, (Text.ofString_chars (View.isWhole_write_iff.2 h)).symm⟩

/-! ## Grammars -/

theorem symbols_texts (symbols : List Symbol) :
    (symbols.map fun s => s.text).map Symbol.mk = symbols := by
  rw [List.map_map]
  exact List.map_id symbols

theorem ofList_texts {a : Alphabet} (h : a.toList.Nodup) :
    OrderedSet.ofList ((a.toList.map fun s => s.text).map Symbol.mk) = a := by
  rw [symbols_texts]
  exact OrderedSet.ofList_toList h

theorem RuleRecord.toItem_ofItem (item : Word × List Word) : (ofItem item).toItem = item := by
  obtain ⟨head, bodies⟩ := item
  have hbodies : (bodies.map Word.texts).map (fun b => b.map Symbol.mk) = bodies := by
    rw [List.map_map]
    exact (List.map_congr_left fun b _ => symbols_texts b).trans (List.map_id bodies)
  simp only [ofItem, toItem, hbodies]
  exact congrArg (·, bodies) (symbols_texts head)

theorem View.items_record (v : View) : v.record.items = v.rules := by
  unfold Record.items View.record
  rw [List.map_map]
  exact (List.map_congr_left fun r _ => RuleRecord.toItem_ofItem r).trans (List.map_id v.rules)

/-- A well-formed grammar is the grammar of its record. -/
theorem Grammar.ofRecord_record {g : Grammar} (h : g.WellFormed) :
    Grammar.ofRecord g.view.record = g := by
  have hrules : Relation.ofPairs g.view.record.items = g.relation := by
    rw [View.items_record]
    exact Relation.ofPairs_items h.rules
  have hterminals : OrderedSet.ofList (g.view.record.terminals.map Symbol.mk) = g.terminals :=
    ofList_texts h.terminals
  have hnonterminals :
      OrderedSet.ofList (g.view.record.nonterminals.map Symbol.mk) = g.nonterminals :=
    ofList_texts h.nonterminals
  unfold ofRecord
  rw [hrules, hterminals, hnonterminals]
  rfl

theorem FrozenGrammar.ofRecord_record {p : FrozenGrammar} (h : p.WellFormed) :
    FrozenGrammar.ofRecord p.view.record = p := by
  have hrules : FrozenRules.ofPairs p.view.record.items = p.rules := by
    rw [View.items_record, FrozenRules.ofPairs_eq]
    exact congrArg (fun r : Relation => FrozenRules.mk r.rules) (Relation.ofPairs_items h.rules)
  have hterminals : OrderedSet.ofList (p.view.record.terminals.map Symbol.mk) = p.terminals :=
    ofList_texts h.terminals
  have hnonterminals :
      OrderedSet.ofList (p.view.record.nonterminals.map Symbol.mk) = p.nonterminals :=
    ofList_texts h.nonterminals
  unfold ofRecord
  rw [hrules, hterminals, hnonterminals]
  simp only [View.record, FrozenGrammar.on_setType]
  rfl

section

variable [Host]

/-- What is kept of a grammar that is stored and read. -/
structure View.Restored (v : View) : Prop where
  /-- Its document is read as a grammar of either kind with the same record. -/
  document : ∃ r, Record.ofDocument v.record.document = .ok r ∧
    (Grammar.ofRecord r).view.record = v.record ∧ (FrozenGrammar.ofRecord r).view.record = v.record
  /-- So is its text in every layout, however wide. -/
  layout : ∀ (layout : Json.Layout) (text : String), v.record.write layout = text →
    ∃ r, Record.read text = .ok r ∧ (Grammar.ofRecord r).view.record = v.record
  /-- So is its text for every indentation that gives one. -/
  text : ∀ (indent : Option Int) (text : String), v.record.writeIndented indent = .ok text →
    ∃ r, Record.read text = .ok r ∧ (Grammar.ofRecord r).view.record = v.record
  /-- It has a text in every layout, without indentation and with every indentation that is not too
  wide, if no half of a pair stands in it. -/
  written : v.IsWhole →
    (∀ layout, ∃ text : String, v.record.write layout = text) ∧
    ∀ indent : Option Int,
      (∀ width ∈ indent, -Json.Layout.wordBound ≤ width ∧ width < Json.Layout.wordBound ∧
        width ≤ Host.widest) → ∃ text : String, v.record.writeIndented indent = .ok text

theorem View.restored_of_record {v : View}
    (hgrammar : (Grammar.ofRecord v.record).view = v)
    (hfrozen : (FrozenGrammar.ofRecord v.record).view = v) : v.Restored where
  document := ⟨v.record, Record.ofDocument_document v.record, by rw [hgrammar], by rw [hfrozen]⟩
  layout := fun _ _ htext => ⟨v.record, Record.read_of_write htext, by rw [hgrammar]⟩
  text := fun _ _ htext => ⟨v.record, Record.read_of_writeIndented htext, by rw [hgrammar]⟩
  written := by
    intro hwhole
    refine ⟨View.exists_write hwhole, fun indent hindent => ?_⟩
    obtain ⟨layout, hlayout⟩ := Record.ofIndent_of_le hindent
    obtain ⟨text, htext⟩ := View.exists_write hwhole layout
    exact ⟨text, by simp only [Record.writeIndented, hlayout, htext]⟩

/-- Every grammar, editable or frozen, is restored from its document and from its texts. -/
theorem restored_of_reachable :
    (∀ g : Grammar, g.Reachable → g.view.Restored) ∧
      ∀ p : FrozenGrammar, p.Reachable → p.view.Restored := by
  constructor
  · intro g hg
    have hgrammar := Grammar.ofRecord_record hg.wellFormed
    have hfrozen := FrozenGrammar.ofRecord_record (FrozenGrammar.Reachable.freeze hg).wellFormed
    have hview := Grammar.view_freeze hg.wellFormed
    rw [hview] at hfrozen
    exact View.restored_of_record (by rw [hgrammar]) (by rw [hfrozen, hview])
  · intro p hp
    have hfrozen := FrozenGrammar.ofRecord_record hp.wellFormed
    have hgrammar := Grammar.ofRecord_record (Grammar.Reachable.thaw hp).wellFormed
    have hview := FrozenGrammar.view_thaw hp.wellFormed
    rw [hview] at hgrammar
    exact View.restored_of_record (by rw [hgrammar, hview]) (by rw [hfrozen])

end

section

open scoped Host

/-- A grammar without id and name, whose texts need escapes. -/
def namelessGrammar : Grammar :=
  ((Grammar.new "" ⟨"\r\x00"⟩ "").apply (.rule (.addHead (.list [.text "\\", .text "ε"])))).1

theorem restored_namelessGrammar :
    ∃ (text : String) (r : Record),
      namelessGrammar.view.record.writeIndented (some (-3)) = .ok text ∧
      Record.read text = .ok r ∧
      (Grammar.ofRecord r).view.record =
        { id := ""
          start := "\r\x00"
          name := ""
          nonterminals := []
          terminals := []
          rules := [⟨["\\", "ε"], []⟩]
          type := some .regular } := by
  have hrestored := restored_of_reachable.1 namelessGrammar (.edit _ (.new "" ⟨"\r\x00"⟩ ""))
  have hwritten := hrestored.written (by decide +kernel)
  obtain ⟨text, htext⟩ := hwritten.2 (some (-3)) (by simp; decide)
  obtain ⟨r, hr, hrecord⟩ := hrestored.text _ text htext
  exact ⟨text, r, htext, hr, hrecord.trans (by decide +kernel)⟩

/-- An indentation that no machine word holds cannot be written, not even a negative one. -/
theorem not_restored_beyond_word :
    ¬∀ g : Grammar, g.Reachable → g.view.IsWhole → ∀ indent, ∃ (text : String) (r : Record),
      g.view.record.writeIndented indent = .ok text ∧ Record.read text = .ok r ∧
        (Grammar.ofRecord r).view.record = g.view.record := by
  intro h
  obtain ⟨text, r, htext, _⟩ :=
    h (.new "g" ⟨"S"⟩ "") (.new "g" ⟨"S"⟩ "") (by decide +kernel) (some (-0x8000000000000001))
  cases htext

end

end PhraseGrammar
