import PhraseGrammar.Proofs.Loading
import PhraseGrammar.Proofs.Merging
import PhraseGrammar.Proofs.Printing

/-!
# PhraseGrammar.Proofs.Formatting

A grammar that is printed to a file is loaded from it, and printed in the same way again.

* `return_notMem_print`: all line ends of a printed grammar are line feeds, so that none of them is
  rewritten when the file is read.
* `loadContents_print`: the grammar of a printed text is the grammar that was printed, but for an
  empty id.

`fmt_canonical` is the round from a file to a printed text and back. Only a record can have an empty
id, and then the round does not come back: `not_fmt_canonical_of_emptyId`.
-/

namespace PhraseGrammar

namespace Notation

/-! ## Line ends of a printed grammar -/

theorem return_notMem_intercalate {α : Type} {separator : String} {write : α → Text}
    {items : List α} (hseparator : '\r' ∉ separator.toList)
    (h : ∀ item ∈ items, '\r' ∉ (write item).chars) :
    '\r' ∉ Text.chars (List.intercalate (Text.ofString separator) (items.map write)) := by
  rw [Text.chars_intercalate, Text.chars_ofString, Text.notMem_intercalate_iff hseparator,
    List.forall_mem_map, List.forall_mem_map]
  exact h

theorem not_control_of_symbolText (s : Symbol) :
    ∀ d ∈ Text.chars (symbolText s), 0x20 ≤ d.toNat := by
  rw [chars_symbolText]
  unfold symbolSign
  split
  · simp
  split
  · rename_i hident
    exact fun d => not_control_of_isIdent hident
  · exact fun d => Json.not_control_of_quoteChars

theorem not_control_of_wordText (w : Word) : ∀ d ∈ Text.chars (wordText w), 0x20 ≤ d.toNat := by
  unfold wordText
  split
  · simp
  · rw [Text.chars_intercalate]
    refine Json.not_control_of_intercalate (by simp) ?_
    rw [List.forall_mem_map, List.forall_mem_map]
    exact fun s _ => not_control_of_symbolText s

theorem return_notMem_symbolText (s : Symbol) : '\r' ∉ Text.chars (symbolText s) :=
  fun h => absurd (not_control_of_symbolText s _ h) (by decide)

theorem return_notMem_wordText (w : Word) : '\r' ∉ Text.chars (wordText w) :=
  fun h => absurd (not_control_of_wordText w _ h) (by decide)

theorem return_notMem_alphabetLine (d : Directive) (symbols : List Symbol) :
    '\r' ∉ Text.chars (alphabetLine d.word symbols) := by
  have hword : '\r' ∉ d.word.toList := by
    cases d <;> decide
  have hsymbols : '\r' ∉ Text.chars (List.intercalate (Text.ofString " ")
      (symbols.map symbolText)) :=
    return_notMem_intercalate (by decide) fun s _ => return_notMem_symbolText s
  unfold alphabetLine
  split <;> simp [hword, hsymbols]

theorem return_notMem_ruleLine (head : Word) (bodies : List Word) :
    '\r' ∉ Text.chars (ruleLine head bodies) := by
  have hhead := return_notMem_wordText head
  have hbodies : '\r' ∉ Text.chars (List.intercalate (Text.ofString " | ")
      (bodies.map wordText)) :=
    return_notMem_intercalate (by decide) fun b _ => return_notMem_wordText b
  unfold ruleLine
  split <;> simp [hhead, hbodies]

/-- A printed grammar has no line end but line feeds. -/
theorem return_notMem_print (v : View) : '\r' ∉ Text.chars (print v) := by
  have hquote : ∀ t, '\r' ∉ Text.chars (Json.quote t) := by
    intro t
    rw [Json.chars_quote]
    exact Json.return_notMem_quoteChars t.chars
  have htype : '\r' ∉ v.type.name.toList := by
    cases v.type <;> decide
  have hlines : ∀ line ∈ lines v, '\r' ∉ line.chars := by
    intro line hline
    rcases List.mem_append.1 hline with hline | hline
    · simp only [List.mem_cons, List.not_mem_nil, or_false] at hline
      rcases hline with rfl | rfl | rfl | rfl | rfl | rfl | rfl
      · simp [hquote]
      · simp [hquote]
      · simp [htype]
      · simp [return_notMem_symbolText]
      · exact return_notMem_alphabetLine .terminals v.terminals
      · exact return_notMem_alphabetLine .nonterminals v.nonterminals
      · simp
    · obtain ⟨r, _, rfl⟩ := List.mem_map.1 hline
      exact return_notMem_ruleLine r.1 r.2
  have htext : '\r' ∉ Text.chars (List.intercalate (Text.ofString "\n") ((lines v).map id)) :=
    return_notMem_intercalate (by decide) hlines
  rw [List.map_id] at htext
  simpa [print] using htext

/-! ## Printed texts -/

section

variable [Host]

/-- Views that are printed as the same text are the same. -/
theorem eq_of_print {v v' : View} (h : NormalRules v.rules) (h' : NormalRules v'.rules)
    {source : String} (hsource : print v = source) (hsource' : print v' = source) : v = v' := by
  have hitems := items_eq_ok_iff.2 (reads_print h hsource)
  rw [items_eq_ok_iff.2 (reads_print h' hsource')] at hitems
  have hstatements : statements v' = statements v := Except.ok.inj hitems
  have hrules : v'.rules = v.rules := by
    rw [← rules_statements v', hstatements, rules_statements v]
  obtain ⟨id, name, type, start, terminals, nonterminals, rules⟩ := v
  obtain ⟨id', name', type', start', terminals', nonterminals', rules'⟩ := v'
  simp only [statements, List.cons_append, List.cons.injEq, Item.id.injEq, Item.name.injEq,
    Item.type.injEq, Item.start.injEq, Item.terminals.injEq, Item.nonterminals.injEq] at hstatements
  obtain ⟨rfl, rfl, rfl, rfl, rfl, rfl, _⟩ := hstatements
  cases hrules
  rfl

end

end Notation

section

variable [Host]

/-- A grammar that is printed to a file is loaded from it, but an empty id is replaced. -/
theorem loadContents_print {g : Grammar} (h : g.WellFormed) {source : String}
    (hsource : Notation.print g.view = source) {path : String}
    (hpath : Files.isRecordPath path = false) :
    ∃ log, loadContents path (.ok (Text.Utf8.encode source.toList)) =
      .ok ⟨{ g with id := Notation.printedId g.id Notation.unnamedId }, log⟩ := by
  have hreturn := Notation.return_notMem_print g.view
  rw [hsource, Text.chars_ofString] at hreturn
  have hparse := Notation.parse_print_of_wellFormed h hsource Notation.unnamedId
  rw [← String.ofList_toList (s := source)] at hparse
  obtain ⟨log, hlog⟩ := Notation.loadNotation_eq_ok_iff.2 hparse
  refine ⟨log, ?_⟩
  simp only [loadContents, loadGrammar, loadText_encode hreturn, hpath, Bool.false_eq_true,
    if_false]
  exact hlog

end

/-! ## The round -/

theorem Grammar.same_withId {g : Grammar} (h : g.WellFormed) (id : Text) :
    { g with id := id }.same g = true ↔ id = g.id := by
  have hwell : { g with id := id }.WellFormed := ⟨h.terminals, h.nonterminals, h.rules⟩
  rw [same_iff hwell]
  constructor
  · exact fun e => e.id
  · rintro rfl
    exact .refl g

section

variable [Host]

theorem Grammar.print_withId {g : Grammar} (h : g.WellFormed) {source : String}
    (hsource : Notation.print g.view = source) (id : Text) :
    Notation.print { g with id := id }.view = source ↔ id = g.id := by
  constructor
  · intro htext
    have hnormal := Notation.normalRules_items h.rules
    have hview : { g with id := id }.view = g.view :=
      Notation.eq_of_print hnormal hnormal htext hsource
    exact congrArg View.id hview
  · rintro rfl
    exact hsource

end

theorem Notation.printedId_eq_iff {id freshId : Text} (h : freshId ≠ []) :
    printedId id freshId = id ↔ id ≠ [] := by
  unfold printedId
  by_cases hid : id = []
  · simp [hid, h]
  · simp [hid]

namespace CommandLine

theorem shown_eq_success_iff {t : Text} {s : String} : shown [] t = .success s [] ↔ t = s := by
  constructor
  · intro h
    unfold shown at h
    split at h
    · have hending := congrArg Outcome.ending h
      simp [failed, report?, Outcome.success] at hending
    · rename_i s' hs'
      have hstdout : s' = s := congrArg Outcome.stdout h
      rw [← hstdout]
      exact Text.Utf8.encodable_eq_ok_iff.1 hs'
  · rintro rfl
    exact shown_ofString [] s

section

variable [Host]

/-- What `fmt` prints of a grammar is a text that loads as the grammar and is printed as it is,
unless the id is empty. A text in the notation never gives an empty id. -/
theorem fmt_canonical {file : String} {arguments : List String} {t : Files.Tree} {l : Loaded}
    (hasks : Asks .fmt file arguments) (hload : loadContents file (t.read file) = .ok l) :
    (Files.isRecordPath file = false → l.grammar.id ≠ []) ∧
      (l.grammar.view.IsWhole →
        ∃ text, (run treeStorage arguments).run t = (.success text [], t)) ∧
      ∀ {text : String}, (run treeStorage arguments).run t = (.success text [], t) →
        ∀ {saved : String} {again : List String} {t' : Files.Tree}, Asks .fmt saved again →
          Files.isRecordPath saved = false →
          t'.read saved = .ok (Text.Utf8.encode text.toList) →
          ∃ l', loadContents saved (t'.read saved) = .ok l' ∧
            l'.grammar =
              { l.grammar with id := Notation.printedId l.grammar.id Notation.unnamedId } ∧
            (l'.grammar.same l.grammar = true ↔ l.grammar.id ≠ []) ∧
            ((run treeStorage again).run t' = (.success text [], t') ↔ l.grammar.id ≠ []) := by
  obtain ⟨hreachable, hid⟩ := loaded_of_loadContents hload
  have hwell := hreachable.wellFormed
  have hprints : ∀ {text : String}, (run treeStorage arguments).run t = (.success text [], t) ↔
      Notation.print l.grammar.view = text := by
    intro text
    rw [run_tree hasks, hload, Prod.mk.injEq, and_iff_left rfl]
    exact shown_eq_success_iff
  refine ⟨hid, fun hwhole => ?_, fun htext => ?_⟩
  · obtain ⟨text, htext⟩ := Notation.exists_print hwhole
    exact ⟨text, hprints.2 htext⟩
  intro saved again t' hasks' hsaved hread
  obtain ⟨log, hlog⟩ := loadContents_print hwell (hprints.1 htext) hsaved
  rw [← hread] at hlog
  have hkept : Notation.printedId l.grammar.id Notation.unnamedId = l.grammar.id ↔
      l.grammar.id ≠ [] := Notation.printedId_eq_iff (by decide)
  refine ⟨_, hlog, rfl, ?_, ?_⟩
  · rw [Grammar.same_withId hwell, hkept]
  · rw [run_tree hasks', hlog, ← hkept, ← Grammar.print_withId hwell (hprints.1 htext),
      Prod.mk.injEq, and_iff_left rfl]
    exact shown_eq_success_iff

end

def savedTree (record text : String) : Files.Tree :=
  (recordTree record).putFile ⟨.working, ["b.g"]⟩ (Text.Utf8.encode text.toList)

theorem read_savedTree (record text : String) :
    (savedTree record text).read "b.g" = .ok (Text.Utf8.encode text.toList) := by
  have hplace : (savedTree record text).locate "b.g" =
      .ok (.file ⟨.working, ["b.g"]⟩ (Text.Utf8.encode text.toList)) := rfl
  simp [Files.Tree.read, hplace]

theorem textPath : Files.isRecordPath "b.g" = false := by decide

section

open scoped Host

/-- A record with a number for an id, a carriage return for a start symbol, and a head without
bodies. -/
def numberedRecord : String :=
  "\x7b\"id\": 7, \"startSymbol\": \"\\r\", \"rules\": [\x7b\"head\": [\"A\"]\x7d]\x7d"

theorem fmt_canonical_numberedRecord :
    ∃ l text, loadContents "a.json" ((recordTree numberedRecord).read "a.json") = .ok l ∧
      l.grammar.id = "7" ∧ l.grammar.start = ⟨"\r"⟩ ∧
      (run treeStorage ["fmt", "a.json"]).run (recordTree numberedRecord) =
        (.success text [], recordTree numberedRecord) ∧
      (run treeStorage ["fmt", "b.g"]).run (savedTree numberedRecord text) =
        (.success text [], savedTree numberedRecord text) := by
  have hread : Record.read numberedRecord =
      .ok ⟨"7", "\r", "", [], [], [⟨["A"], []⟩], none⟩ :=
    Notation.eq_ok_of_toOption (by decide +kernel)
  obtain ⟨log, hload⟩ := loadContents_record recordPath (by decide) hread
  rw [← read_recordTree] at hload
  have hasks : Asks .fmt "a.json" ["fmt", "a.json"] := .plain (by decide)
  have hasks' : Asks .fmt "b.g" ["fmt", "b.g"] := .plain (by decide)
  obtain ⟨-, hprints, hagain⟩ := fmt_canonical hasks hload
  have hwhole : (Grammar.ofRecord ⟨"7", "\r", "", [], [], [⟨["A"], []⟩], none⟩).view.IsWhole := by
    decide +kernel
  obtain ⟨text, hrun⟩ := hprints hwhole
  obtain ⟨l', -, -, -, hrun'⟩ := hagain hrun hasks' textPath (read_savedTree numberedRecord text)
  exact ⟨_, text, hload, rfl, rfl, hrun, hrun'.2 (show Text.ofString "7" ≠ [] by decide)⟩

def namelessRecord : String := "\x7b\"id\": \"\", \"startSymbol\": \"S\"\x7d"

/-- An empty id, which only a record can give, does not come back. -/
theorem not_fmt_canonical_of_emptyId :
    ¬∀ (t t' : Files.Tree) (file saved text : String) (l : Loaded),
      file.toList.head? ≠ some '-' → saved.toList.head? ≠ some '-' →
      loadContents file (t.read file) = .ok l →
      (run treeStorage ["fmt", file]).run t = (.success text [], t) →
      Files.isRecordPath saved = false → t'.read saved = .ok (Text.Utf8.encode text.toList) →
      ∃ l', loadContents saved (t'.read saved) = .ok l' ∧ l'.grammar.same l.grammar = true ∧
        (run treeStorage ["fmt", saved]).run t' = (.success text [], t') := by
  intro h
  have hfile : "a.json".toList.head? ≠ some '-' := by decide
  have hsaved : "b.g".toList.head? ≠ some '-' := by decide
  have hread : Record.read namelessRecord = .ok ⟨"", "S", "", [], [], [], none⟩ :=
    Notation.eq_ok_of_toOption (by decide +kernel)
  obtain ⟨log, hload⟩ := loadContents_record recordPath (by decide) hread
  rw [← read_recordTree] at hload
  have hwell := (loaded_of_loadContents hload).1.wellFormed
  have hwhole : (Grammar.ofRecord ⟨"", "S", "", [], [], [], none⟩).view.IsWhole := by
    decide +kernel
  obtain ⟨text, htext⟩ := Notation.exists_print hwhole
  obtain ⟨log', hload'⟩ := loadContents_print hwell htext textPath
  have hrun := run_tree (.plain (c := .fmt) hfile) (recordTree namelessRecord)
  simp only [hload, reply, shown_eq_success_iff.2 htext] at hrun
  obtain ⟨l', hl', hsame, -⟩ := h (recordTree namelessRecord) (savedTree namelessRecord _)
    "a.json" "b.g" _ _ hfile hsaved hload hrun textPath (read_savedTree namelessRecord _)
  rw [read_savedTree, hload'] at hl'
  cases hl'
  rw [Grammar.same_withId hwell] at hsame
  exact absurd hsame (show Text.ofString Notation.unnamedId ≠ [] by decide)

end

end CommandLine

end PhraseGrammar
