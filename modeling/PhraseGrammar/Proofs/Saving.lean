import PhraseGrammar.Proofs.Loading
import PhraseGrammar.Proofs.Paths
import PhraseGrammar.Proofs.Storing

/-!
# PhraseGrammar.Proofs.Saving

A grammar that is dumped to a file is loaded from it again.

* `loadContents_dump`: what is dumped is loaded as the grammar with the type that its rules have.
* `Indentation.Fits`: an indentation that the writer can lay out.
* `run_dump`: all that a dump to a file can do. `exit_of_fits` says when it ends well, and
  `save_of_exit` what it has written then.

`dump_restores` is the way from a file over a dump to a check. It needs an indentation that fits and
a spelling of the path at which the system finds the file, one that ends in a name and is not too
long: `not_dump_restores` does without each of the three in turn.
-/

namespace PhraseGrammar

/-! ## Dumped texts -/

section

variable [Host]

theorem loadContents_dump {g : Grammar} (h : g.WellFormed) {layout : Json.Layout} {text : String}
    (htext : g.reclassify.view.record.write layout = text) {path : String}
    (hpath : Files.isRecordPath path = true) :
    ∃ log, loadContents path (.ok (Text.Utf8.encode (text ++ "\n").toList)) =
      .ok ⟨g.reclassify, log⟩ := by
  have hwell : g.reclassify.WellFormed := ⟨h.terminals, h.nonterminals, h.rules⟩
  have hreturn := Record.return_notMem_write layout g.reclassify.view.record
  rw [htext, Text.chars_ofString] at hreturn
  have hload := loadContents_record hpath (by simp [hreturn]) (Record.read_line_of_write htext)
  rwa [Grammar.ofRecord_record hwell] at hload

end

namespace CommandLine

/-! ## Runs that dump to a file -/

theorem ending_failed_ne (before : List Text) (e : RunError) :
    (failed before e).ending ≠ .exit 0 := by
  unfold failed
  split <;> simp [Outcome.failure]

section

variable [Host]

/-- An indentation that the writer can lay out: none, or one that fits a machine word and for which
there is room. -/
def Indentation.Fits : Indentation → Prop
  | .none => True
  | .width n => -Json.Layout.wordBound ≤ n ∧ n < Json.Layout.wordBound ∧ n ≤ Host.widest
  | .missing => False

theorem dumpText_of_fits {g : Grammar} (hwhole : g.view.IsWhole) {indentation : Indentation}
    (h : indentation.Fits) : ∃ text : String, dumpText g indentation = .ok text := by
  obtain ⟨indent, hindent, hwidth⟩ : ∃ indent, widthOf indentation = .ok indent ∧
      ∀ n ∈ indent, -Json.Layout.wordBound ≤ n ∧ n < Json.Layout.wordBound ∧ n ≤ Host.widest := by
    cases indentation with
    | none => exact ⟨none, rfl, nofun⟩
    | width n => exact ⟨some n, rfl, fun m hm => by cases hm; exact h⟩
    | missing => exact h.elim
  obtain ⟨layout, hlayout⟩ := Record.ofIndent_of_le hwidth
  have hwhole' : g.reclassify.view.IsWhole := { hwhole with }
  obtain ⟨text, htext⟩ := View.exists_write hwhole' layout
  exact ⟨text, by simp only [dumpText, hindent, Record.writeIndented, hlayout, htext]⟩

theorem eq_write_of_dumpText {g : Grammar} {indentation : Indentation} {text : Text}
    (h : dumpText g indentation = .ok text) :
    ∃ layout, g.reclassify.view.record.write layout = text := by
  unfold dumpText at h
  split at h
  · cases h
  · split at h
    · cases h
    · rename_i hwrite
      cases h
      unfold Record.writeIndented at hwrite
      split at hwrite <;> cases hwrite
      exact ⟨_, rfl⟩

variable {arguments : List String} {r : Request} {out : String} {t : Files.Tree} {l : Loaded}

structure DumpsTo (arguments : List String) (r : Request) (out : String) : Prop where
  parsed : parseArguments arguments = .ok r
  command : r.command = .dump
  output : r.output = some out
  id : r.id = none

theorem run_write (t : Files.Tree) (path : Files.FilePath) (text : String) :
    (∃ e t', t.save path (Text.Utf8.encode text.toList) = .error e ∧
      (treeStorage.write path text).run t = (.error e, t')) ∨
    ∃ t', t.save path (Text.Utf8.encode text.toList) = .ok t' ∧
      (treeStorage.write path text).run t = (.ok (), t') := by
  simp only [Files.Tree.save, treeStorage, StateT.run_bind, StateT.run_get, pure_bind]
  cases t.makeDirectories path.parent with
  | error e => exact .inl ⟨e, t, rfl, rfl⟩
  | ok made =>
    simp only [StateT.run_bind, StateT.run_set, pure_bind]
    cases made.write path.text (Text.Utf8.encode text.toList) with
    | error e => exact .inl ⟨e, made, rfl, rfl⟩
    | ok t' => exact .inr ⟨t', rfl, rfl⟩

/-- A text is not written if half of a pair stands in it, or if its octets cannot be. -/
theorem run_save (t : Files.Tree) (path : Files.FilePath) (text : Text) :
    (∃ e t', (save treeStorage path text).run t = (.error e, t') ∧
      ∀ s : String, text = s → ∃ e, t.save path (Text.Utf8.encode s.toList) = .error e) ∨
    ∃ (s : String) (t' : Files.Tree), text = s ∧
      t.save path (Text.Utf8.encode s.toList) = .ok t' ∧
      (save treeStorage path text).run t = (.ok (), t') := by
  unfold save
  cases htext : Text.Utf8.encodable text with
  | error fault =>
    have hhalf : ∀ s : String, text ≠ s := by
      intro s hs
      rw [Text.Utf8.encodable_eq_ok_iff.2 hs] at htext
      cases htext
    refine .inl ?_
    simp only [StateT.run_bind]
    rcases run_write t path "" with ⟨e, t', -, hwrite⟩ | ⟨t', -, hwrite⟩ <;> rw [hwrite]
    · exact ⟨_, t', rfl, fun s hs => absurd hs (hhalf s)⟩
    · exact ⟨_, t', rfl, fun s hs => absurd hs (hhalf s)⟩
  | ok s =>
    obtain rfl := Text.Utf8.encodable_eq_ok_iff.1 htext
    simp only [StateT.run_bind]
    rcases run_write t path s with ⟨e, t', hsave, hwrite⟩ | ⟨t', hsave, hwrite⟩ <;> rw [hwrite]
    · refine .inl ⟨_, t', rfl, fun s' hs' => ⟨e, ?_⟩⟩
      rw [← Text.ofString_injective hs', hsave]
    · exact .inr ⟨s, t', rfl, hsave, rfl⟩

/-- All that a dump to a file can do: it stops before the text or at the file, or it says where the
file is. -/
theorem run_dump (h : DumpsTo arguments r out) (hout : out ≠ "")
    (hload : loadContents r.file (t.read r.file) = .ok l) :
    (∃ e before, dumpText l.grammar r.indentation = .error e ∧
      (run treeStorage arguments).run t = (failed before e, t)) ∨
    (∃ text e before t', dumpText l.grammar r.indentation = .ok text ∧
      (run treeStorage arguments).run t = (failed before e, t') ∧
      ∀ s : String, text = s →
        ∃ e, t.save (.ofText out) (Text.Utf8.encode (s ++ "\n").toList) = .error e) ∨
    ∃ (text : String) (t' : Files.Tree) (stderr : List Text),
      dumpText l.grammar r.indentation = .ok text ∧
      t.save (.ofText out) (Text.Utf8.encode (text ++ "\n").toList) = .ok t' ∧
      (run treeStorage arguments).run t =
        (.success ("[EMIT] record -> " ++ (Files.FilePath.ofText out).text ++ "\n") stderr,
          t') := by
  have hpath : outputPath? r = some (.ofText out) := by
    simp [outputPath?, h.output, hout]
  rw [run_request h.parsed h.id, hload]
  simp only [perform, h.command]
  cases dumpText l.grammar r.indentation with
  | error e => exact .inl ⟨e, _, rfl, rfl⟩
  | ok text =>
    refine .inr ?_
    simp only [emit, hpath, StateT.run_bind]
    rcases run_save t (.ofText out) (text ++ "\n") with ⟨e, t', hrun, herror⟩ |
      ⟨s, t', hs, hsave, hrun⟩
    · rw [hrun]
      refine .inl ⟨text, e, _, t', rfl, rfl, ?_⟩
      rintro s rfl
      exact herror _ (Text.ofString_append s "\n").symm
    · rw [hrun]
      have hwhole : text.IsWhole := by
        have hline : Text.IsWhole (text ++ "\n") := by rw [hs]; exact Text.isWhole_ofString s
        exact (Text.isWhole_append_iff.1 hline).1
      obtain ⟨body, rfl⟩ : ∃ body : String, text = body := ⟨_, (Text.ofString_chars hwhole).symm⟩
      rw [← Text.ofString_append] at hs
      obtain rfl := Text.ofString_injective hs
      exact .inr ⟨body, t', _, rfl, hsave, rfl⟩

theorem exit_of_fits (h : DumpsTo arguments r out) (hout : out ≠ "")
    (hload : loadContents r.file (t.read r.file) = .ok l) (hwhole : l.grammar.view.IsWhole)
    (hfits : r.indentation.Fits) (hwritable : t.Writable (.ofText out)) :
    ((run treeStorage arguments).run t).1.ending = .exit 0 := by
  obtain ⟨text, htext⟩ := dumpText_of_fits hwhole hfits
  obtain ⟨t', hsave⟩ := hwritable.save (Text.Utf8.encode (text ++ "\n").toList)
  rcases run_dump h hout hload with ⟨e, before, herror, -⟩ |
    ⟨text', e, before, t'', htext', -, herror⟩ | ⟨text', t'', stderr, -, -, hrun⟩
  · rw [htext] at herror
    cases herror
  · rw [htext] at htext'
    cases htext'
    obtain ⟨e, herror⟩ := herror text rfl
    rw [hsave] at herror
    cases herror
  · rw [hrun]
    rfl

theorem save_of_exit (h : DumpsTo arguments r out) (hout : out ≠ "")
    (hload : loadContents r.file (t.read r.file) = .ok l)
    (hexit : ((run treeStorage arguments).run t).1.ending = .exit 0) :
    ∃ (layout : Json.Layout) (text : String),
      l.grammar.reclassify.view.record.write layout = text ∧
      t.save (.ofText out) (Text.Utf8.encode (text ++ "\n").toList) =
        .ok ((run treeStorage arguments).run t).2 := by
  rcases run_dump h hout hload with ⟨e, before, -, hrun⟩ | ⟨text, e, before, t', -, hrun, -⟩ |
    ⟨text, t', stderr, htext, hsave, hrun⟩
  · rw [hrun] at hexit
    exact absurd hexit (ending_failed_ne before e)
  · rw [hrun] at hexit
    exact absurd hexit (ending_failed_ne before e)
  · obtain ⟨layout, hwrite⟩ := eq_write_of_dumpText htext
    refine ⟨layout, text, hwrite, ?_⟩
    rw [hrun]
    exact hsave

/-- A grammar that is dumped to a record is found there with the type that its rules have, and is
checked as before but for the warning about its type. -/
theorem dump_restores (h : DumpsTo arguments r out) (hrecord : Files.isRecordPath out = true)
    (hload : loadContents r.file (t.read r.file) = .ok l) :
    (l.grammar.view.IsWhole → r.indentation.Fits → t.Writable (.ofText out) →
      ((run treeStorage arguments).run t).1.ending = .exit 0) ∧
    ∀ {outcome : Outcome} {t' : Files.Tree}, (run treeStorage arguments).run t = (outcome, t') →
      outcome.ending = .exit 0 → ∀ {saved : String}, Files.Tree.FoundAt out saved →
        ∃ l', loadContents saved (t'.read saved) = .ok l' ∧
          l'.grammar.view.record =
            { l.grammar.view.record with type := some l.grammar.view.classify } ∧
          typeWarning l'.grammar.view = [] ∧
          ∀ {asked again : List String}, Asks .check r.file asked → Asks .check saved again →
            (run treeStorage asked).run t =
              (.success (checkLine l.grammar.view ++ "\n") (typeWarning l.grammar.view), t) ∧
            (run treeStorage again).run t' =
              (.success (checkLine l.grammar.view ++ "\n") [], t') := by
  have hout : out ≠ "" := by
    rintro rfl
    revert hrecord
    decide
  refine ⟨exit_of_fits h hout hload, ?_⟩
  intro outcome t' hrun hexit saved hsaved
  have hsave := save_of_exit h hout hload (by rw [hrun]; exact hexit)
  rw [hrun] at hsave
  obtain ⟨layout, text, htext, hsave⟩ := hsave
  have hwell := (loaded_of_loadContents hload).1.wellFormed
  have hpath : Files.isRecordPath saved = true := by rw [hsaved.isRecordPath_eq, hrecord]
  obtain ⟨log, hlog⟩ := loadContents_dump hwell htext hpath
  rw [← hsaved.read hsave] at hlog
  have hwarning : typeWarning l.grammar.reclassify.view = [] := if_pos rfl
  refine ⟨_, hlog, rfl, hwarning, fun hasked hagain => ⟨?_, ?_⟩⟩
  · rw [run_tree hasked, hload]
    rfl
  · rw [run_tree hagain, hlog]
    simp only [reply, hwarning]
    rfl

end

section

open scoped Host

/-! ## A record that is dumped beside itself -/

theorem save_recordTree (record : String) (octets : List UInt8) :
    (recordTree record).save ⟨"", ["b.json"]⟩ octets =
      .ok ((recordTree record).putFile ⟨.working, ["b.json"]⟩ octets) := by
  have hworking : (recordTree record).locate "." = .ok (.directory .working) := rfl
  have hplace : (recordTree record).locate "b.json" = .ok (.absent ⟨.working, ["b.json"]⟩) := rfl
  have hmade : (recordTree record).makeDirectories ⟨"", []⟩ = .ok (recordTree record) :=
    Files.Tree.makeDirectories_of_directory (by decide) hworking
  have hwrite : (recordTree record).write "b.json" octets =
      .ok ((recordTree record).putFile ⟨.working, ["b.json"]⟩ octets) := by
    simp [Files.Tree.write, hplace]
  exact Files.Tree.save_eq_ok_iff.2 ⟨_, hmade, hwrite⟩

theorem read_missing (record : String) :
    (recordTree record).read "b.json" = .error (.system .notFound "b.json") := by
  have hplace : (recordTree record).locate "b.json" = .ok (.absent ⟨.working, ["b.json"]⟩) := rfl
  simp [Files.Tree.read, hplace]

/-- A record with an empty id, a carriage return for a terminal, and a type that its rules do not
have. -/
def staleRecord : Record := ⟨"", "S", "", [], ["\r"], [⟨["A"], [["\r"]]⟩], some .contextFree⟩

def staleText : String := String.ofList (staleRecord.write .oneLine).chars

theorem load_staleText : ∃ log, loadContents "a.json" ((recordTree staleText).read "a.json") =
    .ok ⟨.ofRecord staleRecord, log⟩ := by
  have htext : staleRecord.write .oneLine = staleText :=
    (Text.ofString_chars (by decide +kernel)).symm
  have hreturn := Record.return_notMem_write .oneLine staleRecord
  rw [htext, Text.chars_ofString] at hreturn
  rw [read_recordTree]
  exact loadContents_record recordPath hreturn (Record.read_of_write htext)

theorem isWhole_staleRecord : (Grammar.ofRecord staleRecord).view.IsWhole := by
  decide +kernel

theorem dump_restores_staleRecord :
    ∃ outcome t' l', (run treeStorage ["dump", "a.json", "--indent=-3", "-Do.//b.json"]).run
        (recordTree staleText) = (outcome, t') ∧
      outcome.ending = .exit 0 ∧
      loadContents ".//b.json" (t'.read ".//b.json") = .ok l' ∧
      l'.grammar.view.record = { staleRecord with type := some .regular } ∧
      (run treeStorage ["check", "a.json"]).run (recordTree staleText) =
        (.success "[CHECK OK] type=REGULAR heads=1 productions=1\n"
          ["[WARN] stored type CONTEXT_FREE differs from computed type REGULAR"],
          recordTree staleText) ∧
      (run treeStorage ["check", ".//b.json"]).run t' =
        (.success "[CHECK OK] type=REGULAR heads=1 productions=1\n" [], t') := by
  have hrecord : { (Grammar.ofRecord staleRecord).view.record with
        type := some (Grammar.ofRecord staleRecord).view.classify } =
      { staleRecord with type := some .regular } := by decide +kernel
  have hline : checkLine (Grammar.ofRecord staleRecord).view ++ "\n" =
      "[CHECK OK] type=REGULAR heads=1 productions=1\n" := by decide +kernel
  have hwarning : typeWarning (Grammar.ofRecord staleRecord).view =
      ["[WARN] stored type CONTEXT_FREE differs from computed type REGULAR"] := by decide +kernel
  obtain ⟨log, hload⟩ := load_staleText
  have hdumps : DumpsTo ["dump", "a.json", "--indent=-3", "-Do.//b.json"]
      ⟨.dump, "a.json", some ".//b.json", .width (-3), none, true⟩ ".//b.json" :=
    ⟨Notation.eq_ok_of_toOption (by decide +kernel), rfl, rfl, rfl⟩
  have hfits : (Indentation.width (-3)).Fits := by
    simp only [Indentation.Fits]
    decide
  have hpath : Files.FilePath.ofText ".//b.json" = ⟨"", ["b.json"]⟩ := by decide
  have hwritable : (recordTree staleText).Writable (.ofText ".//b.json") := by
    rw [hpath]
    exact ⟨[], _, save_recordTree staleText []⟩
  have hfound : Files.Tree.FoundAt ".//b.json" ".//b.json" := .spelled (by decide) (by decide)
  have hasked : Asks .check "a.json" ["check", "a.json"] := .plain (by decide)
  have hagain : Asks .check ".//b.json" ["check", ".//b.json"] := .plain (by decide)
  obtain ⟨hexit, hrestores⟩ := dump_restores hdumps (by decide) hload
  have hexit := hexit isWhole_staleRecord hfits hwritable
  cases hrun : (run treeStorage ["dump", "a.json", "--indent=-3", "-Do.//b.json"]).run
      (recordTree staleText) with
  | mk outcome t' =>
    rw [hrun] at hexit
    obtain ⟨l', hl', hsaved, -, hcheck⟩ := hrestores hrun hexit hfound
    obtain ⟨hbefore, hafter⟩ := hcheck hasked hagain
    rw [hline, hwarning] at hbefore
    rw [hline] at hafter
    exact ⟨outcome, t', l', rfl, hexit, hl', hsaved.trans hrecord, hbefore, hafter⟩

/-! ## Where a record is not found -/

/-- Whether a record that is dumped is found at the path that it is dumped to, whatever the request
and the path are, if they have a property. -/
def FoundWhenever (P : Request → String → Prop) : Prop :=
  ∀ (arguments : List String) (r : Request) (out : String) (t : Files.Tree) (l : Loaded),
    DumpsTo arguments r out → Files.isRecordPath out = true →
    loadContents r.file (t.read r.file) = .ok l → l.grammar.view.IsWhole →
    t.Writable (.ofText out) → P r out →
    ∃ l', loadContents out (((run treeStorage arguments).run t).2.read out) = .ok l'

theorem dumpsTo_output {file out : String} (hfile : file.toList.head? ≠ some '-')
    (hout : out.toList.head? ≠ some '-') :
    DumpsTo ["dump", file, "-o", out] ⟨.dump, file, some out, .none, none, false⟩ out := by
  have hoption : classify (.command .dump) "-o" =
      .ok (.option "-o" (some ⟨.output, "-o", none⟩)) :=
    Notation.eq_ok_of_toOption (by decide +kernel)
  have hclassify : classifyAll (.command .dump) [file, "-o", out] =
      .ok [.plain file, .option "-o" (some ⟨.output, "-o", none⟩), .plain out] := by
    simp only [classifyAll, if_neg (ne_separator_of_head hfile), classify_of_head hfile, hoption,
      if_neg (ne_separator_of_head hout), classify_of_head hout]
    rfl
  refine ⟨parseArguments_command (c := .dump) ?_, rfl, rfl, rfl⟩
  simp only [readCommand, hclassify]
  rfl

/-- A record that is dumped to a path with the normal form `b.json` is not found if the path leads
to no file. -/
theorem not_foundWhenever {P : Request → String → Prop} {out : String}
    (hhead : out.toList.head? ≠ some '-') (hpath : Files.FilePath.ofText out = ⟨"", ["b.json"]⟩)
    (hread : ∀ octets, ∃ e,
      ((recordTree staleText).putFile ⟨.working, ["b.json"]⟩ octets).read out = .error e)
    (hP : P ⟨.dump, "a.json", some out, .none, none, false⟩ out) : ¬FoundWhenever P := by
  intro hfound
  obtain ⟨log, hload⟩ := load_staleText
  have hdumps : DumpsTo ["dump", "a.json", "-o", out] _ out := dumpsTo_output (by decide) hhead
  have hout : out ≠ "" := by
    rintro rfl
    revert hpath
    decide
  have hrecord : Files.isRecordPath out = true := by
    rw [Files.isRecordPath, hpath]
    decide
  have hwritable : (recordTree staleText).Writable (.ofText out) := by
    rw [hpath]
    exact ⟨[], _, save_recordTree staleText []⟩
  obtain ⟨l', hl'⟩ := hfound _ _ _ _ _ hdumps hrecord hload isWhole_staleRecord hwritable hP
  obtain ⟨layout, text, -, hsave⟩ := save_of_exit hdumps hout hload
    (exit_of_fits hdumps hout hload isWhole_staleRecord trivial hwritable)
  rw [hpath, save_recordTree, Except.ok.injEq] at hsave
  obtain ⟨e, he⟩ := hread _
  rw [← hsave, he] at hl'
  cases hl'

theorem not_foundWhenever_of_beyondWord {P : Request → String → Prop}
    (hP : P ⟨.dump, "a.json", some "b.json", .width (-9223372036854775809), none, false⟩ "b.json") :
    ¬FoundWhenever P := by
  intro hfound
  obtain ⟨log, hload⟩ := load_staleText
  have hdumps : DumpsTo ["dump", "a.json", "--indent", "-9223372036854775809", "-o", "b.json"]
      ⟨.dump, "a.json", some "b.json", .width (-9223372036854775809), none, false⟩ "b.json" :=
    ⟨Notation.eq_ok_of_toOption (by decide +kernel), rfl, rfl, rfl⟩
  have hpath : Files.FilePath.ofText "b.json" = ⟨"", ["b.json"]⟩ := by decide
  have hwritable : (recordTree staleText).Writable (.ofText "b.json") := by
    rw [hpath]
    exact ⟨[], _, save_recordTree staleText []⟩
  obtain ⟨l', hl'⟩ := hfound _ _ _ _ _ hdumps (by decide) hload isWhole_staleRecord hwritable hP
  have htext : dumpText (Grammar.ofRecord staleRecord) (.width (-9223372036854775809)) =
      .error (.layout .beyondWord) := rfl
  rcases run_dump hdumps (by decide) hload with ⟨e, before, -, hrun⟩ | ⟨text, -, -, -, hok, -⟩ |
    ⟨text, -, -, hok, -⟩
  · rw [hrun, read_missing] at hl'
    cases hl'
  · rw [htext] at hok
    cases hok
  · rw [htext] at hok
    cases hok

theorem read_slash (record : String) (octets : List UInt8) :
    ((recordTree record).putFile ⟨.working, ["b.json"]⟩ octets).read "b.json/" =
      .error (.system .notDirectory "b.json/") := by
  have hplace : ((recordTree record).putFile ⟨.working, ["b.json"]⟩ octets).locate "b.json/" =
      .error .notDirectory := rfl
  simp [Files.Tree.read, hplace]

/-- A path of more than 4095 octets, of which the normal form is `b.json`. -/
def longPath : String := String.ofList (Files.dotted 2048 "b.json".toList)

/-- A record need not be found where it was dumped to if the indentation does not fit, and it may be
a negative one, if the path does not end in a name, or if it is too long as it is spelled. -/
theorem not_dump_restores :
    (¬FoundWhenever fun r out => r.indentation ≠ .missing ∧ Files.EndsInName out ∧
      Files.Tree.octetCount out.toList ≤ Files.Tree.pathLimit) ∧
    (¬FoundWhenever fun r out => r.indentation.Fits ∧
      Files.Tree.octetCount out.toList ≤ Files.Tree.pathLimit) ∧
    ¬FoundWhenever fun r out => r.indentation.Fits ∧ Files.EndsInName out := by
  refine ⟨not_foundWhenever_of_beyondWord ⟨by decide, by decide, by decide⟩, ?_, ?_⟩
  · have hpath : Files.FilePath.ofText "b.json/" = ⟨"", ["b.json"]⟩ := by decide
    exact not_foundWhenever (by decide) hpath (fun octets => ⟨_, read_slash staleText octets⟩)
      ⟨trivial, by decide⟩
  · have hlong : Files.Tree.pathLimit < Files.Tree.octetCount longPath.toList := by
      rw [longPath, String.toList_ofList, Files.Tree.octetCount_dotted]
      decide
    have hpath : Files.FilePath.ofText longPath = ⟨"", ["b.json"]⟩ := by
      rw [longPath, Files.FilePath.ofText_dotted]
      decide
    have hhead : longPath.toList.head? ≠ some '-' := by
      rw [longPath, String.toList_ofList]
      decide
    have hname : Files.EndsInName longPath := by
      rw [longPath, Files.EndsInName, String.toList_ofList, Files.getLast?_components_dotted]
      decide
    exact not_foundWhenever hhead hpath (fun octets => Files.Tree.read_of_long _ hlong)
      ⟨trivial, hname⟩

end

end CommandLine

end PhraseGrammar
