import PhraseGrammar.CommandLine.Run
import PhraseGrammar.Proofs.Blame
import PhraseGrammar.Proofs.Encoding
import PhraseGrammar.Proofs.JsonFaults
import PhraseGrammar.Proofs.Malformed
import PhraseGrammar.Proofs.Printing
import PhraseGrammar.Proofs.Storing

/-!
# PhraseGrammar.Proofs.Reports

How a command on a file ends.

* `LoadError.Silent`: the errors that are not reported. `report?_eq_none_iff`: there are no others.
* `Unreportable`: what a file is like of which the error is not reported.
* `Asks`: the arguments that name a command and a file.
* `answer_eq`: a request reads one file first. `answer_plain`: a command without options then says
  its `reply` and does not come back to the files.
* `ending_reply`: what is said ends well, but half of a pair cannot be printed.

`run_ending` leaves these cases: there is a grammar and the code is 0, or an error that is reported
and the code is 2, or a silent error and no code, or a grammar that cannot be printed and no code.
With a silent error the file is unreportable, and it does occur: `not_all_reported`.
-/

namespace PhraseGrammar

/-- The errors that a run does not report. -/
inductive LoadError.Silent : LoadError → Prop where
  | file {e : FileError} : (∀ problem path, e ≠ .system problem path) → Silent (.file e)
  | encoding (fault : Text.Utf8.Fault) : Silent (.encoding fault)
  | nul (text : List Char) : Silent (.text ⟨text, .literal .nul⟩)
  | hugeInteger (digits : Nat) : Silent (.record (.json (.hugeInteger digits)))
  | tooDeep : Silent (.record (.json .tooDeep))
  | notIterable (kind : Kind) : Silent (.record (.record (.notIterable kind)))
  | noText (e : DisplayError) : Silent (.record (.record (.noText e)))

section

variable [Host]

def loadContents (path : String) : Except FileError (List UInt8) → Except LoadError Loaded
  | .error e => .error (.file e)
  | .ok octets => loadGrammar path octets none

/-- The files of which the error may be silent: paths that no file system refuses but that are
refused all the same, octets that are no text, records that nest too deep, with too long an integer,
with rules that cannot be gone through or with a value that has no text, and texts with a nul
between quotes. -/
inductive Unreportable (path : String) : Except FileError (List UInt8) → Prop where
  | refused {e : FileError} :
      (∀ problem p, e ≠ .system problem p) → Unreportable path (.error e)
  | octets {octets : List UInt8} :
      (∀ text, octets ≠ Text.Utf8.encode text) → Unreportable path (.ok octets)
  | hugeInteger {octets : List UInt8} {text : List Char} {n : Nat} :
      loadText octets = .ok text → Files.isRecordPath path = true →
      Json.HoldsHugeInteger text n → Unreportable path (.ok octets)
  | tooDeep {octets : List UInt8} {text : List Char} :
      loadText octets = .ok text → Files.isRecordPath path = true →
      Json.OpensMany text Host.readingCalls → Unreportable path (.ok octets)
  | rules {octets : List UInt8} {text : List Char} {fields : List (Text × Value)} :
      loadText octets = .ok text → Files.isRecordPath path = true →
      Json.read (String.ofList text) = .ok (.object fields) → UnwalkableRules fields →
      Unreportable path (.ok octets)
  | textless {octets : List UInt8} {text : List Char} {fields : List (Text × Value)}
      {e : DisplayError} :
      loadText octets = .ok text → Files.isRecordPath path = true →
      Json.read (String.ofList text) = .ok (.object fields) → Textless fields e →
      Unreportable path (.ok octets)
  | nul {octets : List UInt8} {text : List Char} {s : Notation.Scan} {t : Notation.Token} :
      loadText octets = .ok text → Files.isRecordPath path = false →
      Notation.scan text = .ok s → t ∈ s.tokens → t.kind.isQuoted = true → '\x00' ∈ t.lexeme →
      Unreportable path (.ok octets)

end

/-! ## Silent errors of files -/

theorem not_encode_of_loadText {octets : List UInt8} {e : LoadError}
    (h : loadText octets = .error e) (text : List Char) : octets ≠ Text.Utf8.encode text := by
  unfold loadText at h
  split at h
  · rename_i fault hfault
    exact Text.Utf8.ne_encode_of_decode hfault text
  · cases h

section

variable [Host]

theorem unreportable_of_loadRecord {path : String} {octets : List UInt8} {text : List Char}
    {e : LoadError} (htext : loadText octets = .ok text) (hpath : Files.isRecordPath path = true)
    (h : loadRecord (String.ofList text) = .error e) (he : e.Silent) :
    Unreportable path (.ok octets) := by
  unfold loadRecord Record.read at h
  split at h
  · rename_i e' hread
    cases h
    split at hread
    · rename_i fault hfault
      cases hread
      cases he with
      | hugeInteger digits =>
        have hhuge := Json.huge_of_read hfault
        rw [String.toList_ofList] at hhuge
        exact .hugeInteger htext hpath hhuge
      | tooDeep =>
        have hdeep := Json.opensMany_of_read hfault
        rw [String.toList_ofList] at hdeep
        exact .tooDeep htext hpath hdeep
    · rename_i document hdocument
      split at hread
      · rename_i fault hfault
        cases hread
        cases he with
        | notIterable kind =>
          obtain ⟨fields, rfl, hrules⟩ := Record.unwalkable_of_ofDocument hfault
          exact .rules htext hpath hdocument hrules
        | noText e =>
          obtain ⟨fields, rfl, htextless⟩ :=
            faulty_noText_iff.1 (Record.ofDocument_eq_error_iff.1 hfault)
          exact .textless htext hpath hdocument htextless
      · cases hread
  · cases h

theorem unreportable_of_loadNotation {path : String} {octets : List UInt8} {text : List Char}
    {e : LoadError} (htext : loadText octets = .ok text) (hpath : Files.isRecordPath path = false)
    (h : loadNotation text none = .error e) (he : e.Silent) : Unreportable path (.ok octets) := by
  unfold loadNotation at h
  split at h
  · rename_i fault hfault
    cases h
    cases he with
    | nul =>
      obtain ⟨s, hscan, t, ht, hquoted, hnul⟩ := Notation.nul_of_declarations hfault
      exact .nul htext hpath hscan ht hquoted hnul
  · rename_i d _
    split at h
    · rename_i fault hfault
      cases h
      cases he
      cases Notation.Declarations.grammar_error hfault
    · cases h

theorem unreportable_of_silent {path : String} {contents : Except FileError (List UInt8)}
    {e : LoadError} (h : loadContents path contents = .error e) (he : e.Silent) :
    Unreportable path contents := by
  cases contents with
  | error refusal =>
    cases h
    cases he with
    | file hsystem => exact .refused hsystem
  | ok octets =>
    simp only [loadContents, loadGrammar] at h
    split at h
    · rename_i hfault
      exact .octets (not_encode_of_loadText hfault)
    · rename_i text htext
      split at h
      · rename_i hpath
        exact unreportable_of_loadRecord htext hpath h he
      · rename_i hpath
        exact unreportable_of_loadNotation htext (Bool.eq_false_iff.2 hpath) h he

end

namespace CommandLine

/-! ## Arguments -/

/-- The arguments that name a command and a file and nothing else. A path that looks like an option
stands after a separator. -/
inductive Asks (c : Command) (path : String) : List String → Prop where
  | plain : path.toList.head? ≠ some '-' → Asks c path [c.name, path]
  | separated : Asks c path [c.name, "--", path]

theorem classify_of_head {scope : Scope} {s : String} (h : s.toList.head? ≠ some '-') :
    classify scope s = .ok (.plain s) := by
  unfold classify
  split
  · rename_i hs
    rw [hs] at h
    exact absurd rfl h
  · rfl

theorem ne_separator_of_head {s : String} (h : s.toList.head? ≠ some '-') : s ≠ "--" := by
  rintro rfl
  exact h rfl

theorem readCommand_plain (c : Command) {path : String} (h : path.toList.head? ≠ some '-') :
    readCommand c [path] = .ok (.plain c path, []) := by
  have hclassify : classifyAll (.command c) [path] = .ok [.plain path] := by
    simp only [classifyAll, if_neg (ne_separator_of_head h), classify_of_head h]
  simp only [readCommand, hclassify]
  rfl

theorem readCommand_separated (c : Command) (path : String) :
    readCommand c ["--", path] = .ok (.plain c path, []) := rfl

theorem parseArguments_command {c : Command} {rest : List String} {r : Request}
    (h : readCommand c rest = .ok (r, [])) : parseArguments (c.name :: rest) = .ok r := by
  have hseparator : c.name ≠ "--" := by cases c <;> decide
  have hhead : c.name.toList.head? ≠ some '-' := by cases c <;> decide
  have hname : Command.ofName? c.name = some c := by cases c <;> decide
  simp only [parseArguments, readProgram, if_neg hseparator, classify_of_head hhead, hname, h]
  rfl

theorem parseArguments_of_asks {c : Command} {path : String} {arguments : List String}
    (h : Asks c path arguments) : parseArguments arguments = .ok (.plain c path) := by
  cases h with
  | plain hpath => exact parseArguments_command (readCommand_plain c hpath)
  | separated => exact parseArguments_command (readCommand_separated c path)

/-! ## Reports -/

theorem report?_eq_none_iff (e : LoadError) : report? (.load e) = none ↔ e.Silent := by
  constructor
  · intro h
    unfold report? at h
    split at h
    case h_2 hsystem heq =>
      cases heq
      exact .file hsystem
    case h_3 heq =>
      cases heq
      exact .encoding _
    case h_4 heq =>
      cases heq
      exact .nul _
    case h_6 heq =>
      cases heq
      exact .hugeInteger _
    case h_7 heq =>
      cases heq
      exact .tooDeep
    case h_8 heq =>
      cases heq
      exact .notIterable _
    case h_9 heq =>
      cases heq
      exact .noText _
    case h_11 heq | h_12 heq | h_13 heq => cases heq
    all_goals cases h
  · intro h
    cases h with
    | @file e hsystem =>
      cases e with
      | system problem path => exact absurd rfl (hsystem problem path)
      | nulInFilePath | nulInDirectoryPath | missingTooDeep => rfl
    | encoding | nul | hugeInteger | tooDeep | notIterable | noText => rfl

theorem ending_of_not_silent {e : LoadError} (h : ¬e.Silent) :
    (failed [] (.load e)).ending = .exit 2 := by
  unfold failed
  split
  · rfl
  · rename_i hreport
    exact absurd ((report?_eq_none_iff e).1 hreport) h

theorem ending_of_silent {e : LoadError} (h : e.Silent) :
    (failed [] (.load e)).ending = .unreported (.load e) := by
  simp only [failed, (report?_eq_none_iff e).2 h]

def reply (l : Loaded) : Command → Outcome
  | .check => .success (checkLine l.grammar.view ++ "\n") (typeWarning l.grammar.view)
  | .dump => shown [] (l.grammar.reclassify.view.record.write .oneLine ++ "\n")
  | .fmt => shown [] (Notation.print l.grammar.view)

theorem shown_ofString (trace : List Text) (s : String) :
    shown trace (Text.ofString s) = .success s trace := by
  rw [shown, Text.Utf8.encodable_eq_ok_iff.2 rfl]

theorem ending_shown (trace : List Text) (t : Text) :
    t.IsWhole ∧ (shown trace t).ending = .exit 0 ∨
      ¬t.IsWhole ∧ ∃ fault, (shown trace t).ending = .unreported (.unencodable fault) := by
  by_cases hwhole : t.IsWhole
  · refine .inl ⟨hwhole, ?_⟩
    rw [← Text.ofString_chars hwhole, shown_ofString]
    rfl
  · refine .inr ⟨hwhole, ?_⟩
    cases hfault : Text.Utf8.encodable t with
    | ok s => exact absurd (Text.Utf8.encodable_eq_ok_iff.1 hfault ▸ Text.isWhole_ofString s) hwhole
    | error fault => exact ⟨fault, by simp only [shown, hfault, failed, report?]⟩

/-- What is said ends well, but half of a pair in a grammar cannot be printed. -/
theorem ending_reply (l : Loaded) (c : Command) :
    (c = .check ∨ l.grammar.view.IsWhole) ∧ (reply l c).ending = .exit 0 ∨
      (c ≠ .check ∧ ¬l.grammar.view.IsWhole) ∧
        ∃ fault, (reply l c).ending = .unreported (.unencodable fault) := by
  cases c with
  | check => exact .inl ⟨.inl rfl, rfl⟩
  | dump =>
    have hwhole : Text.IsWhole (l.grammar.reclassify.view.record.write .oneLine ++ "\n") ↔
        l.grammar.view.IsWhole := by
      rw [Text.isWhole_append_iff, View.isWhole_write_iff, View.isWhole_iff, View.isWhole_iff]
      exact and_iff_left (Text.isWhole_ofString "\n")
    have hending := ending_shown [] (l.grammar.reclassify.view.record.write .oneLine ++ "\n")
    refine hending.imp ?_ ?_
    · exact fun h => ⟨.inr (hwhole.1 h.1), h.2⟩
    · exact fun h => ⟨⟨by decide, fun hl => h.1 (hwhole.2 hl)⟩, h.2⟩
  | fmt =>
    refine (ending_shown [] (Notation.print l.grammar.view)).imp ?_ ?_
    · exact fun h => ⟨.inr (Notation.isWhole_print_iff.1 h.1), h.2⟩
    · exact fun h => ⟨⟨by decide, fun hl => h.1 (Notation.isWhole_print_iff.2 hl)⟩, h.2⟩

section

variable [Host] {m : Type → Type} [Monad m]

theorem perform_plain (storage : Storage m) (c : Command) (path : String) (l : Loaded) :
    perform storage (.plain c path) l = pure (reply l c) := by
  cases c with
  | check => simp [perform, Request.plain, reply]
  | dump =>
    simp [perform, Request.plain, reply, dumpText, widthOf, Record.writeIndented,
      Json.Layout.ofIndent, emit, outputPath?]
  | fmt => simp [perform, Request.plain, reply]

/-- A request without an id reads its file once, before anything else. -/
theorem answer_eq (storage : Storage m) {r : Request} (hid : r.id = none) :
    answer storage r = (do
      match loadContents r.file (← storage.read r.file) with
      | .error e => return failed [] (.load e)
      | .ok l => perform storage r l) := by
  unfold answer
  congr 1
  funext contents
  cases contents with
  | error e => rfl
  | ok octets =>
    cases h : loadGrammar r.file octets none <;> simp only [loadContents, hid, Option.map_none, h]

theorem answer_plain (storage : Storage m) (c : Command) (path : String) :
    answer storage (.plain c path) = do
      match loadContents path (← storage.read path) with
      | .error e => return failed [] (.load e)
      | .ok l => return reply l c := by
  rw [answer_eq storage rfl]
  simp only [perform_plain]
  rfl

theorem run_request {arguments : List String} {r : Request}
    (h : parseArguments arguments = .ok r) (hid : r.id = none) (t : Files.Tree) :
    (run treeStorage arguments).run t =
      match loadContents r.file (t.read r.file) with
      | .error e => (failed [] (.load e), t)
      | .ok l => (perform treeStorage r l).run t := by
  have hread : (treeStorage.read r.file).run t = pure (t.read r.file, t) := rfl
  simp only [run, h, answer_eq treeStorage hid, StateT.run_bind, hread, pure_bind]
  cases loadContents r.file (t.read r.file) <;> rfl

/-- A command on a file of a tree leaves the tree as it is. -/
theorem run_tree {c : Command} {path : String} {arguments : List String} (h : Asks c path arguments)
    (t : Files.Tree) :
    (run treeStorage arguments).run t =
      (match loadContents path (t.read path) with
        | .error e => failed [] (.load e)
        | .ok l => reply l c, t) := by
  have hfile : (Request.plain c path).file = path := rfl
  rw [run_request (parseArguments_of_asks h) rfl, hfile]
  simp only [perform_plain]
  cases loadContents path (t.read path) <;> rfl

/-- A command on a file ends with 0 if there is a grammar, and with 2 if there is an error that is
not silent. A silent error ends the run as it is, and so does half of a pair that is to be
printed. -/
theorem run_ending (storage : Storage m) {c : Command} {path : String} {arguments : List String}
    (h : Asks c path arguments) :
    ∃ reply : Except FileError (List UInt8) → Outcome,
      run storage arguments = (do return reply (← storage.read path)) ∧
      ∀ contents,
        (∃ l, loadContents path contents = .ok l ∧
          ((c = .check ∨ l.grammar.view.IsWhole) ∧ (reply contents).ending = .exit 0 ∨
            (c ≠ .check ∧ ¬l.grammar.view.IsWhole) ∧
              ∃ fault, (reply contents).ending = .unreported (.unencodable fault))) ∨
        ∃ e, loadContents path contents = .error e ∧
          (¬e.Silent ∧ (reply contents).ending = .exit 2 ∨
            e.Silent ∧ (reply contents).ending = .unreported (.load e) ∧
              Unreportable path contents) := by
  refine ⟨fun contents =>
    match loadContents path contents with
    | .error e => failed [] (.load e)
    | .ok l => reply l c, ?_, fun contents => ?_⟩
  · simp only [run, parseArguments_of_asks h, answer_plain]
    congr 1
    funext contents
    split <;> rfl
  · simp only
    cases hload : loadContents path contents with
    | ok l => exact .inl ⟨l, rfl, ending_reply l c⟩
    | error e =>
      refine .inr ⟨e, rfl, ?_⟩
      by_cases hsilent : e.Silent
      · exact .inr ⟨hsilent, ending_of_silent hsilent, unreportable_of_silent hload hsilent⟩
      · exact .inl ⟨hsilent, ending_of_not_silent hsilent⟩

end

section

open scoped Host

theorem run_ending_brokenOff :
    Asks .fmt "-a.g" ["fmt", "--", "-a.g"] ∧
      ∃ reply : Except FileError (List UInt8) → Outcome,
        run treeStorage ["fmt", "--", "-a.g"] = (do return reply (← treeStorage.read "-a.g")) ∧
        (reply (.error (.system .notFound "-a.g"))).ending = .exit 2 ∧
        (reply (.ok [0x53, 0xE2, 0x82])).ending =
          .unreported (.load (.encoding ⟨.unexpectedEnd, 1, 2, 0xE2⟩)) ∧
        Unreportable "-a.g" (.ok [0x53, 0xE2, 0x82]) := by
  have hload : loadContents "-a.g" (.ok [0x53, 0xE2, 0x82]) =
      .error (.encoding ⟨.unexpectedEnd, 1, 2, 0xE2⟩) := rfl
  have hasks : Asks .fmt "-a.g" ["fmt", "--", "-a.g"] := .separated
  obtain ⟨reply, hrun, hends⟩ := run_ending treeStorage hasks
  refine ⟨hasks, reply, hrun, ?_, ?_⟩
  · rcases hends (.error (.system .notFound "-a.g")) with ⟨l, hl, -⟩ | ⟨e, he, hcase⟩
    · cases hl
    · cases he
      rcases hcase with ⟨-, hending⟩ | ⟨hsilent, -⟩
      · exact hending
      · cases hsilent with
        | file hsystem => exact absurd rfl (hsystem .notFound "-a.g")
  · rcases hends (.ok [0x53, 0xE2, 0x82]) with ⟨l, hl, -⟩ | ⟨e, he, hcase⟩
    · rw [hload] at hl
      cases hl
    · rw [hload] at he
      cases he
      rcases hcase with ⟨hsilent, -⟩ | ⟨-, hending, hfile⟩
      · exact absurd (.encoding _) hsilent
      · exact ⟨hending, hfile⟩

def textlessTree : Files.Tree := ⟨[], [(⟨.working, ["a.g"]⟩, [0xFF])]⟩

/-- A file that is no text ends a run without an exit code. -/
theorem not_all_reported :
    ¬∀ (t : Files.Tree) (c : Command) (path : String), path.toList.head? ≠ some '-' →
      ∃ code, ((run treeStorage [c.name, path]).run t).1.ending = .exit code := by
  intro h
  have hdash : "a.g".toList.head? ≠ some '-' := by decide
  have hread : textlessTree.read "a.g" = .ok [0xFF] := by
    have hplace : textlessTree.locate "a.g" = .ok (.file ⟨.working, ["a.g"]⟩ [0xFF]) := rfl
    simp [Files.Tree.read, hplace]
  have hload : loadContents "a.g" (.ok [0xFF]) =
      .error (.encoding ⟨.invalidStart, 0, 1, 0xFF⟩) := rfl
  obtain ⟨code, hcode⟩ := h textlessTree .check "a.g" hdash
  rw [run_tree (.plain hdash) textlessTree, hread, hload] at hcode
  cases hcode

end

end CommandLine

end PhraseGrammar
