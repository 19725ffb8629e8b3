import PhraseGrammar.Proofs.Parsing
import PhraseGrammar.Proofs.Reachable
import PhraseGrammar.Proofs.Reports

/-!
# PhraseGrammar.Proofs.Loading

The grammars that files give.

* `loadText_encode`: a text without carriage returns is what its octets hold.
* `loadNotation_eq_ok_iff`: loading a text in the notation is parsing it.
* `loadContents_record`: a text that is a record gives the grammar of the record.

`loaded_of_loadContents` says what is true of every grammar that a file gives.
-/

namespace PhraseGrammar

theorem loadText_encode {cs : List Char} (h : '\r' ∉ cs) :
    loadText (Text.Utf8.encode cs) = .ok cs := by
  simp only [loadText, Text.Utf8.decode_encode, Text.unifyNewlines_of_notMem h]

namespace Notation

section

variable [Host]

theorem loadNotation_eq_ok_iff {text : List Char} {givenId : Option Text} {freshId : Text}
    {g : Grammar} : (∃ log, loadNotation text givenId freshId = .ok ⟨g, log⟩) ↔
      parse (String.ofList text) givenId freshId = .ok g := by
  unfold loadNotation parse
  rw [String.toList_ofList]
  cases declarations text with
  | error e => simp
  | ok d =>
    simp only
    cases d.grammar givenId freshId with
    | error e => simp
    | ok g' => simp

/-- The grammar of a text has an id; an empty one that is given or declared does not count. -/
theorem id_ne_nil_of_parse {source : String} {givenId : Option Text} {freshId : Text}
    {g : Grammar} (h : parse source givenId freshId = .ok g) (hfresh : freshId ≠ []) :
    g.id ≠ [] := by
  obtain ⟨items, hreads⟩ := reads_of_parse h
  have hdescribes := (parse_of_reads hreads givenId freshId g).1 h
  rw [hdescribes.id]
  cases hfind : (givenId.toList ++ (Item.last Item.id? items).toList).find? fun t => t ≠ [] with
  | none => simpa using hfresh
  | some id =>
    have hid := List.find?_some hfind
    simpa using hid

end

end Notation

section

variable [Host]

/-- The grammar of a file is one that a caller can come by, and a text never gives an empty id. -/
theorem loaded_of_loadContents {path : String} {contents : Except FileError (List UInt8)}
    {l : Loaded} (h : loadContents path contents = .ok l) :
    l.grammar.Reachable ∧ (Files.isRecordPath path = false → l.grammar.id ≠ []) := by
  cases contents with
  | error e => cases h
  | ok octets =>
    simp only [loadContents, loadGrammar] at h
    cases htext : loadText octets with
    | error e => simp [htext] at h
    | ok text =>
      cases hpath : Files.isRecordPath path with
      | true =>
        simp only [htext, hpath, if_true, loadRecord] at h
        cases hread : Record.read (String.ofList text) with
        | error e => simp [hread] at h
        | ok r =>
          simp only [hread, Except.ok.injEq] at h
          subst h
          exact ⟨.ofText hread, by simp⟩
      | false =>
        simp only [htext, hpath, Bool.false_eq_true, if_false] at h
        have hparse := Notation.loadNotation_eq_ok_iff.1 ⟨l.log, h⟩
        exact ⟨.parse hparse, fun _ => Notation.id_ne_nil_of_parse hparse (by decide)⟩

theorem loadContents_record {path : String} (hpath : Files.isRecordPath path = true) {text : String}
    (htext : '\r' ∉ text.toList) {r : Record} (hread : Record.read text = .ok r) :
    ∃ log, loadContents path (.ok (Text.Utf8.encode text.toList)) = .ok ⟨.ofRecord r, log⟩ := by
  simp only [loadContents, loadGrammar, loadText_encode htext, hpath, if_true, loadRecord,
    String.ofList_toList, hread]
  exact ⟨_, rfl⟩

end

/-! ## A record in a working directory -/

namespace CommandLine

def recordTree (record : String) : Files.Tree :=
  ⟨[], [(⟨.working, ["a.json"]⟩, Text.Utf8.encode record.toList)]⟩

theorem read_recordTree (record : String) :
    (recordTree record).read "a.json" = .ok (Text.Utf8.encode record.toList) := by
  have hplace : (recordTree record).locate "a.json" =
      .ok (.file ⟨.working, ["a.json"]⟩ (Text.Utf8.encode record.toList)) := rfl
  simp [Files.Tree.read, hplace]

theorem recordPath : Files.isRecordPath "a.json" = true := by decide

end CommandLine

end PhraseGrammar
