import PhraseGrammar.Proofs.Blame
import PhraseGrammar.Proofs.Tokens

/-!
# PhraseGrammar.Proofs.Carets

The places that the messages of the reader point at.

* `fault_of_parse`: what is wrong with a text is wrong with its statements, or it has no start
  symbol.
* `located_of_parse`: a fault with a place is at a token of the text, or at its end.

A place is found twice for a message: line by line by the scanner, and again from the offset where
the line is shown. `carets_agree` says that both are one place.
-/

namespace PhraseGrammar.Notation

variable {source : String} {givenId : Option Text} {freshId : Text} {e : ParseError}

section

variable [Host]

theorem fault_of_parse (h : parse source givenId freshId = .error e) :
    e.source = source.toList ∧
      (declarations source.toList = .error e.fault ∨ e.fault = .noStart) := by
  unfold parse at h
  split at h
  · rename_i fault hfault
    cases h
    exact ⟨rfl, .inl hfault⟩
  · rename_i d _
    split at h
    · rename_i fault hfault
      cases h
      exact ⟨rfl, .inr (Declarations.grammar_error hfault)⟩
    · cases h

end

theorem among_iff {eof : Token} {ts : List Token} {t : Token} :
    Among eof ts t ↔ t ∈ ts ++ [eof] := by
  rw [List.mem_append, List.mem_singleton]
  rfl

section

variable [Host]

theorem located_of_parse {problem : Problem} {position : Position}
    (h : parse source givenId freshId = .error e) (hlocated : e.fault = .located problem position) :
    ∃ s, scan source.toList = .ok s ∧ ∃ t ∈ s.tokens ++ [s.eof], t.position = position := by
  rcases (fault_of_parse h).2 with hfault | hstart
  · rw [hlocated] at hfault
    rcases blames_of_declarations hfault with ⟨_, -, hscan⟩ | ⟨s, hscan, hblames⟩
    · cases hscan
    · refine ⟨s, hscan, ?_⟩
      generalize hfault' : Fault.located problem position = fault at hblames
      cases hblames with
      | literal => cases hfault'
      | semicolon => cases hfault'
      | located p hamong =>
        cases hfault'
        exact ⟨_, among_iff.1 hamong, rfl⟩
  · rw [hlocated] at hstart
    cases hstart

end

theorem Position.in_foldl {source : List Char} {pieces : List (List Char)} {after : List Char}
    {p : Position} (hp : p.In source) (h : source.drop p.offset = pieces.flatten ++ after) :
    (pieces.foldl advance p).In source := by
  induction pieces generalizing p with
  | nil => exact hp
  | cons piece pieces ih =>
    rw [List.flatten_cons, List.append_assoc] at h
    refine ih (hp.advance h) ?_
    rw [offset_advance]
    exact drop_of_drop h

theorem Position.offset_foldl (pieces : List (List Char)) (p : Position) :
    (pieces.foldl advance p).offset = p.offset + pieces.flatten.length := by
  induction pieces generalizing p with
  | nil => rfl
  | cons piece pieces ih =>
    rw [List.foldl_cons, ih, offset_advance, List.flatten_cons, List.length_append, Nat.add_assoc]

theorem Fault.message_located (text : List Char) (problem : Problem) (p : Position) :
    Fault.message text (.located problem p) =
      problem.text ++ " at " ++ toString p.line ++ ":" ++ toString p.column ++ "\n" ++
        caret text p.offset := by
  unfold Fault.message Position.text
  simp only [Text.ofString_append, List.append_assoc]

theorem Scan.Exact.position {source : List Char} {s : Scan} (h : s.Exact source) {t : Token}
    (ht : t ∈ s.tokens ++ [s.eof]) : t.position.In source := by
  rcases List.mem_append.1 ht with ht | ht
  · exact h.tokens.position t ht
  · rw [List.mem_singleton.1 ht]
    exact h.eof_position

section

variable [Host]

/-- **Carets.** However a text is cut into pieces, the line and the column that are counted piece by
piece are those of the mark that is set for the offset. So they are for every token and for the end
of the text, and the messages that name a place show the line with that number and the mark in that
column. -/
theorem carets_agree (source : String) :
    (∀ (pieces : List (List Char)) after, source.toList = pieces.flatten ++ after →
      Pictures source.toList (pieces.foldl Position.advance .start).line
        (pieces.foldl Position.advance .start).column
        (caret source.toList pieces.flatten.length)) ∧
    (∀ s, scan source.toList = .ok s → ∀ t ∈ s.tokens ++ [s.eof],
      Pictures source.toList t.position.line t.position.column
        (caret source.toList t.position.offset)) ∧
    ∀ givenId freshId e problem position, parse source givenId freshId = .error e →
      e.fault = .located problem position →
      (∃ s, scan source.toList = .ok s ∧ ∃ t ∈ s.tokens ++ [s.eof], t.position = position) ∧
        ∃ picture, Pictures source.toList position.line position.column picture ∧
          e.message = problem.text ++ " at " ++ toString position.line ++ ":" ++
            toString position.column ++ "\n" ++ picture := by
  refine ⟨fun pieces after h => ?_, fun s hs t ht => ?_, fun _ _ e problem p h hlocated => ?_⟩
  · have hin := Position.in_foldl (Position.in_start source.toList) h
    have hpictures := hin.pictures
    rw [Position.offset_foldl, Position.start, Nat.zero_add] at hpictures
    exact hpictures
  · exact ((exact_of_scan_ok hs).position ht).pictures
  · obtain ⟨s, hs, t, ht, rfl⟩ := located_of_parse h hlocated
    refine ⟨⟨s, hs, t, ht, rfl⟩, _, ((exact_of_scan_ok hs).position ht).pictures, ?_⟩
    rw [ParseError.message, hlocated, (fault_of_parse h).1]
    exact Fault.message_located source.toList problem t.position

end

section

open scoped Host

/-- The head is missing after a comment that goes over a line end. -/
def bareHeadText : String := "/* A\n*/ %head;\n"

/-- The arrow is missing at the end of a text that ends with a line end. -/
def bareSymbolText : String := "A\n\n"

theorem carets_agree_bare :
    (∃ e picture, parse bareHeadText none = .error e ∧
      Pictures bareHeadText.toList 2 5 picture ∧
      e.message = "%head expects at least one symbol at 2:5\n" ++ picture) ∧
    ∃ e picture, parse bareSymbolText none = .error e ∧
      Pictures bareSymbolText.toList 3 1 picture ∧
      e.message = "Expected ':' or '->' after production head at 3:1\n" ++ picture := by
  have hhead : parse bareHeadText none =
      .error ⟨bareHeadText.toList, .located .bareHeadDirective ⟨9, 2, 5⟩⟩ :=
    eq_error_of_error? (by decide +kernel)
  have hsymbol : parse bareSymbolText none =
      .error ⟨bareSymbolText.toList, .located .noArrow ⟨3, 3, 1⟩⟩ :=
    eq_error_of_error? (by decide +kernel)
  obtain ⟨-, picture, hpicture, hmessage⟩ :=
    (carets_agree bareHeadText).2.2 none unnamedId _ _ _ hhead rfl
  obtain ⟨-, picture', hpicture', hmessage'⟩ :=
    (carets_agree bareSymbolText).2.2 none unnamedId _ _ _ hsymbol rfl
  exact ⟨⟨_, picture, hhead, hpicture, hmessage⟩, _, picture', hsymbol, hpicture', hmessage'⟩

end

end PhraseGrammar.Notation
