import PhraseGrammar.Notation.Fault

/-!
# PhraseGrammar.Proofs.Places

Offsets, lines and columns of a text, and the lines that are shown with a mark.

* `Position.In`: a position whose line and column are those of its offset, counted from the start.
* `Position.In.advance`: a piece of the text, however many line ends it has, leads from one such
  position to another. That is all a scanner needs to know of its positions.
* `Pictures`: a line of the text with a mark under one of its columns. `Position.In.pictures`: the
  line and column at which `caret` puts its mark are those of the position.
-/

namespace PhraseGrammar

namespace Text

theorem lastLine_cons_newline (cs : List Char) : lastLine ('\n' :: cs) = lastLine cs := by
  by_cases h : '\n' ∈ cs
  · exact lastLine_append_of_mem ['\n'] h
  · rw [lastLine_of_notMem h]
    exact lastLine_newline [] h

theorem splitOn_of_ne {c : Char} (hc : c ≠ '\n') (cs : List Char) :
    (c :: cs).splitOn '\n' = (cs.splitOn '\n').modifyHead (c :: ·) := by
  rw [List.splitOn_cons_eq_if_modifyHead, if_neg (mt eq_of_beq hc)]

theorem getElem?_splitOn_zero (cs : List Char) :
    (cs.splitOn '\n')[0]? = some (firstLine cs) := by
  induction cs with
  | nil => rfl
  | cons c cs ih =>
    by_cases hc : c = '\n'
    · subst hc
      rfl
    · rw [splitOn_of_ne hc, List.getElem?_modifyHead_zero, ih, firstLine, firstLine,
        List.takeWhile_cons, if_pos (bne_iff_ne.2 hc)]
      rfl

theorem getElem?_splitOn (cs ds : List Char) :
    ((cs ++ ds).splitOn '\n')[cs.count '\n']? = some (lastLine cs ++ firstLine ds) := by
  induction cs with
  | nil => exact getElem?_splitOn_zero ds
  | cons c cs ih =>
    by_cases hc : c = '\n'
    · subst hc
      rw [List.count_cons_self, lastLine_cons_newline, ← ih]
      rfl
    · rw [List.count_cons_of_ne hc, List.cons_append, splitOn_of_ne hc, List.getElem?_modifyHead,
        ih]
      by_cases hcs : '\n' ∈ cs
      · have hlast : lastLine (c :: cs) = lastLine cs := lastLine_append_of_mem [c] hcs
        rw [if_neg fun h => List.count_eq_zero.1 h hcs, hlast]
      · have hall : '\n' ∉ c :: cs := by simp [hcs, Ne.symm hc]
        rw [if_pos (List.count_eq_zero.2 hcs), lastLine_of_notMem hcs, lastLine_of_notMem hall]
        rfl

end Text

namespace Notation

/-- A position in a text: its line and column are those of its offset, each counted from one. -/
structure Position.In (source : List Char) (p : Position) : Prop where
  offset : p.offset ≤ source.length
  line : p.line = 1 + (source.take p.offset).count '\n'
  column : p.column = 1 + (Text.lastLine (source.take p.offset)).length

/-- A line of a text, counted from one, and under it a mark in a column, counted from one. -/
def Pictures (source : List Char) (line column : Nat) (picture : String) : Prop :=
  0 < line ∧ 0 < column ∧ ∃ text, (source.splitOn '\n')[line - 1]? = some text ∧
    picture = String.ofList text ++ "\n" ++ String.ofList (List.replicate (column - 1) ' ') ++ "^"

namespace Position

variable {source cs rest : List Char} {p : Position}

theorem in_start (source : List Char) : start.In source :=
  ⟨Nat.zero_le _, rfl, rfl⟩

theorem take_of_drop (hcs : source.drop p.offset = cs ++ rest) :
    source.take (p.offset + cs.length) = source.take p.offset ++ cs := by
  rw [List.take_add, hcs, List.take_left]

/-- **Positions.** Moving on by a piece gives the line and column that counting from the start of
the text gives. -/
theorem In.advance (h : p.In source) (hcs : source.drop p.offset = cs ++ rest) :
    (p.advance cs).In source := by
  have htake := take_of_drop hcs
  have hlength : p.offset + cs.length ≤ source.length := by
    have hdrop := congrArg List.length hcs
    have hoffset := h.offset
    rw [List.length_drop, List.length_append] at hdrop
    omega
  by_cases hline : '\n' ∈ cs
  · rw [advance_of_mem p hline]
    refine ⟨hlength, ?_, ?_⟩
    · simp only [htake, List.count_append, h.line]
      omega
    · simp only [htake, Text.lastLine_append_of_mem _ hline]
      omega
  · rw [advance_of_notMem p hline]
    refine ⟨hlength, ?_, ?_⟩
    · simp only [htake, List.count_append, List.count_eq_zero.2 hline, h.line]
      omega
    · simp only [htake, Text.lastLine_append_of_notMem _ hline, List.length_append, h.column]
      omega

/-- The line that is found around an offset is the line of the position, and the mark is in its
column. -/
theorem In.pictures (h : p.In source) :
    Pictures source p.line p.column (caret source p.offset) := by
  refine ⟨by have := h.line; omega, by have := h.column; omega,
    Text.lastLine (source.take p.offset) ++ Text.firstLine (source.drop p.offset), ?_, ?_⟩
  · rw [h.line, Nat.add_sub_cancel_left, ← Text.getElem?_splitOn, List.take_append_drop]
  · rw [h.column, Nat.add_sub_cancel_left, ← String.toList_inj]
    simp [caret, Text.lineAround]

end Position

end Notation

end PhraseGrammar
