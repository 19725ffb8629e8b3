/-!
# PhraseGrammar.Text.Lines

Lines of a text.

* `unifyNewlines` — every line end, written `\r\n`, `\r` or `\n`, becomes `\n`.
* `lineAround` — the line that holds an offset, split at the offset.
-/

namespace PhraseGrammar.Text

/-- Rewrites a carriage return, with the line feed after it if there is one, to a line feed. -/
def unifyNewlines : List Char → List Char
  | [] => []
  | '\r' :: '\n' :: rest => '\n' :: unifyNewlines rest
  | '\r' :: rest => '\n' :: unifyNewlines rest
  | c :: rest => c :: unifyNewlines rest

/-- A text without carriage returns stays as it is. -/
theorem unifyNewlines_of_notMem {cs : List Char} (h : '\r' ∉ cs) : unifyNewlines cs = cs := by
  fun_induction unifyNewlines cs with
  | case1 => rfl
  | case2 | case3 => exact absurd List.mem_cons_self h
  | case4 c rest _ _ ih => rw [ih fun hr => h (List.mem_cons_of_mem c hr)]

def lastLine (cs : List Char) : List Char :=
  (cs.reverse.takeWhile (· != '\n')).reverse

def firstLine (cs : List Char) : List Char := cs.takeWhile (· != '\n')

/-- The line of a text that holds an offset: its part before the offset and its part from there. -/
def lineAround (text : List Char) (offset : Nat) : List Char × List Char :=
  (lastLine (text.take offset), firstLine (text.drop offset))

/-- Characters without a line end go on with the last line of a text. -/
theorem lastLine_append_of_notMem (cs : List Char) {ds : List Char} (h : '\n' ∉ ds) :
    lastLine (cs ++ ds) = lastLine cs ++ ds := by
  have hall : ∀ c ∈ ds.reverse, (c != '\n') = true := by
    intro c hc
    rw [bne_iff_ne]
    rintro rfl
    exact h (List.mem_reverse.1 hc)
  rw [lastLine, lastLine, List.reverse_append, List.takeWhile_append_of_pos hall,
    List.reverse_append, List.reverse_reverse]

theorem lastLine_of_notMem {cs : List Char} (h : '\n' ∉ cs) : lastLine cs = cs :=
  lastLine_append_of_notMem [] h

theorem lastLine_newline (cs : List Char) {ds : List Char} (h : '\n' ∉ ds) :
    lastLine (cs ++ '\n' :: ds) = ds := by
  have hbegun : lastLine (cs ++ ['\n']) = [] := by simp [lastLine]
  rw [List.append_cons, lastLine_append_of_notMem _ h, hbegun, List.nil_append]

theorem lastLine_append_of_mem (cs : List Char) {ds : List Char} (h : '\n' ∈ ds) :
    lastLine (cs ++ ds) = lastLine ds := by
  obtain ⟨after, before, hds, hafter⟩ := List.eq_append_cons_of_mem (List.mem_reverse.2 h)
  obtain rfl : ds = before.reverse ++ '\n' :: after.reverse := by
    rw [← List.reverse_reverse ds, hds]
    simp
  have hlast : '\n' ∉ after.reverse := mt List.mem_reverse.1 hafter
  rw [← List.append_assoc, lastLine_newline _ hlast, lastLine_newline _ hlast]

end PhraseGrammar.Text
