import Mathlib.Data.List.TakeWhile
import PhraseGrammar.Proofs.Scanning

/-!
# PhraseGrammar.Proofs.Lexemes

What stands at the front of a text, told from the characters alone.

* `Shape`: the tokens, blanks and comments of the notation, kind by kind.
* `Longest`: a lexeme with what follows it, where the text begins with no longer one.
* `Filler`: blanks, line ends and comments, one after the other.

`longest_of_first?`: what is cut off the front of a text is its longest lexeme.
`first?_eq_none_iff`: nothing is cut off exactly if the text begins with no lexeme at all.
-/

namespace PhraseGrammar.Notation

/-- What may stand between two quotes: a quote or a backslash only after a backslash. -/
inductive Inside (quote : Char) : List Char → Prop where
  | nil : Inside quote []
  | plain {c : Char} {cs : List Char} :
      c ≠ quote → c ≠ '\\' → Inside quote cs → Inside quote (c :: cs)
  | escaped (c : Char) {cs : List Char} : Inside quote cs → Inside quote ('\\' :: c :: cs)

/-- The lexemes of the notation; those between tokens have no kind. -/
inductive Shape : Option TokenKind → List Char → Prop where
  | blanks {cs : List Char} : cs ≠ [] → (∀ c ∈ cs, isBlank c = true) → Shape none cs
  | lineEnd : Shape none ['\n']
  | lineComment {cs : List Char} : '\n' ∉ cs → Shape none ('/' :: '/' :: cs)
  /-- The first `*/` after the beginning is at the end. -/
  | blockComment {cs : List Char} :
      ¬['*', '/'] <:+: cs ++ ['*'] → Shape none ('/' :: '*' :: (cs ++ ['*', '/']))
  | percent : Shape (some .percent) ['%']
  | arrow : Shape (some .arrow) ['-', '>']
  | arrowSign : Shape (some .arrow) ['→']
  | colon : Shape (some .colon) [':']
  | semicolon : Shape (some .semicolon) [';']
  | bar : Shape (some .bar) ['|']
  | doubleQuoted {cs : List Char} :
      Inside '"' cs → Shape (some .doubleQuoted) ('"' :: (cs ++ ['"']))
  | singleQuoted {cs : List Char} :
      Inside '\'' cs → Shape (some .singleQuoted) ('\'' :: (cs ++ ['\'']))
  | epsilon : Shape (some .epsilon) ['ε']
  | ident {cs : List Char} : isIdent cs = true → cs ≠ ['ε'] → Shape (some .ident) cs

/-- A lexeme with what follows it, where the text begins with no longer lexeme. -/
structure Longest (kind : Option TokenKind) (cs rest : List Char) : Prop where
  shape : Shape kind cs
  longest : ∀ k ds after, Shape k ds → cs ++ rest = ds ++ after → ds.length ≤ cs.length

/-- Blanks, line ends and comments, none of which goes on with what follows. -/
inductive Filler : (cs rest : List Char) → Prop where
  | nil {rest : List Char} : Filler [] rest
  | cons {cs more rest : List Char} :
      Longest none cs (more ++ rest) → Filler more rest → Filler (cs ++ more) rest

theorem Shape.ne_nil {kind : Option TokenKind} {cs : List Char} (h : Shape kind cs) : cs ≠ [] := by
  cases h with
  | blanks hne _ => exact hne
  | ident hident _ =>
    rintro rfl
    cases hident
  | _ => exact List.cons_ne_nil _ _

/-! ## Comments and quoted texts -/

theorem blockCommentEnd_sound {cs body rest : List Char}
    (h : blockCommentEnd cs = some (body, rest)) :
    ∃ inner, body = inner ++ ['*', '/'] ∧ ¬['*', '/'] <:+: inner ++ ['*'] := by
  fun_induction blockCommentEnd cs generalizing body with
  | case1 => cases h
  | case2 =>
    cases h
    exact ⟨[], rfl, by decide⟩
  | case3 c cs hstar body' rest' hcs ih =>
    cases h
    obtain ⟨inner, rfl, hinner⟩ := ih hcs
    refine ⟨c :: inner, rfl, ?_⟩
    rw [List.cons_append, List.infix_cons_iff, not_or]
    refine ⟨?_, hinner⟩
    rintro ⟨tail, htail⟩
    obtain ⟨rfl, hslash⟩ := List.cons.inj htail
    have htext := append_of_blockCommentEnd hcs
    cases inner with
    | nil => cases hslash
    | cons d inner =>
      obtain ⟨rfl, -⟩ := List.cons.inj hslash
      exact hstar _ rfl htext.symm
  | case4 => cases h

theorem blockCommentEnd_complete {inner : List Char} (h : ¬['*', '/'] <:+: inner ++ ['*'])
    (rest : List Char) :
    blockCommentEnd (inner ++ '*' :: '/' :: rest) = some (inner ++ ['*', '/'], rest) := by
  induction inner with
  | nil => rfl
  | cons c inner ih =>
    rw [List.cons_append, List.infix_cons_iff, not_or] at h
    -- A star before the end of the comment is not followed by a slash.
    have hopen : ∀ tail, c = '*' → inner ++ '*' :: '/' :: rest = '/' :: tail → False := by
      rintro tail rfl hslash
      apply h.1
      cases inner with
      | nil => cases hslash
      | cons d inner =>
        cases hslash
        exact ⟨inner ++ ['*'], rfl⟩
    rw [List.cons_append, blockCommentEnd.eq_3 _ _ hopen, ih h.2]
    rfl

theorem quotedEnd_sound {quote : Char} {cs body rest : List Char}
    (h : quotedEnd quote cs = some (body, rest)) :
    ∃ inner, body = inner ++ [quote] ∧ Inside quote inner := by
  fun_induction quotedEnd quote cs generalizing body with
  | case1 => cases h
  | case2 =>
    cases h
    exact ⟨[], rfl, .nil⟩
  | case3 => cases h
  | case4 d cs body' rest' hcs hquote ih =>
    cases h
    obtain ⟨inner, rfl, hinner⟩ := ih hcs
    exact ⟨'\\' :: d :: inner, rfl, .escaped d hinner⟩
  | case5 => cases h
  | case6 c cs hquote hbackslash body' rest' hcs ih =>
    cases h
    obtain ⟨inner, rfl, hinner⟩ := ih hcs
    exact ⟨c :: inner, rfl, .plain hquote hbackslash hinner⟩
  | case7 => cases h

theorem quotedEnd_complete {quote : Char} {inner : List Char} (hquote : '\\' ≠ quote)
    (h : Inside quote inner) (rest : List Char) :
    quotedEnd quote (inner ++ quote :: rest) = some (inner ++ [quote], rest) := by
  induction h with
  | nil => exact quotedEnd_self quote rest
  | plain hne hbackslash _ ih => exact quotedEnd_of_ne hne hbackslash ih
  | escaped c _ ih => exact quotedEnd_backslash hquote ih

/-! ## The front of a text -/

namespace Lexeme

variable {c : Char} {cs rest : List Char} {l : Lexeme}

theorem shape_run_isBlank (hc : isBlank c = true) (rest : List Char) :
    Shape none (run none isBlank c rest).chars := by
  refine .blanks (chars_run_ne_nil _ _ _ _) fun d hd => ?_
  rcases List.mem_cons.1 hd with rfl | hd
  · exact hc
  · exact List.mem_takeWhile_imp hd

theorem shape_name (hc : isIdentStart c = true) (rest : List Char) :
    Shape (name c rest).kind (name c rest).chars := by
  unfold name
  split
  · rename_i hepsilon
    rw [hepsilon.1]
    exact .epsilon
  · rename_i hname
    refine .ident ?_ ?_
    · simp only [run, isIdent, hc, Bool.true_and, List.all_eq_true]
      exact fun d hd => List.mem_takeWhile_imp hd
    · intro hrun
      apply hname
      obtain ⟨rfl, htake⟩ := List.cons.inj hrun
      refine ⟨rfl, ?_⟩
      cases rest with
      | nil => rfl
      | cons d rest =>
        rw [goesOn]
        by_contra hd
        rw [Bool.not_eq_false] at hd
        rw [List.takeWhile_cons_of_pos hd] at htake
        cases htake

theorem shape_of_comment? (h : comment? rest = some l) : Shape l.kind l.chars := by
  unfold comment? at h
  split at h
  · cases h
    refine .lineComment fun hmem => ?_
    have hne := List.mem_takeWhile_imp hmem
    cases hne
  · split at h
    · rename_i hend
      cases h
      obtain ⟨inner, rfl, hinner⟩ := blockCommentEnd_sound hend
      exact .blockComment hinner
    · cases h
  · cases h

theorem shape_of_arrow? (h : arrow? rest = some l) : Shape l.kind l.chars := by
  unfold arrow? at h
  split at h
  · cases h
    exact .arrow
  · cases h

theorem inside_of_quoted? {kind : TokenKind} {quote : Char} (h : quoted? kind quote rest = some l) :
    ∃ inner, Inside quote inner ∧ l.kind = some kind ∧ l.chars = quote :: (inner ++ [quote]) := by
  unfold quoted? at h
  split at h
  · rename_i hend
    cases h
    obtain ⟨inner, rfl, hinner⟩ := quotedEnd_sound hend
    exact ⟨inner, hinner, rfl, rfl⟩
  · cases h

theorem shape_of_punctuation? {kind : TokenKind} (h : punctuation? c = some kind) :
    Shape (some kind) [c] := by
  unfold punctuation? at h
  split at h <;> cases h <;> constructor

theorem shape_of_first? (h : first? c rest = some l) : Shape l.kind l.chars := by
  unfold first? at h
  split at h
  · rename_i hblank
    cases h
    exact shape_run_isBlank hblank rest
  split at h
  · rename_i hstart
    cases h
    exact shape_name hstart rest
  split at h
  · cases h
    exact .lineEnd
  · exact shape_of_comment? h
  · exact shape_of_arrow? h
  · obtain ⟨inner, hinner, hkind, hchars⟩ := inside_of_quoted? h
    rw [hkind, hchars]
    exact .doubleQuoted hinner
  · obtain ⟨inner, hinner, hkind, hchars⟩ := inside_of_quoted? h
    rw [hkind, hchars]
    exact .singleQuoted hinner
  · obtain ⟨kind, hkind, rfl⟩ := Option.map_eq_some_iff.1 h
    exact shape_of_punctuation? hkind

theorem length_le_run {kind : Option TokenKind} {test : Char → Bool}
    (hcs : ∀ d ∈ cs, test d = true) (rest : List Char) :
    (c :: cs).length ≤ (run kind test c (cs ++ rest)).chars.length := by
  simp only [run, List.takeWhile_append_of_pos hcs, List.length_cons, List.length_append]
  omega

/-- A name takes in every front part of the text that is a name. -/
theorem length_le_name (hcs : cs.all isIdentRest = true) (rest : List Char) :
    (c :: cs).length ≤ (name c (cs ++ rest)).chars.length := by
  unfold name
  split
  · rename_i hepsilon
    cases cs with
    | nil => exact Nat.le_refl _
    | cons d cs =>
      rw [List.all_cons, Bool.and_eq_true] at hcs
      have hgoes : isIdentRest d = false := hepsilon.2
      rw [hcs.1] at hgoes
      cases hgoes
  · exact length_le_run (List.all_eq_true.1 hcs) rest

/-- What is cut off is at least as long as any lexeme that the text begins with. -/
theorem first?_of_shape {kind : Option TokenKind} (h : Shape kind (c :: cs)) (rest : List Char) :
    ∃ l, first? c (cs ++ rest) = some l ∧ (c :: cs).length ≤ l.chars.length := by
  generalize hds : c :: cs = ds at h
  cases h with
  | blanks _ hblank =>
    subst hds
    rw [List.forall_mem_cons] at hblank
    exact ⟨_, first?_of_isBlank _ hblank.1, length_le_run hblank.2 rest⟩
  | ident hident _ =>
    subst hds
    simp only [isIdent, Bool.and_eq_true] at hident
    exact ⟨_, first?_of_isIdentStart _ hident.1, length_le_name hident.2 rest⟩
  | epsilon =>
    cases hds
    exact ⟨_, first?_of_isIdentStart _ (by decide), length_le_name rfl rest⟩
  | @lineComment ds hline =>
    cases hds
    have hall : ∀ d ∈ ds, (d != '\n') = true := fun d hd => bne_iff_ne.2 fun c => hline (c ▸ hd)
    have htake : (ds ++ rest).takeWhile (· != '\n') = ds ++ rest.takeWhile (· != '\n') :=
      List.takeWhile_append_of_pos hall
    refine ⟨_, first?_slash _, ?_⟩
    simp [htake]
  | blockComment hend =>
    cases hds
    rw [first?_slash]
    simp [comment?, blockCommentEnd_complete hend]
  | doubleQuoted hinner =>
    cases hds
    rw [first?_doubleQuote]
    simp [quoted?, quotedEnd_complete (by decide) hinner]
  | singleQuoted hinner =>
    cases hds
    rw [first?_singleQuote]
    simp [quoted?, quotedEnd_complete (by decide) hinner]
  | lineEnd =>
    cases hds
    exact ⟨_, first?_newline _, Nat.le_refl _⟩
  | arrow =>
    cases hds
    exact ⟨_, first?_dash _, Nat.le_refl _⟩
  | percent | arrowSign | colon | semicolon | bar =>
    cases hds
    exact ⟨_, first?_of_punctuation? _ rfl, Nat.le_refl _⟩

theorem longest_of_first? (h : first? c rest = some l) : Longest l.kind l.chars l.rest := by
  refine ⟨shape_of_first? h, fun k ds after hds heq => ?_⟩
  obtain ⟨d, ds, rfl⟩ := List.exists_cons_of_ne_nil hds.ne_nil
  rw [append_of_first? h] at heq
  obtain ⟨rfl, rfl⟩ := List.cons.inj heq
  obtain ⟨l', hl', hlength⟩ := first?_of_shape hds after
  obtain rfl : l = l' := Option.some.inj (h.symm.trans hl')
  exact hlength

theorem first?_eq_none_iff : first? c rest = none ↔
    ∀ kind ds after, c :: rest = ds ++ after → ¬Shape kind ds := by
  constructor
  · rintro hnone kind ds after heq hds
    obtain ⟨d, ds, rfl⟩ := List.exists_cons_of_ne_nil hds.ne_nil
    obtain ⟨rfl, rfl⟩ := List.cons.inj heq
    obtain ⟨l, hl, -⟩ := first?_of_shape hds after
    cases hnone.symm.trans hl
  · intro hstuck
    rw [Option.eq_none_iff_forall_ne_some]
    intro l hl
    exact hstuck l.kind l.chars l.rest (append_of_first? hl).symm (shape_of_first? hl)

end Lexeme

end PhraseGrammar.Notation
