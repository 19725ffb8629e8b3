import PhraseGrammar.Proofs.Alike
import PhraseGrammar.Proofs.Tokens

/-!
# PhraseGrammar.Proofs.Layout

What stands between tokens means nothing.

* `Layout`: blanks, a line end, or a comment with its end.
* `Scans.layout`: layout may be put before a text that is cut into signs.
* `Cuts`: the front of a text, of which the signs do not depend on the rest unless a name goes on in
  it. `Cuts.behind` is the step of the scanner.
* `Token.Stands`: a token in a text, both ends of which are such places.

`layout_independent`: layout at an end of a token changes no sign, and the signs of a text are all
that its grammar, or the class of its error, depends on.
-/

namespace PhraseGrammar.Notation

/-- What may be put between two tokens: blanks, a line end, a comment with the line end after it, or
a comment up to the first `*/` after its beginning. -/
inductive Layout : List Char → Prop where
  | blanks {cs : List Char} : (∀ c ∈ cs, isBlank c = true) → Layout cs
  | lineEnd : Layout ['\n']
  | lineComment {cs : List Char} : '\n' ∉ cs → Layout ('/' :: '/' :: (cs ++ ['\n']))
  | blockComment {cs : List Char} :
      ¬['*', '/'] <:+: cs ++ ['*'] → Layout ('/' :: '*' :: (cs ++ ['*', '/']))

def Lexeme.signs (l : Lexeme) : List Sign :=
  match l.kind with
  | none => []
  | some kind => [⟨kind, l.chars⟩]

def Scan.signs (s : Scan) : List Sign := (s.tokens ++ [s.eof]).map Token.sign

variable {cs pre rest : List Char} {signs before after : List Sign}

/-! ## Layout before a text -/

theorem Scans.blanks (hcs : ∀ c ∈ cs, isBlank c = true) (h : Scans rest signs) :
    Scans (cs ++ rest) signs := by
  induction cs with
  | nil => exact h
  | cons c cs ih =>
    rw [List.forall_mem_cons] at hcs
    exact (ih hcs.2).blank hcs.1

theorem Scans.lineComment (hcs : '\n' ∉ cs) (h : Scans ('\n' :: rest) signs) :
    Scans ('/' :: '/' :: (cs ++ '\n' :: rest)) signs := by
  have hall : ∀ c ∈ cs, (c != '\n') = true := fun c hc => bne_iff_ne.2 fun heq => hcs (heq ▸ hc)
  have htake : (cs ++ '\n' :: rest).takeWhile (· != '\n') = cs := by
    rw [List.takeWhile_append_of_pos hall]
    simp
  have hdrop : (cs ++ '\n' :: rest).dropWhile (· != '\n') = '\n' :: rest := by
    rw [List.dropWhile_append_of_pos hall]
    simp
  have hfirst : Lexeme.first? '/' ('/' :: (cs ++ '\n' :: rest)) =
      some ⟨none, '/' :: '/' :: cs, '\n' :: rest⟩ := by
    rw [Lexeme.first?_slash, Lexeme.comment?, htake, hdrop]
  exact .skip hfirst rfl h

theorem Scans.blockComment (hcs : ¬['*', '/'] <:+: cs ++ ['*']) (h : Scans rest signs) :
    Scans ('/' :: '*' :: (cs ++ '*' :: '/' :: rest)) signs := by
  have hfirst : Lexeme.first? '/' ('*' :: (cs ++ '*' :: '/' :: rest)) =
      some ⟨none, '/' :: '*' :: (cs ++ ['*', '/']), rest⟩ := by
    rw [Lexeme.first?_slash]
    simp only [Lexeme.comment?, blockCommentEnd_complete hcs]
  exact .skip hfirst rfl h

theorem Scans.layout {f : List Char} (hf : Layout f) (h : Scans rest signs) :
    Scans (f ++ rest) signs := by
  cases hf with
  | blanks hblank => exact h.blanks hblank
  | lineEnd => exact h.newline
  | lineComment hline =>
    have htext := h.newline.lineComment hline
    simpa using htext
  | blockComment hend =>
    have htext := h.blockComment hend
    simpa using htext

theorem Layout.goesOn {f : List Char} (hf : Layout f) (hne : f ≠ []) (rest : List Char) :
    Lexeme.goesOn (f ++ rest) = false := by
  cases hf with
  | blanks hblank =>
    obtain ⟨c, cs, rfl⟩ := List.exists_cons_of_ne_nil hne
    have hc := hblank c List.mem_cons_self
    simp only [isBlank, Bool.or_eq_true, beq_iff_eq] at hc
    rcases hc with ((rfl | rfl) | rfl) | rfl <;> exact show isIdentRest _ = false by decide
  | lineEnd => exact show isIdentRest '\n' = false by decide
  | lineComment | blockComment => exact show isIdentRest '/' = false by decide

/-! ## Tokens before a text -/

/-- A name ends before a text in which no name goes on; other tokens end themselves. -/
def Ends (kind : TokenKind) (rest : List Char) : Prop :=
  kind = .ident ∨ kind = .epsilon → Lexeme.goesOn rest = false

theorem Scans.token {kind : TokenKind} (hshape : Shape (some kind) cs) (hends : Ends kind rest)
    (h : Scans rest signs) : Scans (cs ++ rest) (⟨kind, cs⟩ :: signs) := by
  cases hshape with
  | percent | arrowSign | colon | semicolon | bar => exact h.punctuation rfl
  | arrow => exact h.arrow
  | @doubleQuoted cs hinner =>
    have hfirst : Lexeme.first? '"' (cs ++ '"' :: rest) =
        some ⟨some .doubleQuoted, '"' :: (cs ++ ['"']), rest⟩ := by
      rw [Lexeme.first?_doubleQuote, Lexeme.quoted?, quotedEnd_complete (by decide) hinner]
    have htext := Scans.sign hfirst rfl h
    simpa using htext
  | @singleQuoted cs hinner =>
    have hfirst : Lexeme.first? '\'' (cs ++ '\'' :: rest) =
        some ⟨some .singleQuoted, '\'' :: (cs ++ ['\'']), rest⟩ := by
      rw [Lexeme.first?_singleQuote, Lexeme.quoted?, quotedEnd_complete (by decide) hinner]
    have htext := Scans.sign hfirst rfl h
    simpa using htext
  | epsilon => exact h.epsilon (hends (.inr rfl))
  | ident hident hepsilon => exact h.ident hident hepsilon (hends (.inl rfl))

theorem isIdent_append {d : Char} (hcs : isIdent cs = true) (hd : isIdentRest d = true) :
    isIdent (cs ++ [d]) = true := by
  cases cs with
  | nil => cases hcs
  | cons c cs =>
    simp only [isIdent, Bool.and_eq_true] at hcs
    simp [isIdent, hcs, hd]

/-- What is cut off goes on as far as it can. -/
theorem Longest.ends {kind : TokenKind} (h : Longest (some kind) cs rest) : Ends kind rest := by
  intro hname
  cases rest with
  | nil => rfl
  | cons d rest =>
    by_contra hgoes
    have hd : isIdentRest d = true := Bool.not_eq_false _ ▸ hgoes
    have hident : isIdent cs = true := by
      rcases hname with rfl | rfl
      · cases h.shape with
        | ident hident _ => exact hident
      · cases h.shape with
        | epsilon => decide
    have hlonger : Shape (some .ident) (cs ++ [d]) := by
      refine .ident (isIdent_append hident hd) fun hepsilon => ?_
      have hlength := congrArg List.length hepsilon
      have hpos := List.length_pos_iff.2 h.shape.ne_nil
      simp only [List.length_append, List.length_singleton] at hlength
      omega
    have hlength := h.longest _ _ rest hlonger (List.append_cons cs d rest)
    simp only [List.length_append, List.length_singleton] at hlength
    omega

/-! ## The front of a text -/

/-- The signs at the front of a text, which are there whatever comes after it, unless that goes on
with a name. -/
def Cuts (pre : List Char) (signs : List Sign) : Prop :=
  ∀ rest more, Lexeme.goesOn rest = false → Scans rest more → Scans (pre ++ rest) (signs ++ more)

theorem Cuts.nil : Cuts [] [] := fun _ _ _ h => h

theorem Cuts.token {kind : TokenKind} (h : Shape (some kind) cs) : Cuts cs [⟨kind, cs⟩] :=
  fun _ _ hgoes hrest => hrest.token h fun _ => hgoes

theorem goesOn_append {old : List Char} (hold : Lexeme.goesOn (pre ++ old) = false)
    (hrest : Lexeme.goesOn rest = false) : Lexeme.goesOn (pre ++ rest) = false := by
  cases pre with
  | nil => exact hrest
  | cons c pre => exact hold

theorem Longest.line {d : Char} (h : Longest none ('/' :: '/' :: cs) (d :: rest))
    (hcs : '\n' ∉ cs) : d = '\n' := by
  by_contra hd
  have hlonger : Shape none ('/' :: '/' :: (cs ++ [d])) :=
    .lineComment (by simp [hcs, Ne.symm hd])
  have hlength := h.longest _ _ rest hlonger (by simp)
  simp only [List.length_cons, List.length_append, List.length_nil] at hlength
  omega

/-- A lexeme before the front of a text. A comment must not be cut off from its line end. -/
theorem Cuts.behind {c : Char} {tail old : List Char} {l : Lexeme}
    (hfirst : Lexeme.first? c tail = some l) (hrest : l.rest = pre ++ old)
    (hold : pre = [] → ∃ d more, old = d :: more ∧ d ≠ '\n') (h : Cuts pre signs) :
    Cuts (l.chars ++ pre) (l.signs ++ signs) := by
  intro rest more hgoes hscans
  have hbehind := h rest more hgoes hscans
  have hlongest := Lexeme.longest_of_first? hfirst
  obtain ⟨kind, chars, _⟩ := l
  simp only at hrest hlongest ⊢
  subst hrest
  rw [List.append_assoc, List.append_assoc]
  cases kind with
  | some kind =>
    exact hbehind.token hlongest.shape fun hname => goesOn_append (hlongest.ends hname) hgoes
  | none =>
    cases hlongest.shape with
    | blanks _ hblank => exact hbehind.blanks hblank
    | lineEnd => exact hbehind.newline
    | lineComment hline =>
      cases pre with
      | nil =>
        obtain ⟨d, more, rfl, hd⟩ := hold rfl
        exact absurd (hlongest.line hline) hd
      | cons d pre =>
        obtain rfl := hlongest.line hline
        exact hbehind.lineComment hline
    | blockComment hend =>
      have htext := hbehind.blockComment hend
      simpa [Lexeme.signs] using htext

/-! ## Tokens in a text -/

/-- A token between the front of a text and its rest. What stands before each end of the token has
its signs whatever comes next. -/
structure Token.Stands (t : Token) (pre rest : List Char) (before after : List Sign) : Prop where
  shape : Shape (some t.kind) t.lexeme
  front : Cuts pre before
  through : Cuts (pre ++ t.lexeme) (before ++ [t.sign])
  whole : Scans (t.lexeme ++ rest) (t.sign :: after)
  back : Scans rest after

theorem Shape.exists_cons {kind : TokenKind} (h : Shape (some kind) cs) :
    ∃ d more, cs = d :: more ∧ d ≠ '\n' := by
  cases h with
  | @ident cs hident =>
    cases cs with
    | nil => cases hident
    | cons d cs =>
      refine ⟨d, cs, rfl, ?_⟩
      rintro rfl
      have hstart : isIdentStart '\n' = false := by decide
      simp [isIdent, hstart] at hident
  | _ => exact ⟨_, _, rfl, by decide⟩

theorem Token.Stands.behind {t : Token} {c : Char} {tail : List Char} {l : Lexeme}
    (hfirst : Lexeme.first? c tail = some l) (hrest : l.rest = pre ++ (t.lexeme ++ rest))
    (h : t.Stands pre rest before after) :
    t.Stands (l.chars ++ pre) rest (l.signs ++ before) after := by
  obtain ⟨d, more, hlexeme, hd⟩ := h.shape.exists_cons
  refine ⟨h.shape, ?_, ?_, h.whole, h.back⟩
  · refine h.front.behind hfirst hrest fun _ => ⟨d, more ++ rest, ?_, hd⟩
    rw [hlexeme]
    rfl
  · rw [List.append_assoc, List.append_assoc]
    rw [← List.append_assoc] at hrest
    refine h.through.behind hfirst hrest fun hnil => ?_
    exact absurd (List.append_eq_nil_iff.1 hnil).2 h.shape.ne_nil

/-- Every token that the scanner finds stands in the text, in its place. -/
theorem stands_of_scanFrom {fuel : Nat} {position : Position} {s : Scan} {t : Token}
    (h : scanFrom position fuel cs = .ok s) (ht : t ∈ s.tokens) :
    ∃ pre rest before after, cs = pre ++ (t.lexeme ++ rest) ∧
      t.position.offset = position.offset + pre.length ∧
      s.tokens.map Token.sign = before ++ t.sign :: after ∧ t.Stands pre rest before after := by
  induction fuel generalizing position cs s with
  | zero =>
    cases cs <;> cases h
    cases ht
  | succ fuel ih =>
    cases cs with
    | nil =>
      cases h
      cases ht
    | cons c tail =>
      simp only [scanFrom] at h
      split at h
      · cases h
      rename_i l hfirst
      split at h
      · cases h
      rename_i s' hs'
      -- A token of the rest stands behind this lexeme.
      have hbehind : t ∈ s'.tokens → ∃ pre rest before after,
          c :: tail = pre ++ (t.lexeme ++ rest) ∧
          t.position.offset = position.offset + pre.length ∧
          l.signs ++ s'.tokens.map Token.sign = before ++ t.sign :: after ∧
          t.Stands pre rest before after := by
        intro ht
        obtain ⟨pre, rest, before, after, hrest, hoffset, hsigns, hstands⟩ := ih hs' ht
        refine ⟨l.chars ++ pre, rest, l.signs ++ before, after, ?_, ?_, ?_,
          hstands.behind hfirst hrest⟩
        · rw [← Lexeme.append_of_first? hfirst, hrest, List.append_assoc]
        · rw [hoffset, Position.offset_advance, List.length_append, Nat.add_assoc]
        · rw [hsigns, List.append_assoc]
      split at h <;> rename_i hkind <;> cases h <;> simp only [Lexeme.signs, hkind] at hbehind
      · exact hbehind ht
      · rename_i kind
        rcases List.mem_cons.1 ht with rfl | ht
        · have hshape := Lexeme.shape_of_first? hfirst
          have hrest := scans_of_scanFrom hs'
          rw [hkind] at hshape
          refine ⟨[], l.rest, [], _, (Lexeme.append_of_first? hfirst).symm, rfl, rfl, hshape, .nil,
            .token hshape, ?_, hrest⟩
          have hends := (Lexeme.longest_of_first? hfirst)
          rw [hkind] at hends
          exact hrest.token hshape hends.ends
        · exact hbehind ht

/-! ## Texts -/

theorem Scan.signs_eq (s : Scan) : s.signs = s.tokens.map Token.sign ++ [⟨.eof, []⟩] :=
  List.map_append

theorem Cuts.layout {f : List Char} (hpre : Cuts pre before) (hf : Layout f) (hne : f ≠ [])
    (hrest : Scans rest after) : Scans (pre ++ f ++ rest) (before ++ after) := by
  rw [List.append_assoc]
  exact hpre _ _ (hf.goesOn hne rest) (hrest.layout hf)

theorem scan_layout {source : List Char} {s : Scan} (h : scan source = .ok s) {t : Token}
    (ht : t ∈ s.tokens) {p : Nat} (hp : p = t.position.offset ∨ p = t.stop) {f : List Char}
    (hf : Layout f) :
    ∃ s', scan (source.take p ++ f ++ source.drop p) = .ok s' ∧ s'.signs = s.signs := by
  by_cases hne : f = []
  · refine ⟨s, ?_, rfl⟩
    rw [hne, List.append_nil, List.take_append_drop]
    exact h
  obtain ⟨pre, rest, before, after, htext, hoffset, hsigns, hstands⟩ := stands_of_scanFrom h ht
  have hoffset : t.position.offset = pre.length := by
    rw [hoffset]
    exact Nat.zero_add _
  have hscans : Scans (source.take p ++ f ++ source.drop p) (s.tokens.map Token.sign) := by
    rcases hp with rfl | rfl
    · rw [htext, hoffset, List.take_left, List.drop_left, hsigns]
      exact hstands.front.layout hf hne hstands.whole
    · have hstop : t.stop = (pre ++ t.lexeme).length := by
        rw [Token.stop, hoffset, List.length_append]
      rw [htext, hstop, ← List.append_assoc, List.take_left, List.drop_left, hsigns,
        List.append_cons]
      exact hstands.through.layout hf hne hstands.back
  obtain ⟨s', hs', hsigns'⟩ := scan_of_scans hscans
  exact ⟨s', hs', by rw [Scan.signs_eq, Scan.signs_eq, hsigns']⟩

section

variable [Host]

theorem Token.alike_of_sign {t u : Token} (h : t.sign = u.sign) : t.Alike u := by
  obtain ⟨hkind, hlexeme⟩ := Sign.mk.inj h
  exact ⟨hkind, fun _ => hlexeme, fun _ => congrArg Literal.decode hlexeme⟩

theorem Scan.alike_of_signs {s s' : Scan} (h : s.signs = s'.signs) :
    List.Forall₂ Token.Alike s.tokens s'.tokens := by
  rw [signs_eq, signs_eq, List.append_left_inj, ← List.forall₂_eq_eq_eq,
    List.forall₂_map_left_iff, List.forall₂_map_right_iff] at h
  exact h.imp fun _ _ => Token.alike_of_sign

theorem parse_of_signs {source source' : String} {s s' : Scan} (h : scan source.toList = .ok s)
    (h' : scan source'.toList = .ok s') (hsigns : s.signs = s'.signs) (givenId : Option Text)
    (freshId : Text) :
    SameOutcome (parse source givenId freshId) (parse source' givenId freshId) := by
  refine parse_sameOutcome ?_ givenId freshId
  rw [h, h']
  exact .ok (Scan.alike_of_signs hsigns)

/-- **Layout.** Blanks, a line end or a comment at an end of a token change no token of a text.
Texts with the same tokens, wherever these stand, have one grammar or are refused with one class of
error. -/
theorem layout_independent :
    (∀ (source : List Char) s, scan source = .ok s → ∀ t ∈ s.tokens, ∀ p,
      p = t.position.offset ∨ p = t.stop → ∀ f, Layout f →
        ∃ s', scan (source.take p ++ f ++ source.drop p) = .ok s' ∧ s'.signs = s.signs) ∧
    ∀ (source source' : String) s s', scan source.toList = .ok s → scan source'.toList = .ok s' →
      s.signs = s'.signs → ∀ givenId freshId,
        SameOutcome (parse source givenId freshId) (parse source' givenId freshId) :=
  ⟨fun _ _ h _ ht _ hp _ hf => scan_layout h ht hp hf,
    fun _ _ _ _ h h' hsigns givenId freshId => parse_of_signs h h' hsigns givenId freshId⟩

end

section

open scoped Host

/-- A text with a quoted comment sign and with an `ε` that no blank follows. -/
def denseText : String := "S->ε|\"//\";"

def denseScan : Scan :=
  { tokens := [⟨.ident, ['S'], ⟨0, 1, 1⟩⟩, ⟨.arrow, ['-', '>'], ⟨1, 1, 2⟩⟩,
      ⟨.epsilon, ['ε'], ⟨3, 1, 4⟩⟩, ⟨.bar, ['|'], ⟨4, 1, 5⟩⟩,
      ⟨.doubleQuoted, ['"', '/', '/', '"'], ⟨5, 1, 6⟩⟩, ⟨.semicolon, [';'], ⟨9, 1, 10⟩⟩]
    ending := ⟨10, 1, 11⟩ }

def commentedText : String := "S->ε// '\n|\"//\";"

theorem layout_independent_commented :
    scan denseText.toList = .ok denseScan ∧ Layout "// '\n".toList ∧
      ∃ s g, scan commentedText.toList = .ok s ∧ s.signs = denseScan.signs ∧
        parse denseText none = .ok g ∧ parse commentedText none = .ok g := by
  have hscan : scan denseText.toList = .ok denseScan := eq_ok_of_toOption (by decide +kernel)
  have hlayout : Layout "// '\n".toList :=
    show Layout ('/' :: '/' :: ([' ', '\''] ++ ['\n'])) from .lineComment (by decide)
  have hepsilon : ⟨.epsilon, ['ε'], ⟨3, 1, 4⟩⟩ ∈ denseScan.tokens := by decide
  obtain ⟨s, hs, hsigns⟩ :=
    layout_independent.1 _ _ hscan _ hepsilon 4 (.inr rfl) _ hlayout
  obtain ⟨g, hg⟩ : ∃ g, parse denseText none = .ok g :=
    ⟨(parse denseText none).toOption.get (by decide +kernel), eq_ok_of_toOption (by simp)⟩
  have hsame := layout_independent.2 denseText commentedText _ s hscan hs hsigns.symm none unnamedId
  rw [hg] at hsame
  refine ⟨hscan, hlayout, s, g, hs, hsigns, hg, ?_⟩
  generalize parse commentedText none = x at hsame ⊢
  cases hsame
  rfl

end

end PhraseGrammar.Notation
