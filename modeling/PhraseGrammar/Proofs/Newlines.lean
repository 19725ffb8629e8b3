import PhraseGrammar.Proofs.Alike
import PhraseGrammar.Proofs.Formatting
import PhraseGrammar.Proofs.Lexemes
import PhraseGrammar.Proofs.Loading

/-!
# PhraseGrammar.Proofs.Newlines

Line ends that are written with a carriage return.

* `Paired`: texts in which a line feed follows every carriage return.
* `quotedEnd_unify`, `blockCommentEnd_unify`, `Lexeme.first?_unify`: a lexeme is found where it is
  found when the line ends are unified first. Only blanks and comments may lose a carriage return.
* `decode_unify`: a quoted text stays the same.
* `scanFrom_unify`: so both texts are cut into tokens that are read alike.

`newlines_agree`: such a text is the grammar that it is with its line ends unified, and the one that
a file with the text gives.
-/

namespace PhraseGrammar

namespace Text

/-! ## Unified line ends -/

theorem unify_line (cs : List Char) :
    unifyNewlines ('\r' :: '\n' :: cs) = '\n' :: unifyNewlines cs := by
  rw [unifyNewlines]

theorem unify_char {c : Char} (hc : c ≠ '\r') (cs : List Char) :
    unifyNewlines (c :: cs) = c :: unifyNewlines cs :=
  unifyNewlines.eq_4 c cs (fun _ h _ => hc h) hc

theorem return_notMem_unify (cs : List Char) : '\r' ∉ unifyNewlines cs := by
  fun_induction unifyNewlines cs with
  | case1 => exact List.not_mem_nil
  | case2 rest ih | case3 rest _ ih => simp [ih]
  | case4 c rest _ hc ih => simp [ih, Ne.symm hc]

theorem unify_unify (cs : List Char) : unifyNewlines (unifyNewlines cs) = unifyNewlines cs :=
  unifyNewlines_of_notMem (return_notMem_unify cs)

theorem mem_unify {c : Char} (hreturn : c ≠ '\r') (hfeed : c ≠ '\n') (cs : List Char) :
    c ∈ unifyNewlines cs ↔ c ∈ cs := by
  fun_induction unifyNewlines cs with
  | case1 => rfl
  | case2 rest ih | case3 rest _ ih => simp [ih, hreturn, hfeed]
  | case4 d rest _ _ ih => simp [ih]

/-- Line ends are unified piece by piece, unless a line feed is cut off from its carriage return. -/
theorem unify_append {c : Char} (hc : c ≠ '\n') (cs rest : List Char) :
    unifyNewlines (cs ++ c :: rest) = unifyNewlines cs ++ unifyNewlines (c :: rest) := by
  fun_induction unifyNewlines cs with
  | case1 => rfl
  | case2 cs ih => simp [unify_line, ih]
  | case3 cs hcs ih =>
    have hnext : ∀ tail, cs ++ c :: rest = '\n' :: tail → False := by
      intro tail htail
      cases cs with
      | nil => exact hc (List.cons.inj htail).1
      | cons d cs =>
        cases htail
        exact hcs cs rfl
    rw [List.cons_append, unifyNewlines.eq_3 _ hnext, ih]
    rfl
  | case4 d cs _ hd ih => simp [unify_char hd, ih]

theorem head?_unify {c : Char} (hreturn : c ≠ '\r') (hfeed : c ≠ '\n') (cs : List Char) :
    (unifyNewlines cs).head? = some c ↔ cs.head? = some c := by
  fun_cases unifyNewlines cs with
  | case1 => rfl
  | case2 | case3 => simp [hreturn.symm, hfeed.symm]
  | case4 => rfl

end Text

namespace Notation

open Text (unifyNewlines unifyNewlines_of_notMem unify_line unify_char unify_append unify_unify
  return_notMem_unify mem_unify head?_unify)

/-- A line feed follows every carriage return. -/
inductive Paired : List Char → Prop where
  | nil : Paired []
  | line {cs : List Char} : Paired cs → Paired ('\r' :: '\n' :: cs)
  | char {c : Char} {cs : List Char} : c ≠ '\r' → Paired cs → Paired (c :: cs)

variable {cs pre rest : List Char}

/-! ## Paired texts -/

theorem paired_iff : Paired cs ↔
    ∀ before after, cs = before ++ '\r' :: after → after.head? = some '\n' := by
  constructor
  · intro h
    induction h with
    | nil =>
      intro before after heq
      cases before <;> cases heq
    | line _ ih =>
      intro before after heq
      match before with
      | [] => cases heq; rfl
      | [c] => cases heq
      | _ :: _ :: before => exact ih before after (by cases heq; rfl)
    | char hc _ ih =>
      intro before after heq
      cases before with
      | nil => exact absurd (List.cons.inj heq).1 hc
      | cons d before => exact ih before after (List.cons.inj heq).2
  · intro h
    fun_induction unifyNewlines cs with
    | case1 => exact .nil
    | case2 rest ih =>
      exact .line (ih fun before after heq => h ('\r' :: '\n' :: before) after (by rw [heq]; rfl))
    | case3 rest hrest ih =>
      obtain ⟨tail, htail⟩ := List.head?_eq_some_iff.1 (h [] rest rfl)
      exact absurd htail (hrest tail)
    | case4 c rest _ hc ih =>
      exact .char hc (ih fun before after heq => h (c :: before) after (by rw [heq]; rfl))

theorem Paired.of_append (h : Paired (pre ++ cs)) : Paired cs := by
  rw [paired_iff] at h ⊢
  intro before after heq
  exact h (pre ++ before) after (by rw [heq, List.append_assoc])

/-! ## Lexemes -/

theorem dropWhile_unify {test : Char → Bool} (htest : test '\n' = false) (h : Paired cs) :
    (unifyNewlines cs).dropWhile test = unifyNewlines (cs.dropWhile test) := by
  induction h with
  | nil => rfl
  | @line cs _ _ =>
    have hfeed : unifyNewlines ('\n' :: cs) = '\n' :: unifyNewlines cs :=
      unify_char (by decide) cs
    by_cases hreturn : test '\r' = true <;>
      simp [unify_line, hfeed, htest, hreturn]
  | @char c cs hc _ ih =>
    by_cases hc' : test c = true <;> simp [unify_char hc, hc', ih]

theorem takeWhile_unify {test : Char → Bool} (hreturn : test '\r' = false)
    (hfeed : test '\n' = false) (h : Paired cs) :
    (unifyNewlines cs).takeWhile test = cs.takeWhile test := by
  induction h with
  | nil => rfl
  | line _ _ => simp [unify_line, hreturn, hfeed]
  | @char c cs hc _ ih =>
    by_cases hc' : test c = true <;> simp [unify_char hc, hc', ih]

theorem goesOn_unify (h : Paired cs) : Lexeme.goesOn (unifyNewlines cs) = Lexeme.goesOn cs := by
  cases h with
  | nil => rfl
  | line _ => exact show isIdentRest '\n' = isIdentRest '\r' by decide
  | char hc _ => rw [unify_char hc]; rfl

theorem quotedEnd_plain {quote c : Char} (hquote : c ≠ quote) (hbackslash : c ≠ '\\')
    (cs : List Char) :
    quotedEnd quote (c :: cs) = (quotedEnd quote cs).map (Prod.map (c :: ·) id) := by
  rw [quotedEnd.eq_def]
  simp only [if_neg hquote, if_neg hbackslash]
  cases quotedEnd quote cs <;> rfl

theorem quotedEnd_escaped {quote : Char} (hquote : '\\' ≠ quote) (c : Char) (cs : List Char) :
    quotedEnd quote ('\\' :: c :: cs) =
      (quotedEnd quote cs).map (Prod.map (['\\', c] ++ ·) id) := by
  rw [quotedEnd.eq_def]
  simp only [if_neg hquote, if_true]
  cases quotedEnd quote cs <;> rfl

/-- A quoted text ends at the same quote. A line end in it may be behind a backslash. -/
theorem quotedEnd_unify {quote : Char} (hreturn : quote ≠ '\r') (hfeed : quote ≠ '\n')
    (h : Paired cs) :
    quotedEnd quote (unifyNewlines cs) =
      (quotedEnd quote cs).map (Prod.map unifyNewlines unifyNewlines) := by
  induction hn : cs.length using Nat.strongRecOn generalizing cs with
  | ind n ih =>
  have hplain : ∀ rest, quotedEnd quote ('\n' :: rest) = _ :=
    quotedEnd_plain hfeed.symm (by decide)
  have hplain' : ∀ rest, quotedEnd quote ('\r' :: rest) = _ :=
    quotedEnd_plain hreturn.symm (by decide)
  cases h with
  | nil => rfl
  | @line cs h =>
    have hmore := ih cs.length (by rw [← hn, List.length_cons, List.length_cons]; omega) h rfl
    rw [unify_line, hplain, hplain', hplain, hmore]
    cases quotedEnd quote cs <;> simp [Prod.map, unify_line]
  | @char c cs hc h =>
    rw [unify_char hc]
    by_cases hquote : c = quote
    · subst hquote
      rw [quotedEnd_self, quotedEnd_self]
      simp [unify_char hc, unifyNewlines]
    by_cases hc' : c = '\\'
    · subst hc'
      cases h with
      | nil =>
        have hopen : quotedEnd quote ['\\'] = none := by
          rw [quotedEnd.eq_def]
          simp [hquote]
        have hnil : unifyNewlines [] = [] := rfl
        rw [hnil, hopen]
        rfl
      | @line cs h =>
        have hmore := ih cs.length (by rw [← hn]; simp only [List.length_cons]; omega) h rfl
        rw [unify_line, quotedEnd_escaped hquote, quotedEnd_escaped hquote, hplain, hmore]
        cases quotedEnd quote cs <;> simp [Prod.map, unify_line, unify_char]
      | @char d cs hd h =>
        have hmore := ih cs.length (by rw [← hn]; simp only [List.length_cons]; omega) h rfl
        rw [unify_char hd, quotedEnd_escaped hquote, quotedEnd_escaped hquote, hmore]
        cases quotedEnd quote cs <;> simp [Prod.map, unify_char hd, unify_char]
    · have hmore := ih cs.length (by rw [← hn]; simp) h rfl
      rw [quotedEnd_plain hquote hc', quotedEnd_plain hquote hc', hmore]
      cases quotedEnd quote cs <;> simp [Prod.map, unify_char hc]

theorem blockCommentEnd_cons {c : Char} (h : ¬(c = '*' ∧ cs.head? = some '/')) :
    blockCommentEnd (c :: cs) = (blockCommentEnd cs).map (Prod.map (c :: ·) id) := by
  have hopen : ∀ rest, c = '*' → cs = '/' :: rest → False := by
    rintro rest rfl rfl
    exact h ⟨rfl, rfl⟩
  rw [blockCommentEnd.eq_3 _ _ hopen]
  cases blockCommentEnd cs <;> rfl

theorem blockCommentEnd_unify (h : Paired cs) :
    blockCommentEnd (unifyNewlines cs) =
      (blockCommentEnd cs).map (Prod.map unifyNewlines unifyNewlines) := by
  induction h with
  | nil => rfl
  | @line cs _ ih =>
    rw [unify_line, blockCommentEnd_cons (by simp), blockCommentEnd_cons (by simp),
      blockCommentEnd_cons (by simp), ih]
    cases blockCommentEnd cs <;> simp [Prod.map, unify_line]
  | @char c cs hc _ ih =>
    rw [unify_char hc]
    by_cases hend : c = '*' ∧ cs.head? = some '/'
    · obtain ⟨rfl, hslash⟩ := hend
      obtain ⟨tail, rfl⟩ := List.head?_eq_some_iff.1 hslash
      rw [unify_char (by decide)]
      simp [blockCommentEnd, unify_char, unifyNewlines]
    · have hend' : ¬(c = '*' ∧ (unifyNewlines cs).head? = some '/') := by
        rwa [head?_unify (by decide) (by decide)]
      rw [blockCommentEnd_cons hend, blockCommentEnd_cons hend', ih]
      cases blockCommentEnd cs <;> simp [Prod.map, unify_char hc]

namespace Lexeme

variable {c : Char}

/-- The same lexeme, with line ends unified. Only blanks and comments may be cut off from the line
feed of a pair; their characters do not matter. -/
structure Unifies (l l' : Lexeme) : Prop where
  kind : l'.kind = l.kind
  chars : l.kind ≠ none → l'.chars = unifyNewlines l.chars
  rest : l'.rest = unifyNewlines l.rest

theorem quoted?_unify {kind : TokenKind} {quote : Char} (hreturn : quote ≠ '\r')
    (hfeed : quote ≠ '\n') (h : Paired rest) :
    Option.Rel Unifies (quoted? kind quote rest) (quoted? kind quote (unifyNewlines rest)) := by
  unfold quoted?
  rw [quotedEnd_unify hreturn hfeed h]
  cases quotedEnd quote rest with
  | none => exact .none
  | some split => exact .some ⟨rfl, fun _ => (unify_char hreturn _).symm, rfl⟩

theorem comment?_unify (h : Paired rest) :
    Option.Rel Unifies (comment? rest) (comment? (unifyNewlines rest)) := by
  cases h with
  | nil => exact .none
  | line _ =>
    rw [unify_line]
    exact .none
  | @char c rest hc h =>
    rw [unify_char hc]
    by_cases hslash : c = '/'
    · subst hslash
      exact .some ⟨rfl, fun hkind => absurd rfl hkind, dropWhile_unify rfl h⟩
    by_cases hstar : c = '*'
    · subst hstar
      simp only [comment?, blockCommentEnd_unify h]
      cases blockCommentEnd rest with
      | none => exact .none
      | some split => exact .some ⟨rfl, fun hkind => absurd rfl hkind, rfl⟩
    · have hnone : ∀ rest, comment? (c :: rest) = none := by
        intro rest
        unfold comment?
        split
        · rename_i heq
          exact absurd (List.cons.inj heq).1 hslash
        · rename_i heq
          exact absurd (List.cons.inj heq).1 hstar
        · rfl
      rw [hnone, hnone]
      exact .none

theorem arrow?_unify (h : Paired rest) :
    Option.Rel Unifies (arrow? rest) (arrow? (unifyNewlines rest)) := by
  cases h with
  | nil => exact .none
  | line _ =>
    rw [unify_line]
    exact .none
  | @char c rest hc h =>
    rw [unify_char hc]
    by_cases hhead : c = '>'
    · subst hhead
      refine .some ⟨rfl, fun _ => ?_, rfl⟩
      rw [unify_char (by decide), unify_char (by decide)]
      rfl
    · have hnone : ∀ rest, arrow? (c :: rest) = none := by
        intro rest
        unfold arrow?
        split
        · rename_i heq
          exact absurd (List.cons.inj heq).1 hhead
        · rfl
      rw [hnone, hnone]
      exact .none

theorem name_unifies (hc : isIdentStart c = true) (h : Paired rest) :
    Unifies (name c rest) (name c (unifyNewlines rest)) := by
  have hreturn : c ≠ '\r' := by
    rintro rfl
    revert hc
    decide
  unfold name
  rw [goesOn_unify h]
  split
  · exact ⟨rfl, fun _ => (unify_char hreturn []).symm, rfl⟩
  · refine ⟨rfl, fun _ => ?_, dropWhile_unify (by decide) h⟩
    have hrun : '\r' ∉ c :: rest.takeWhile isIdentRest := by
      rintro (_ | ⟨_, hmem⟩)
      · exact hreturn rfl
      · have hrest := List.mem_takeWhile_imp hmem
        revert hrest
        decide
    simp only [run]
    rw [takeWhile_unify (by decide) (by decide) h, unifyNewlines_of_notMem hrun]

theorem first?_unify (hc : c ≠ '\r') (h : Paired rest) :
    Option.Rel Unifies (first? c rest) (first? c (unifyNewlines rest)) := by
  by_cases hblank : isBlank c = true
  · rw [first?_of_isBlank _ hblank, first?_of_isBlank _ hblank]
    exact .some ⟨rfl, fun hkind => absurd rfl hkind, dropWhile_unify (by decide) h⟩
  by_cases hstart : isIdentStart c = true
  · rw [first?_of_isIdentStart _ hstart, first?_of_isIdentStart _ hstart]
    exact .some (name_unifies hstart h)
  unfold first?
  rw [if_neg hblank, if_neg hblank, if_neg hstart, if_neg hstart]
  split
  · exact .some ⟨rfl, fun hkind => absurd rfl hkind, rfl⟩
  · exact comment?_unify h
  · exact arrow?_unify h
  · exact quoted?_unify (by decide) (by decide) h
  · exact quoted?_unify (by decide) (by decide) h
  · cases punctuation? c with
    | none => exact .none
    | some kind => exact .some ⟨rfl, fun _ => (unify_char hc []).symm, rfl⟩

end Lexeme

/-! ## Tokens -/

section

variable [Host]

/-- A quoted text is read with its line ends unified. -/
theorem decode_unify {quote : Char} (hreturn : quote ≠ '\r') (hfeed : quote ≠ '\n')
    (inner : List Char) :
    Literal.decode (unifyNewlines (quote :: (inner ++ [quote]))) =
      Literal.decode (quote :: (inner ++ [quote])) := by
  have hlast : unifyNewlines [quote] = [quote] := unify_char hreturn []
  rw [unify_char hreturn, unify_append hfeed, hlast]
  have hnul : (quote :: (unifyNewlines inner ++ [quote])).contains '\x00' =
      (quote :: (inner ++ [quote])).contains '\x00' := by
    rw [Bool.eq_iff_iff, List.contains_iff_mem, List.contains_iff_mem]
    simp only [List.mem_cons, List.mem_append, mem_unify (c := '\x00') (by decide) (by decide)]
  simp only [Literal.decode, hnul, List.drop_succ_cons, List.drop_zero, List.dropLast_concat,
    unify_unify]

end

/-- Only a quoted text may have a carriage return in it. -/
theorem Shape.return_notMem {kind : TokenKind} (h : Shape (some kind) cs)
    (hkind : kind.isQuoted = false) : '\r' ∉ cs := by
  cases h with
  | doubleQuoted | singleQuoted => cases hkind
  | ident hident _ => exact fun hr => absurd (not_control_of_isIdent hident hr) (by decide)
  | _ => decide

section

variable [Host]

theorem alike_unify {kind : TokenKind} (h : Shape (some kind) cs) (p q : Position) :
    Token.Alike ⟨kind, cs, p⟩ ⟨kind, unifyNewlines cs, q⟩ := by
  refine ⟨rfl, fun hkind => ?_, fun hkind => ?_⟩
  · exact (unifyNewlines_of_notMem (h.return_notMem hkind)).symm
  · cases h with
    | doubleQuoted | singleQuoted => exact (decode_unify (by decide) (by decide) _).symm
    | _ => cases hkind

theorem alike_step {c : Char} {rest rest' : List Char} {l l' : Lexeme}
    (hl : Lexeme.first? c rest = some l) (hl' : Lexeme.first? c rest' = some l')
    (hunifies : l.Unifies l') {fuel fuel' : Nat} {p q : Position}
    (h : Scan.Alike (scanFrom (p.advance l.chars) fuel l.rest)
      (scanFrom (q.advance l'.chars) fuel' l'.rest)) :
    Scan.Alike (scanFrom p (fuel + 1) (c :: rest)) (scanFrom q (fuel' + 1) (c :: rest')) := by
  simp only [scanFrom, hl, hl', hunifies.kind]
  generalize scanFrom (p.advance l.chars) fuel l.rest = a at h ⊢
  generalize scanFrom (q.advance l'.chars) fuel' l'.rest = b at h ⊢
  cases h with
  | error c p q => exact .error c p q
  | ok htokens =>
    cases hkind : l.kind with
    | none => exact .ok htokens
    | some kind =>
      have hshape := Lexeme.shape_of_first? hl
      rw [hkind] at hshape
      have hchars := hunifies.chars (by rw [hkind]; exact Option.some_ne_none kind)
      simp only [hchars]
      exact .ok (.cons (alike_unify hshape p q) htokens)

/-- Both scans find tokens that are read alike, or stop at one character. -/
theorem scanFrom_unify {fuel fuel' : Nat} (h : Paired cs) (hfuel : cs.length ≤ fuel)
    (hfuel' : (unifyNewlines cs).length ≤ fuel') (p q : Position) :
    Scan.Alike (scanFrom p fuel cs) (scanFrom q fuel' (unifyNewlines cs)) := by
  induction fuel generalizing fuel' cs p q with
  | zero =>
    obtain rfl := List.length_eq_zero_iff.1 (Nat.le_zero.1 hfuel)
    cases fuel' <;> exact .ok .nil
  | succ fuel ih =>
    cases h with
    | nil => cases fuel' <;> exact .ok .nil
    | @line cs h =>
      -- The carriage return is a blank, and the line feed after it begins both texts then.
      have hfirst : Lexeme.first? '\r' ('\n' :: cs) = some ⟨none, ['\r'], '\n' :: cs⟩ :=
        Lexeme.first?_of_isBlank ('\n' :: cs) rfl
      have hfeed : Paired ('\n' :: cs) := .char (by decide) h
      rw [unify_line, ← unify_char (by decide)] at hfuel' ⊢
      have hmore := ih hfeed (Nat.le_of_succ_le_succ hfuel) hfuel' (p.advance ['\r']) q
      simp only [scanFrom, hfirst]
      generalize scanFrom (p.advance ['\r']) fuel ('\n' :: cs) = a at hmore ⊢
      generalize scanFrom q fuel' (unifyNewlines ('\n' :: cs)) = b at hmore ⊢
      cases hmore with
      | error c p q => exact .error c p q
      | ok htokens => exact .ok htokens
    | @char c rest hc h =>
      rw [unify_char hc] at hfuel' ⊢
      rw [List.length_cons] at hfuel hfuel'
      obtain ⟨fuel', rfl⟩ : ∃ n, fuel' = n + 1 := ⟨fuel' - 1, by omega⟩
      have hfirst := Lexeme.first?_unify hc h
      cases hl : Lexeme.first? c rest <;> cases hl' : Lexeme.first? c (unifyNewlines rest) <;>
        rw [hl, hl'] at hfirst <;> cases hfirst
      case none.none =>
        simp only [scanFrom, hl, hl']
        exact .error c p q
      case some.some l l' hunifies =>
        have hpaired : Paired l.rest := by
          have htext : Paired (c :: rest) := .char hc h
          rw [← Lexeme.append_of_first? hl] at htext
          exact htext.of_append
        have hshorter := Lexeme.length_rest_of_first? hl
        have hshorter' := Lexeme.length_rest_of_first? hl'
        rw [hunifies.rest] at hshorter'
        have hmore := ih hpaired (by omega) (Nat.le_trans hshorter' (by omega : _ ≤ fuel'))
          (p.advance l.chars) (q.advance l'.chars)
        rw [← hunifies.rest] at hmore
        exact alike_step hl hl' hunifies hmore

theorem scan_unify (h : Paired cs) : Scan.Alike (scan cs) (scan (unifyNewlines cs)) :=
  scanFrom_unify h (Nat.le_refl _) (Nat.le_refl _) .start .start

end

/-! ## Texts and files -/

/-- A file has the grammar of a text, or both are refused with one class of error. -/
inductive SameLoad : Except LoadError Loaded → Except ParseError Grammar → Prop where
  | grammar (l : Loaded) : SameLoad (.ok l) (.ok l.grammar)
  | error {e e' : ParseError} :
      e.fault.errorClass = e'.fault.errorClass → SameLoad (.error (.text e)) (.error e')

section

variable [Host]

theorem loadNotation_of_sameOutcome {text : List Char} {givenId : Option Text} {freshId : Text}
    {x : Except ParseError Grammar}
    (h : SameOutcome x (parse (String.ofList text) givenId freshId)) :
    SameLoad (loadNotation text givenId freshId) x := by
  unfold parse at h
  rw [String.toList_ofList] at h
  unfold loadNotation
  cases hd : declarations text with
  | error e =>
    rw [hd] at h
    cases h with
    | error hclass => exact .error hclass.symm
  | ok d =>
    rw [hd] at h
    simp only at h ⊢
    cases hg : d.grammar givenId freshId with
    | error e =>
      rw [hg] at h
      cases h with
      | error hclass => exact .error hclass.symm
    | ok g =>
      rw [hg] at h
      cases h with
      | grammar => exact .grammar ⟨g, _⟩

/-- **Line ends.** Where a line feed follows every carriage return, a text has the grammar that it
has with its line ends unified, or both are refused with one class of error. So it is with a file
that holds the text. -/
theorem newlines_agree {source : String}
    (h : ∀ before after, source.toList = before ++ '\r' :: after → after.head? = some '\n')
    (givenId : Option Text) (freshId : Text) :
    SameOutcome (parse source givenId freshId)
        (parse (String.ofList (unifyNewlines source.toList)) givenId freshId) ∧
      ∀ path, Files.isRecordPath path = false →
        SameLoad (loadGrammar path (Text.Utf8.encode source.toList) givenId freshId)
          (parse source givenId freshId) := by
  have hsame : SameOutcome (parse source givenId freshId)
      (parse (String.ofList (unifyNewlines source.toList)) givenId freshId) := by
    refine parse_sameOutcome ?_ givenId freshId
    rw [String.toList_ofList]
    exact scan_unify (paired_iff.2 h)
  refine ⟨hsame, fun path hpath => ?_⟩
  simp only [loadGrammar, loadText, Text.Utf8.decode_encode, hpath, Bool.false_eq_true, if_false]
  exact loadNotation_of_sameOutcome hsame

end

section

open scoped Host

/-- Line ends with a carriage return between tokens, after a comment and, behind a backslash, in a
quoted text. -/
def carriedText : String := "S:\r\n'a\\\r\nb' // x\r\n;\r\n"

theorem newlines_agree_carried :
    (∀ before after, carriedText.toList = before ++ '\r' :: after → after.head? = some '\n') ∧
      ∃ g, parse carriedText none = .ok g ∧
        parse "S:\n'a\\\nb' // x\n;\n" none = .ok g ∧
        ∃ log, loadGrammar "a.g" (Text.Utf8.encode carriedText.toList) none = .ok ⟨g, log⟩ := by
  have hpaired : Paired carriedText.toList := by
    have htext : carriedText.toList = ['S', ':', '\r', '\n', '\'', 'a', '\\', '\r', '\n', 'b', '\'',
        ' ', '/', '/', ' ', 'x', '\r', '\n', ';', '\r', '\n'] := by decide
    rw [htext]
    repeat first | exact .nil | apply Paired.line | apply Paired.char (by decide)
  have hreturns := paired_iff.1 hpaired
  obtain ⟨g, hg⟩ : ∃ g, parse carriedText none = .ok g :=
    ⟨(parse carriedText none).toOption.get (by decide +kernel), eq_ok_of_toOption (by simp)⟩
  obtain ⟨hsame, hload⟩ := newlines_agree hreturns none unnamedId
  have hload := hload "a.g" (by decide)
  have htext : String.ofList (unifyNewlines carriedText.toList) = "S:\n'a\\\nb' // x\n;\n" := by
    decide +kernel
  rw [htext, hg] at hsame
  rw [hg] at hload
  refine ⟨hreturns, g, hg, ?_, ?_⟩
  · generalize parse "S:\n'a\\\nb' // x\n;\n" none = x at hsame ⊢
    cases hsame
    rfl
  · generalize loadGrammar "a.g" (Text.Utf8.encode carriedText.toList) none = x at hload ⊢
    cases hload with
    | grammar l => exact ⟨l.log, rfl⟩

end

end Notation

end PhraseGrammar
