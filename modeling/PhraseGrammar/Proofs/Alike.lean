import Mathlib.Data.List.Forall2
import PhraseGrammar.Proofs.Syntax

/-!
# PhraseGrammar.Proofs.Alike

Two texts with tokens that are read alike.

* `Token.Alike`: tokens of one kind and of one lexeme or, if they are quoted, of one text. They may
  stand in different places.
* `Fault.Alike`: faults that differ in their places only.
* `Parallel`: two results, both faults that are alike or both values that correspond.
* `readSymbols_parallel`, …, `readItems_parallel`: each reader goes the same way on both texts.

`parse_sameOutcome`: the texts are one grammar, or both fail with one class of error.
-/

namespace PhraseGrammar.Notation

/-- Faults that differ in their places only. -/
inductive Fault.Alike : Fault → Fault → Prop where
  | scan (c : Char) (p q : Position) : Alike (.scan ⟨c, p⟩) (.scan ⟨c, q⟩)
  | located (problem : Problem) (p q : Position) : Alike (.located problem p) (.located problem q)
  | missingSemicolon (statement : Statement) {found found' : Token} (anchor anchor' : Nat) :
      found.kind = found'.kind →
      Alike (.missingSemicolon statement found anchor) (.missingSemicolon statement found' anchor')
  | literal (fault : Literal.Fault) : Alike (.literal fault) (.literal fault)
  | noStart : Alike .noStart .noStart

/-- Two results: faults that are alike, or values that correspond. -/
inductive Parallel {α : Type} (R : α → α → Prop) : Except Fault α → Except Fault α → Prop where
  | error {e e' : Fault} : e.Alike e' → Parallel R (.error e) (.error e')
  | ok {a a' : α} : R a a' → Parallel R (.ok a) (.ok a')

inductive ErrorClass where
  /-- The text is not in the notation. -/
  | malformed
  /-- A quoted text holds a nul, and nothing can be said of it as a literal. -/
  | value
deriving DecidableEq, Repr

def Fault.errorClass : Fault → ErrorClass
  | .literal .nul => .value
  | _ => .malformed

/-- Two texts have one grammar, or both are refused with one class of error. -/
inductive SameOutcome : Except ParseError Grammar → Except ParseError Grammar → Prop where
  | grammar (g : Grammar) : SameOutcome (.ok g) (.ok g)
  | error {e e' : ParseError} :
      e.fault.errorClass = e'.fault.errorClass → SameOutcome (.error e) (.error e')

theorem Fault.Alike.errorClass_eq {e e' : Fault} (h : e.Alike e') :
    e.errorClass = e'.errorClass := by
  cases h <;> rfl

theorem Fault.Alike.refl (e : Fault) : e.Alike e := by
  cases e with
  | scan fault => exact .scan fault.char fault.position fault.position
  | located problem p => exact .located problem p p
  | missingSemicolon statement found anchor => exact .missingSemicolon statement anchor anchor rfl
  | literal fault => exact .literal fault
  | noStart => exact .noStart

theorem Parallel.fault {α : Type} {R : α → α → Prop} (problem : Problem) (t u : Token) :
    Parallel R (.error (t.fault problem)) (.error (u.fault problem)) :=
  .error (.located problem t.position u.position)

/-- What is said of two results needs only to be said of faults that are alike, which are passed on,
and of values that correspond. -/
@[elab_as_elim]
theorem Parallel.elim {α : Type} {R : α → α → Prop}
    {motive : Except Fault α → Except Fault α → Prop} {x y : Except Fault α} (h : Parallel R x y)
    (error : ∀ e e', e.Alike e' → motive (.error e) (.error e'))
    (ok : ∀ a a', R a a' → motive (.ok a) (.ok a')) : motive x y := by
  cases h with
  | error he => exact error _ _ he
  | ok haa => exact ok _ _ haa

theorem Directive.item_parallel {percent percent' word word' : Token}
    (hword : word.lexeme = word'.lexeme) (d : Directive) (arguments : List Symbol) :
    Parallel Eq (d.item percent word arguments) (d.item percent' word' arguments) := by
  cases d with
  | head =>
    simp only [Directive.item]
    split
    · exact .fault _ word word'
    · exact .ok rfl
  | terminals | nonterminals => exact .ok rfl
  | name | id | start =>
    simp only [Directive.item, ← hword]
    split
    · exact .ok rfl
    · exact .fault _ percent percent'
  | type =>
    simp only [Directive.item, ← hword]
    split
    · simp only [Directive.itemOfValue]
      split
      · exact .ok rfl
      · exact .fault _ word word'
    · exact .fault _ percent percent'

section

variable [Host]

/-- Tokens that are read alike, wherever they stand. -/
structure Token.Alike (t u : Token) : Prop where
  kind : t.kind = u.kind
  lexeme : t.kind.isQuoted = false → t.lexeme = u.lexeme
  decode : t.kind.isQuoted = true → Literal.decode t.lexeme = Literal.decode u.lexeme

theorem Token.Alike.symbol_eq {t u : Token} (h : t.Alike u) : t.symbol = u.symbol := by
  obtain ⟨kind, lexeme, position⟩ := t
  obtain ⟨hkind, hlexeme, hdecode⟩ := h
  unfold Token.symbol
  rw [← hkind]
  cases kind
  case doubleQuoted | singleQuoted => rw [hdecode rfl]
  all_goals rw [hlexeme rfl]

theorem Token.Alike.lexeme_eq {t u : Token} (h : t.Alike u) (hident : t.kind = .ident) :
    t.lexeme = u.lexeme := h.lexeme (by rw [hident]; rfl)

variable {eof eof' : Token} {ts us : List Token}

/-! ## Symbols -/

def Symbols.Alike (a b : Symbols) : Prop :=
  a.symbols = b.symbols ∧ List.Forall₂ Token.Alike a.rest b.rest

theorem Symbols.Alike.cons {a b : Symbols} (h : a.Alike b) (s : Symbol) (t u : Token) :
    (a.cons s t).Alike (b.cons s u) :=
  ⟨congrArg (List.cons s) h.1, h.2⟩

theorem readSymbols_parallel (ends : TokenKind → Bool) (h : List.Forall₂ Token.Alike ts us) :
    Parallel Symbols.Alike (readSymbols eof ends ts) (readSymbols eof' ends us) := by
  -- A symbol takes one token or two, so the induction is on the number of tokens.
  induction hn : ts.length using Nat.strongRecOn generalizing ts us with
  | ind n ih =>
  cases h with
  | nil => exact .ok ⟨rfl, .nil⟩
  | @cons t u ts us ht hrest =>
    rw [readSymbols.eq_def, readSymbols.eq_def]
    simp only [← ht.kind, ← ht.symbol_eq]
    split
    · exact .ok ⟨rfl, .cons ht hrest⟩
    split
    · cases t.symbol with
      | error e => exact .error (.refl e)
      | ok s =>
        have hmore := ih ts.length (by rw [← hn, List.length_cons]; omega) hrest rfl
        exact hmore.elim (fun _ _ => .error) fun a b hab => .ok (hab.cons s t u)
    split
    · cases hrest with
      | nil => exact .fault _ eof eof'
      | @cons word word' ts us hword hrest =>
        simp only [← hword.kind]
        split
        · exact .fault _ word word'
        rename_i hident
        rw [← hword.lexeme_eq (not_not.1 hident)]
        split
        · exact .fault _ word word'
        have hshorter : ts.length < n := by
          rw [← hn, List.length_cons, List.length_cons]
          omega
        have hmore := ih ts.length hshorter hrest rfl
        exact hmore.elim (fun _ _ => .error) fun a b hab => .ok (hab.cons .epsilon word word')
    · exact .fault _ t u

theorem readSemicolon_parallel (heof : eof.kind = eof'.kind) (statement : Statement)
    (anchor anchor' : Nat) (h : List.Forall₂ Token.Alike ts us) :
    Parallel (List.Forall₂ Token.Alike) (readSemicolon eof statement anchor ts)
      (readSemicolon eof' statement anchor' us) := by
  cases h with
  | nil => exact .error (.missingSemicolon statement anchor anchor' heof)
  | @cons t u ts us ht hrest =>
    simp only [readSemicolon, ← ht.kind]
    split
    · exact .ok hrest
    · exact .error (.missingSemicolon statement anchor anchor' ht.kind)

/-! ## Statements -/

/-- The same statement, with tokens after it that are alike. -/
def SameItem (a b : Item × List Token) : Prop :=
  a.1 = b.1 ∧ List.Forall₂ Token.Alike a.2 b.2

theorem readDirective_parallel {percent percent' : Token} (heof : eof.kind = eof'.kind)
    (h : List.Forall₂ Token.Alike ts us) :
    Parallel SameItem (readDirective eof percent ts) (readDirective eof' percent' us) := by
  cases h with
  | nil => exact .fault _ eof eof'
  | @cons word word' ts us hword hrest =>
    simp only [readDirective, ← hword.kind]
    split
    · exact .fault _ word word'
    rename_i hident
    have hlexeme := hword.lexeme_eq (not_not.1 hident)
    rw [← hlexeme]
    split
    · exact .fault _ word word'
    rename_i d _
    refine (readSymbols_parallel endsArguments hrest).elim (fun _ _ => .error) fun a b hab => ?_
    simp only [← hab.1]
    refine (readSemicolon_parallel heof _ _ _ hab.2).elim (fun _ _ => .error) fun ts us hend => ?_
    simp only
    refine (d.item_parallel hlexeme a.symbols).elim (fun _ _ => .error) fun item item' hitem => ?_
    exact .ok ⟨hitem, hend⟩

def BodyList.Alike (a b : BodyList) : Prop :=
  a.bodies = b.bodies ∧ List.Forall₂ Token.Alike a.rest b.rest

theorem readBodies_parallel (fuel : Nat) {previous previous' : Token} {last last' : Option Token}
    (h : List.Forall₂ Token.Alike ts us) :
    Parallel BodyList.Alike (readBodies eof fuel previous last ts)
      (readBodies eof' fuel previous' last' us) := by
  induction fuel generalizing previous previous' last last' ts us with
  | zero =>
    unfold readBodies
    refine (readSymbols_parallel endsBody h).elim (fun _ _ => .error) fun a b hab => ?_
    exact .ok ⟨congrArg (fun body => [body]) hab.1, hab.2⟩
  | succ fuel ih =>
    unfold readBodies
    refine (readSymbols_parallel endsBody h).elim (fun _ _ => .error) fun a b hab => ?_
    obtain ⟨symbols, alast, arest⟩ := a
    obtain ⟨symbols', blast, brest⟩ := b
    obtain ⟨hsymbols, hrest⟩ := hab
    simp only at hsymbols hrest ⊢
    subst hsymbols
    cases hrest with
    | nil => exact .ok ⟨rfl, .nil⟩
    | @cons t u arest brest ht hrest =>
      simp only [← ht.kind]
      split
      · refine (ih hrest).elim (fun _ _ => .error) fun a b hab => ?_
        exact .ok ⟨congrArg (List.cons symbols) hab.1, hab.2⟩
      · exact .ok ⟨rfl, .cons ht hrest⟩

theorem readRule_parallel (heof : eof.kind = eof'.kind) (h : List.Forall₂ Token.Alike ts us) :
    Parallel SameItem (readRule eof ts) (readRule eof' us) := by
  unfold readRule
  refine (readSymbols_parallel endsHead h).elim (fun _ _ => .error) fun a b hab => ?_
  obtain ⟨head, _, arest⟩ := a
  obtain ⟨head', _, brest⟩ := b
  obtain ⟨hhead, hrest⟩ := hab
  simp only at hhead hrest ⊢
  subst hhead
  split
  · exact .fault _ (peek eof ts) (peek eof' us)
  cases hrest with
  | nil => exact .fault _ eof eof'
  | @cons arrow arrow' arest brest harrow hrest =>
    simp only [← harrow.kind, ← hrest.length_eq]
    split
    · exact .fault _ arrow arrow'
    refine (readBodies_parallel arest.length hrest).elim (fun _ _ => .error) fun a b hab => ?_
    simp only [← hab.1]
    refine (readSemicolon_parallel heof .rule _ _ hab.2).elim (fun _ _ => .error)
      fun ts us hend => ?_
    exact .ok ⟨rfl, hend⟩

theorem readItem_parallel {t u : Token} (heof : eof.kind = eof'.kind) (ht : t.Alike u)
    (h : List.Forall₂ Token.Alike ts us) :
    Parallel SameItem (readItem eof t ts) (readItem eof' u us) := by
  unfold readItem
  rw [← ht.kind]
  split
  · exact readDirective_parallel heof h
  · exact readRule_parallel heof (.cons ht h)

theorem readItems_parallel (heof : eof.kind = eof'.kind) (fuel : Nat)
    (h : List.Forall₂ Token.Alike ts us) :
    Parallel Eq (readItems eof fuel ts) (readItems eof' fuel us) := by
  induction fuel generalizing ts us with
  | zero =>
    cases h with
    | nil => exact .ok rfl
    | @cons t u ts us ht _ =>
      rw [readItems, readItems, ← ht.kind]
      exact .fault _ t u
  | succ fuel ih =>
    cases h with
    | nil => exact .ok rfl
    | cons ht hrest =>
      simp only [readItems]
      refine (readItem_parallel heof ht hrest).elim (fun _ _ => .error) fun a b hab => ?_
      obtain ⟨item, arest⟩ := a
      obtain ⟨item', brest⟩ := b
      obtain ⟨rfl, hmore⟩ := hab
      simp only
      refine (ih hmore).elim (fun _ _ => .error) fun items items' hitems => ?_
      exact .ok (congrArg (List.cons item) hitems)

/-! ## Texts -/

/-- Two scans that are alike: they stop at one character, or find tokens that are alike. -/
inductive Scan.Alike : Except ScanFault Scan → Except ScanFault Scan → Prop where
  | error (c : Char) (p q : Position) : Alike (.error ⟨c, p⟩) (.error ⟨c, q⟩)
  | ok {s s' : Scan} : List.Forall₂ Token.Alike s.tokens s'.tokens → Alike (.ok s) (.ok s')

variable {source source' : String}

theorem declarations_parallel {text text' : List Char} (h : Scan.Alike (scan text) (scan text')) :
    Parallel Eq (declarations text) (declarations text') := by
  unfold declarations items
  generalize scan text = a at h ⊢
  generalize scan text' = b at h ⊢
  cases h with
  | error c p q => exact .error (.scan c p q)
  | @ok s s' htokens =>
    have heof : s.eof.kind = s'.eof.kind := rfl
    have hitems := readItems_parallel heof s.tokens.length htokens
    simp only [← htokens.length_eq]
    refine hitems.elim (fun _ _ => .error) fun items items' heq => .ok ?_
    rw [heq]

/-- **Simulation.** Texts that are cut into tokens that are read alike have one grammar, or are both
refused with one class of error. -/
theorem parse_sameOutcome (h : Scan.Alike (scan source.toList) (scan source'.toList))
    (givenId : Option Text) (freshId : Text) :
    SameOutcome (parse source givenId freshId) (parse source' givenId freshId) := by
  have hdeclarations := declarations_parallel h
  unfold parse
  generalize declarations source.toList = a at hdeclarations ⊢
  generalize declarations source'.toList = b at hdeclarations ⊢
  cases hdeclarations with
  | error he => exact .error he.errorClass_eq
  | @ok d _ heq =>
    subst heq
    simp only
    cases d.grammar givenId freshId with
    | error e => exact .error rfl
    | ok g => exact .grammar g

end

end PhraseGrammar.Notation
