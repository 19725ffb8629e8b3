import PhraseGrammar.Proofs.Merging
import PhraseGrammar.Proofs.Printing

/-!
# PhraseGrammar.Proofs.Concatenation

A text under another is the statements of the one and then those of the other.

* `Scans.line`: the signs of a text, a line end and a text are those of both. No lexeme goes on over
  the line end, not even a comment or a name that the end of the first text ends.
* `Joins`: the grammar of both texts, field by field.

`parse_concatenation`: texts that are grammars are one under one another, and it joins theirs.
-/

namespace PhraseGrammar

namespace Notation

/-! ## The seam -/

theorem takeWhile_line (test : Char → Bool) (htest : test '\n' = false) (cs more : List Char) :
    (cs ++ '\n' :: more).takeWhile test = cs.takeWhile test ∧
      (cs ++ '\n' :: more).dropWhile test = cs.dropWhile test ++ '\n' :: more := by
  induction cs with
  | nil => simp [htest]
  | cons c cs ih => by_cases hc : test c = true <;> simp [hc, ih]

theorem blockCommentEnd_append {cs body rest : List Char}
    (h : blockCommentEnd cs = some (body, rest)) (more : List Char) :
    blockCommentEnd (cs ++ more) = some (body, rest ++ more) := by
  fun_induction blockCommentEnd cs generalizing body with
  | case1 => cases h
  | case2 => cases h; rfl
  | case3 c cs hstar body' rest' hcs ih =>
    cases h
    -- The two characters that end a comment are not split over the two texts, else there would be
    -- no end in the first.
    have hopen : ∀ tail, c = '*' → cs ++ more = '/' :: tail → False := by
      rintro tail rfl hslash
      cases cs with
      | nil => cases hcs
      | cons d cs =>
        cases hslash
        exact hstar cs rfl rfl
    rw [List.cons_append, blockCommentEnd.eq_3 _ _ hopen, ih hcs]
  | case4 => cases h

theorem quotedEnd_append {quote : Char} {cs body rest : List Char}
    (h : quotedEnd quote cs = some (body, rest)) (more : List Char) :
    quotedEnd quote (cs ++ more) = some (body, rest ++ more) := by
  fun_induction quotedEnd quote cs generalizing body with
  | case1 => cases h
  | case2 => cases h; exact quotedEnd_self _ _
  | case3 => cases h
  | case4 d cs body' rest' hcs hquote ih =>
    cases h
    exact quotedEnd_backslash hquote (ih hcs)
  | case5 => cases h
  | case6 c cs hquote hbackslash body' rest' hcs ih =>
    cases h
    exact quotedEnd_of_ne hquote hbackslash (ih hcs)
  | case7 => cases h

namespace Lexeme

variable {c : Char} {rest : List Char} {l : Lexeme}

def followedBy (l : Lexeme) (more : List Char) : Lexeme :=
  { l with rest := l.rest ++ '\n' :: more }

theorem run_line {test : Char → Bool} (htest : test '\n' = false) (kind : Option TokenKind)
    (c : Char) (rest more : List Char) :
    run kind test c (rest ++ '\n' :: more) = (run kind test c rest).followedBy more := by
  obtain ⟨htake, hdrop⟩ := takeWhile_line test htest rest more
  simp only [run, followedBy, htake, hdrop]

/-- A name does not go on over a line end, and an `ε` at the end of a text stays alone. -/
theorem name_line (c : Char) (rest more : List Char) :
    name c (rest ++ '\n' :: more) = (name c rest).followedBy more := by
  have hgoes : goesOn (rest ++ '\n' :: more) = goesOn rest := by
    cases rest with
    | nil => exact show isIdentRest '\n' = false by decide
    | cons d rest => rfl
  unfold name
  rw [hgoes]
  split
  · rfl
  · exact run_line (by decide) _ c rest more

theorem quoted?_append {kind : TokenKind} {quote : Char} (h : quoted? kind quote rest = some l)
    (more : List Char) : quoted? kind quote (rest ++ '\n' :: more) = some (l.followedBy more) := by
  unfold quoted? at h ⊢
  split at h
  · rename_i hend
    cases h
    rw [quotedEnd_append hend]
    rfl
  · cases h

/-- A comment up to the end of its line ends with the first text at the latest. -/
theorem comment?_line (h : comment? rest = some l) (more : List Char) :
    comment? (rest ++ '\n' :: more) = some (l.followedBy more) := by
  unfold comment? at h
  split at h
  · rename_i rest
    cases h
    obtain ⟨htake, hdrop⟩ := takeWhile_line (· != '\n') rfl rest more
    simp only [List.cons_append, comment?, htake, hdrop, followedBy]
  · split at h
    · rename_i hend
      cases h
      simp only [List.cons_append, comment?, blockCommentEnd_append hend, followedBy]
    · cases h
  · cases h

theorem arrow?_append (h : arrow? rest = some l) (more : List Char) :
    arrow? (rest ++ '\n' :: more) = some (l.followedBy more) := by
  unfold arrow? at h
  split at h
  · cases h
    rfl
  · cases h

theorem first?_line (h : first? c rest = some l) (more : List Char) :
    first? c (rest ++ '\n' :: more) = some (l.followedBy more) := by
  unfold first? at h ⊢
  split at h
  · rename_i hblank
    cases h
    rw [if_pos hblank, run_line (by decide)]
  · rename_i hblank
    rw [if_neg hblank]
    split at h
    · rename_i hstart
      cases h
      rw [if_pos hstart, name_line]
    · rename_i hstart
      rw [if_neg hstart]
      split at h
      · cases h
        rfl
      · exact comment?_line h more
      · exact arrow?_append h more
      · exact quoted?_append h more
      · exact quoted?_append h more
      · obtain ⟨kind, hkind, rfl⟩ := Option.map_eq_some_iff.1 h
        simp only [hkind, Option.map_some, followedBy]

end Lexeme

/-- **The seam.** A text, a line end and a text are cut into the signs of both texts. -/
theorem Scans.line {cs rest : List Char} {signs xs : List Sign} (h : Scans cs signs)
    (hrest : Scans rest xs) : Scans (cs ++ '\n' :: rest) (signs ++ xs) := by
  induction h with
  | nil => exact hrest.newline
  | skip hfirst hkind _ ih => exact .skip (Lexeme.first?_line hfirst rest) hkind ih
  | @sign _ _ l _ _ hfirst hkind _ ih =>
    exact .sign (l := l.followedBy rest) (Lexeme.first?_line hfirst rest) hkind ih

section

variable [Host]

theorem Reads.line {source source' : String} {items items' : List Item} (h : Reads source items)
    (h' : Reads source' items') : Reads (source ++ "\n" ++ source') (items ++ items') := by
  obtain ⟨signs, hscans, hphrases, hdecode⟩ := reads_iff_scans.1 h
  obtain ⟨signs', hscans', hphrases', hdecode'⟩ := reads_iff_scans.1 h'
  refine reads_iff_scans.2 ⟨signs ++ signs', ?_, hphrases.append hphrases', ?_⟩
  · have hline := hscans.line hscans'
    rw [String.toList_append, String.toList_append, List.append_assoc]
    exact hline
  · intro x hx
    exact (List.mem_append.1 hx).elim (hdecode x) (hdecode' x)

end

/-! ## Statements one after the other -/

namespace Item

variable {α : Type}

/-- The last value that two texts declare, one under the other: that of the second if it has one. -/
def latest (f : Item → Option α) (first second : List Item) : Option α :=
  (last f second).or (last f first)

def listed (f : Item → Option (List α)) (first second : List Item) : Option (List α) :=
  match together f first, together f second with
  | none, none => none
  | as, bs => some (as.getD [] ++ bs.getD [])

variable (first second : List Item)

theorem last_append (f : Item → Option α) :
    last f (first ++ second) = latest f first second := by
  unfold latest last
  rw [List.filterMap_append, List.getLast?_append]

theorem together_append (f : Item → Option (List α)) :
    together f (first ++ second) = listed f first second := by
  unfold listed together
  rw [List.filterMap_append]
  by_cases hfirst : first.filterMap f = [] <;> by_cases hsecond : second.filterMap f = [] <;>
    simp [hfirst, hsecond]

theorem rules_append : rules (first ++ second) = rules first ++ rules second :=
  List.filterMap_append

end Item

/-- The grammar of a text under another, from what both texts say and from their grammars. -/
structure Joins (first second : List Item) (g₁ g₂ : Grammar) (freshId : Text) (g : Grammar) :
    Prop where
  /-- The rules of the second text are merged into the relation of the first. -/
  relation : g.relation = g₁.relation.addRules (Item.rules second)
  /-- So is the relation of the second text. -/
  relation_items : g.relation = g₁.relation.addRules g₂.relation.items
  start : (Item.latest Item.start? first second).or
    ((Item.rules first).head?.bind fun r => r.1.head?) = some g.start
  name : g.name = (Item.latest Item.name? first second).getD ""
  /-- No id, or an empty one, stands for a fresh one. -/
  id : g.id = printedId ((Item.latest Item.id? first second).getD "") freshId
  type : g.type = (Item.latest Item.type? first second).getD g.view.classify
  nonterminals : g.nonterminals = .ofList ((Item.listed Item.nonterminals? first second).getD
    (g.start :: ((Item.rules first ++ Item.rules second).flatMap fun r => r.1).filter
      (· ≠ Symbol.epsilon)))
  terminals : g.terminals = .ofList ((Item.listed Item.terminals? first second).getD
    (((Item.rules first ++ Item.rules second).flatMap fun r => r.1 ++ r.2.flatten).filter fun s =>
      s ≠ Symbol.epsilon ∧ s ∉ g.nonterminals.toList))

theorem startSymbol?_append {first : List Item} {s : Symbol} (h : Item.startSymbol? first = some s)
    (second : List Item) :
    Item.startSymbol? (first ++ second) = (Item.last Item.start? second).or (some s) := by
  rw [← h]
  unfold Item.startSymbol? at h ⊢
  rw [Item.last_append, Item.rules_append, Item.latest, Option.or_assoc]
  cases hfirst : Item.last Item.start? first with
  | some s' => rfl
  | none =>
    rw [hfirst, Option.none_or] at h
    obtain ⟨r, hr, _⟩ := Option.bind_eq_some_iff.1 h
    rw [List.head?_append, hr]
    rfl

theorem joins_of_describes {first second : List Item} {freshId f₁ f₂ : Text} {g₁ g₂ g : Grammar}
    (h₁ : Describes first none f₁ g₁) (h₂ : Describes second none f₂ g₂)
    (h : Describes (first ++ second) none freshId g) : Joins first second g₁ g₂ freshId g := by
  have hrelation : g.relation = g₁.relation.addRules (Item.rules second) := by
    rw [h.relation_eq, Item.rules_append, Relation.ofPairs_append, ← h₁.relation_eq]
  have hrules : WellFormedRules g₁.relation.rules := by
    rw [h₁.relation_eq]
    exact Relation.wellFormed_ofPairs _
  constructor
  case relation => exact hrelation
  case relation_items =>
    rw [hrelation, h₂.relation_eq]
    exact (Relation.addRules_items hrules _).symm
  case start =>
    have hstart := h.start
    rw [startSymbol?_append h₁.start, ← h₁.start] at hstart
    rw [Item.latest, Option.or_assoc]
    exact hstart
  case name =>
    rw [← Item.last_append]
    exact h.name
  case id =>
    rw [h.id, ← Item.last_append]
    cases Item.last Item.id? (first ++ second) with
    | none => rfl
    | some id => exact find?_printedId id freshId
  case type =>
    rw [← Item.last_append]
    exact h.type
  case nonterminals =>
    rw [← Item.together_append, ← Item.rules_append]
    exact h.nonterminals
  case terminals =>
    rw [← Item.together_append, ← Item.rules_append]
    exact h.terminals

section

variable [Host]

/-- **Concatenation.** Two texts that are grammars are a grammar under one another. The text says
what they say one after the other, and its grammar joins theirs. -/
theorem parse_concatenation {s₁ s₂ : String} {f₁ f₂ : Text} {g₁ g₂ : Grammar}
    (h₁ : parse s₁ none f₁ = .ok g₁) (h₂ : parse s₂ none f₂ = .ok g₂) (freshId : Text) :
    (∃ first, Reads s₁ first) ∧ (∃ second, Reads s₂ second) ∧
      ∃ g, parse (s₁ ++ "\n" ++ s₂) none freshId = .ok g ∧
        ∀ first second, Reads s₁ first → Reads s₂ second →
          Reads (s₁ ++ "\n" ++ s₂) (first ++ second) ∧ Joins first second g₁ g₂ freshId g := by
  obtain ⟨first, hfirst⟩ := reads_of_parse h₁
  obtain ⟨second, hsecond⟩ := reads_of_parse h₂
  obtain ⟨g, hg⟩ : ∃ g, (Declarations.ofItems (first ++ second)).grammar none freshId = .ok g := by
    have hstart := ((parse_of_reads hfirst none f₁ g₁).1 h₁).start
    obtain ⟨s, hs⟩ : ∃ s, Item.startSymbol? (first ++ second) = some s := by
      rw [startSymbol?_append hstart]
      cases Item.last Item.start? second <;> exact ⟨_, rfl⟩
    rw [← Declarations.startSymbol?_ofItems] at hs
    exact Declarations.grammar_of_start hs none freshId
  have hparse := (parse_of_reads (hfirst.line hsecond) none freshId g).2
    (Declarations.describes_of_grammar hg)
  refine ⟨⟨first, hfirst⟩, ⟨second, hsecond⟩, g, hparse, ?_⟩
  intro first second hfirst hsecond
  have hline := hfirst.line hsecond
  have hd₁ := (parse_of_reads hfirst none f₁ g₁).1 h₁
  have hd₂ := (parse_of_reads hsecond none f₂ g₂).1 h₂
  have hd := (parse_of_reads hline none freshId g).1 hparse
  exact ⟨hline, joins_of_describes hd₁ hd₂ hd⟩

end

section

open scoped Host

/-- A text that ends in a comment without a line end. -/
def upperText : String := "%terminals a; %id x; A S : a A | ε; // the end"

def lowerText : String := "/* more */ %id '';\t%terminals b a; B -> A; A S : b | a A; %name n;"

def joinedGrammar : Grammar :=
  { id := "f"
    start := ⟨"A"⟩
    name := "n"
    type := .unrestricted
    terminals := ⟨[⟨"a"⟩, ⟨"b"⟩]⟩
    nonterminals := ⟨[⟨"A"⟩, ⟨"S"⟩, ⟨"B"⟩]⟩
    relation := ⟨⟨[([⟨"A"⟩, ⟨"S"⟩], ⟨[[⟨"a"⟩, ⟨"A"⟩], Word.empty, [⟨"b"⟩]]⟩),
      ([⟨"B"⟩], ⟨[[⟨"A"⟩]]⟩)]⟩⟩ }

theorem parse_lowerText_under_upperText :
    ∃ g₁ g₂ first second, parse upperText none = .ok g₁ ∧ parse lowerText none = .ok g₂ ∧
      Reads (upperText ++ "\n" ++ lowerText) (first ++ second) ∧
      parse (upperText ++ "\n" ++ lowerText) none "f" = .ok joinedGrammar ∧
      Joins first second g₁ g₂ "f" joinedGrammar := by
  obtain ⟨g₁, h₁⟩ : ∃ g₁, parse upperText none = .ok g₁ :=
    ⟨(parse upperText none).toOption.get (by decide +kernel), eq_ok_of_toOption (by simp)⟩
  obtain ⟨g₂, h₂⟩ : ∃ g₂, parse lowerText none = .ok g₂ :=
    ⟨(parse lowerText none).toOption.get (by decide +kernel), eq_ok_of_toOption (by simp)⟩
  have hjoined : parse (upperText ++ "\n" ++ lowerText) none "f" = .ok joinedGrammar :=
    eq_ok_of_toOption (by decide +kernel)
  obtain ⟨⟨first, hfirst⟩, ⟨second, hsecond⟩, g, hparse, hall⟩ := parse_concatenation h₁ h₂ "f"
  rw [hjoined] at hparse
  cases hparse
  obtain ⟨hreads, hjoins⟩ := hall first second hfirst hsecond
  exact ⟨g₁, g₂, first, second, h₁, h₂, hreads, hjoined, hjoins⟩

end

end Notation

end PhraseGrammar
