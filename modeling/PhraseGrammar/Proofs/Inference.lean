import PhraseGrammar.Proofs.Acceptance
import PhraseGrammar.Proofs.Parsing

/-!
# PhraseGrammar.Proofs.Inference

The alphabets of a text that does not declare them, and the type that follows from the rules alone.

* `Item.headSymbols`, `Item.ruleSymbols`: the symbols of the rules of a text, in order.
* `BeginsApart`: a body whose first symbol is never the start symbol and in no head.
* `Infers`: what is inferred where a text leaves a declaration out.

A symbol of the rules is inferred to be a terminal exactly if it is not a nonterminal
(`Describes.mem_terminals_iff`), and it is inferred to be a nonterminal exactly if it is the start
symbol or stands in a head. So the test for a regular grammar, which asks for terminals, is one for
heads (`Describes.isRightLinear_iff`).
-/

namespace PhraseGrammar.Notation

namespace Item

/-- The symbols of the heads of a text other than `ε`, declared heads included. -/
def headSymbols (items : List Item) : List Symbol :=
  ((rules items).flatMap fun r => r.1).filter (· ≠ Symbol.epsilon)

/-- The symbols of the rules of a text other than `ε`: head by head, each with its bodies. -/
def ruleSymbols (items : List Item) : List Symbol :=
  ((rules items).flatMap fun r => r.1 ++ r.2.flatten).filter (· ≠ Symbol.epsilon)

def OmitsNonterminals (items : List Item) : Prop := ∀ symbols, .nonterminals symbols ∉ items

def OmitsTerminals (items : List Item) : Prop := ∀ symbols, .terminals symbols ∉ items

def OmitsType (items : List Item) : Prop := ∀ t, .type t ∉ items

end Item

/-- A body is the empty word, or one or two symbols of which the first is neither `ε` nor the start
symbol and is in no head. -/
def BeginsApart (rules : List (Word × List Word)) (start : Symbol) (body : Word) : Prop :=
  body = Word.empty ∨ (body.length = 1 ∨ body.length = 2) ∧
    ∃ s, body.head? = some s ∧ s ≠ Symbol.epsilon ∧ s ≠ start ∧ ∀ r ∈ rules, s ∉ r.1

/-- What is inferred where a text leaves a declaration out. -/
structure Infers (items : List Item) (g : Grammar) : Prop where
  nonterminals : Item.OmitsNonterminals items →
    g.nonterminals.toList = (g.start :: Item.headSymbols items).eraseDups
  terminals : Item.OmitsTerminals items →
    g.terminals.toList =
      ((Item.ruleSymbols items).filter (· ∉ g.nonterminals.toList)).eraseDups
  disjoint : Item.OmitsTerminals items → ∀ s ∈ g.terminals.toList, s ∉ g.nonterminals.toList
  epsilon : Item.OmitsTerminals items → Symbol.epsilon ∉ g.terminals.toList
  /-- A symbol of the rules is in one of the two alphabets and not in the other. -/
  oneOfTwo : Item.OmitsTerminals items → ∀ s ∈ Item.ruleSymbols items,
    (s ∈ g.terminals.toList ∧ s ∉ g.nonterminals.toList) ∨
      (s ∉ g.terminals.toList ∧ s ∈ g.nonterminals.toList)
  regular : Item.OmitsNonterminals items → Item.OmitsTerminals items → Item.OmitsType items →
    (g.type = .regular ↔ ∀ r ∈ Item.rules items,
      (∃ s, Word.normalize r.1 = [s] ∧ s ≠ g.start) ∧
        ∀ b ∈ r.2, BeginsApart (Item.rules items) g.start (Word.normalize b))

namespace Item

variable {items : List Item}

theorem together_of_omitted {α : Type} {f : Item → Option (List α)}
    (h : ∀ item ∈ items, f item = none) : together f items = none := by
  unfold together
  rw [if_pos (List.filterMap_eq_nil_iff.2 h)]

theorem OmitsNonterminals.together (h : OmitsNonterminals items) :
    together nonterminals? items = none := by
  refine together_of_omitted fun item hitem => ?_
  cases item with
  | nonterminals symbols => exact absurd hitem (h symbols)
  | _ => rfl

theorem OmitsTerminals.together (h : OmitsTerminals items) : together terminals? items = none := by
  refine together_of_omitted fun item hitem => ?_
  cases item with
  | terminals symbols => exact absurd hitem (h symbols)
  | _ => rfl

theorem OmitsType.last (h : OmitsType items) : last type? items = none := by
  have hnone : items.filterMap type? = [] := by
    refine List.filterMap_eq_nil_iff.2 fun item hitem => ?_
    cases item with
    | type t => exact absurd hitem (h t)
    | _ => rfl
  rw [Item.last, hnone]
  rfl

theorem mem_headSymbols {s : Symbol} :
    s ∈ headSymbols items ↔ (∃ r ∈ rules items, s ∈ r.1) ∧ s ≠ Symbol.epsilon := by
  simp [headSymbols]

theorem mem_ruleSymbols {s : Symbol} : s ∈ ruleSymbols items ↔
    (∃ r ∈ rules items, s ∈ r.1 ∨ ∃ b ∈ r.2, s ∈ b) ∧ s ≠ Symbol.epsilon := by
  simp [ruleSymbols]

end Item

namespace Describes

variable {items : List Item} {givenId : Option Text} {freshId : Text} {g : Grammar}

theorem nonterminals_eq (h : Describes items givenId freshId g)
    (homits : Item.OmitsNonterminals items) :
    g.nonterminals.toList = (g.start :: Item.headSymbols items).eraseDups := by
  rw [h.nonterminals, homits.together, Option.getD_none, OrderedSet.toList_ofList]
  rfl

theorem terminals_eq (h : Describes items givenId freshId g)
    (homits : Item.OmitsTerminals items) :
    g.terminals.toList =
      ((Item.ruleSymbols items).filter (· ∉ g.nonterminals.toList)).eraseDups := by
  rw [h.terminals, homits.together, Option.getD_none, OrderedSet.toList_ofList, Item.ruleSymbols,
    List.filter_filter]
  congr 2
  funext s
  simp only [Bool.decide_and, Bool.and_comm]

/-- A symbol is inferred to be a terminal if it is in a rule and not a nonterminal. -/
theorem mem_terminals_iff (h : Describes items givenId freshId g)
    (homits : Item.OmitsTerminals items) {s : Symbol} :
    s ∈ g.terminals.toList ↔ s ∈ Item.ruleSymbols items ∧ s ∉ g.nonterminals.toList := by
  rw [h.terminals_eq homits, List.mem_eraseDups, List.mem_filter, decide_eq_true_eq]

theorem mem_nonterminals_iff (h : Describes items givenId freshId g)
    (homits : Item.OmitsNonterminals items) {s : Symbol} :
    s ∈ g.nonterminals.toList ↔ s = g.start ∨ s ∈ Item.headSymbols items := by
  rw [h.nonterminals_eq homits, List.mem_eraseDups, List.mem_cons]

/-! ## The type -/

theorem not_hasUnrestrictedHead_iff (h : Describes items givenId freshId g) :
    ¬g.view.HasUnrestrictedHead ↔
      ∀ r ∈ Item.rules items, ∃ s, Word.normalize r.1 = [s] ∧ s ≠ g.start := by
  have hkeys : g.view.HasUnrestrictedHead ↔
      ∃ w, Mentions (Item.rules items) w ∧ (w.length ≠ 1 ∨ w = [g.start]) := by
    have hstored : g.view.HasUnrestrictedHead ↔
        ∃ w ∈ g.relation.rules.keys, w.length ≠ 1 ∨ w = [g.start] :=
      exists_head_iff (p := fun w => w.length ≠ 1 ∨ w = [g.start])
    rw [hstored, h.relation_eq]
    simp only [Relation.mem_keys_ofPairs]
  rw [hkeys]
  constructor
  · intro hnone r hr
    by_contra hhead
    refine hnone ⟨Word.normalize r.1, ⟨r, hr, rfl⟩, ?_⟩
    by_contra hone
    rw [not_or, not_not] at hone
    obtain ⟨s, hs⟩ := List.length_eq_one_iff.1 hone.1
    exact hhead ⟨s, hs, fun c => hone.2 (by rw [hs, c])⟩
  · rintro hall ⟨w, ⟨r, hr, rfl⟩, hw⟩
    obtain ⟨s, hs, hstart⟩ := hall r hr
    rw [hs] at hw
    rcases hw with hlength | hhead
    · exact hlength rfl
    · exact hstart (List.cons.inj hhead).1

/-- A body that is stored begins with a terminal if it begins with a symbol of no head. -/
theorem isRightLinear_normalize_iff (h : Describes items givenId freshId g)
    (hnonterminals : Item.OmitsNonterminals items) (hterminals : Item.OmitsTerminals items)
    {r : Word × List Word} (hr : r ∈ Item.rules items) {b : Word} (hb : b ∈ r.2) :
    Word.IsRightLinear g.terminals.toList (Word.normalize b) ↔
      BeginsApart (Item.rules items) g.start (Word.normalize b) := by
  rcases Word.normalize_eq b with hempty | hsame
  · rw [hempty]
    exact iff_of_true (.inl rfl) (.inl rfl)
  rw [hsame]
  unfold Word.IsRightLinear BeginsApart
  refine or_congr_right (and_congr_right fun _ => ?_)
  have hmem : ∀ s, b.head? = some s → (s ∈ g.terminals.toList ↔
      s ≠ Symbol.epsilon ∧ s ≠ g.start ∧ ∀ r ∈ Item.rules items, s ∉ r.1) := by
    intro s hs
    have hused : ∃ r ∈ Item.rules items, s ∈ r.1 ∨ ∃ b ∈ r.2, s ∈ b :=
      ⟨r, hr, .inr ⟨b, hb, List.mem_of_head? hs⟩⟩
    rw [h.mem_terminals_iff hterminals, h.mem_nonterminals_iff hnonterminals,
      Item.mem_ruleSymbols, Item.mem_headSymbols]
    constructor
    · rintro ⟨⟨-, hepsilon⟩, hnot⟩
      refine ⟨hepsilon, fun hstart => hnot (.inl hstart), fun r hr hhead => ?_⟩
      exact hnot (.inr ⟨⟨r, hr, hhead⟩, hepsilon⟩)
    · rintro ⟨hepsilon, hstart, hheads⟩
      refine ⟨⟨hused, hepsilon⟩, ?_⟩
      rintro (heq | ⟨⟨r, hr, hhead⟩, -⟩)
      · exact hstart heq
      · exact hheads r hr hhead
  constructor
  · rintro ⟨s, hs, hhead⟩
    exact ⟨s, hhead, (hmem s hhead).1 hs⟩
  · rintro ⟨s, hhead, hs⟩
    exact ⟨s, (hmem s hhead).2 hs, hhead⟩

theorem isRightLinear_iff (h : Describes items givenId freshId g)
    (hnonterminals : Item.OmitsNonterminals items) (hterminals : Item.OmitsTerminals items) :
    g.view.IsRightLinear ↔ ∀ r ∈ Item.rules items, ∀ b ∈ r.2,
      BeginsApart (Item.rules items) g.start (Word.normalize b) := by
  have hnodup : g.relation.rules.keys.Nodup := by
    rw [h.relation_eq]
    exact (Relation.wellFormed_ofPairs _).nodup
  have hstored : g.view.IsRightLinear ↔
      ∀ w b, HasBody g.relation.rules w b → Word.IsRightLinear g.terminals.toList b :=
    forall_body_iff hnodup
  rw [hstored, h.relation_eq]
  simp only [Relation.hasBody_ofPairs]
  constructor
  · intro hall r hr b hb
    have hstates : States (Item.rules items) (Word.normalize r.1) (Word.normalize b) :=
      ⟨r, hr, rfl, List.mem_map_of_mem hb⟩
    exact (h.isRightLinear_normalize_iff hnonterminals hterminals hr hb).1 (hall _ _ hstates)
  · rintro hall w b ⟨r, hr, rfl, hb⟩
    obtain ⟨b, hmem, rfl⟩ := List.mem_map.1 hb
    exact (h.isRightLinear_normalize_iff hnonterminals hterminals hr hmem).2 (hall r hr b hmem)

theorem regular_iff (h : Describes items givenId freshId g)
    (hnonterminals : Item.OmitsNonterminals items) (hterminals : Item.OmitsTerminals items)
    (htype : Item.OmitsType items) :
    g.type = .regular ↔ ∀ r ∈ Item.rules items,
      (∃ s, Word.normalize r.1 = [s] ∧ s ≠ g.start) ∧
        ∀ b ∈ r.2, BeginsApart (Item.rules items) g.start (Word.normalize b) := by
  have hfull : g.view.HasFullBodies := by
    have hrules : WellFormedRules g.relation.rules := by
      rw [h.relation_eq]
      exact Relation.wellFormed_ofPairs _
    exact hrules.ne_nil
  rw [h.type, htype.last, Option.getD_none, View.classify_eq_regular_iff hfull,
    h.not_hasUnrestrictedHead_iff, h.isRightLinear_iff hnonterminals hterminals]
  exact ⟨fun hall r hr => ⟨hall.1 r hr, hall.2 r hr⟩,
    fun hall => ⟨fun r hr => (hall r hr).1, fun r hr => (hall r hr).2⟩⟩

theorem infers (h : Describes items givenId freshId g) : Infers items g where
  nonterminals := h.nonterminals_eq
  terminals := h.terminals_eq
  disjoint homits _ hs := ((h.mem_terminals_iff homits).1 hs).2
  epsilon homits hs := (Item.mem_ruleSymbols.1 ((h.mem_terminals_iff homits).1 hs).1).2 rfl
  oneOfTwo homits s hs := by
    rw [h.mem_terminals_iff homits]
    by_cases hn : s ∈ g.nonterminals.toList
    · exact .inr ⟨fun hboth => hboth.2 hn, hn⟩
    · exact .inl ⟨⟨hs, hn⟩, hn⟩
  regular := h.regular_iff

end Describes

/-- **Inference.** A text that is a grammar says some statements. Alphabets that none of them
declares are read off the rules, and if no type is declared either, then so is whether the grammar
is regular. -/
theorem infers_of_parse [Host] {source : String} {givenId : Option Text} {freshId : Text}
    {g : Grammar} (h : parse source givenId freshId = .ok g) :
    (∃ items, Reads source items) ∧ ∀ items, Reads source items → Infers items g :=
  ⟨reads_of_parse h, fun _ hreads => ((parse_of_reads hreads givenId freshId g).1 h).infers⟩

/-- The start symbol heads no rule, `b` becomes a head after it stands in a body, `a` is in several
bodies, and there are empty words among the heads and the bodies. -/
def undeclaredText : String := "%start Z; A : a A | a ε | ; b -> ε; %head ε ε; C : 'a' b | \"c d\";"

def undeclaredItems : List Item :=
  [.start ⟨"Z"⟩, .rule [⟨"A"⟩] [[⟨"a"⟩, ⟨"A"⟩], [⟨"a"⟩, .epsilon], []],
    .rule [⟨"b"⟩] [[.epsilon]], .rule [.epsilon, .epsilon] [],
    .rule [⟨"C"⟩] [[⟨"a"⟩, ⟨"b"⟩], [⟨"c d"⟩]]]

def undeclaredGrammar : Grammar :=
  { id := unnamedId
    start := ⟨"Z"⟩
    name := ""
    type := .regular
    terminals := ⟨[⟨"a"⟩, ⟨"c d"⟩]⟩
    nonterminals := ⟨[⟨"Z"⟩, ⟨"A"⟩, ⟨"b"⟩, ⟨"C"⟩]⟩
    relation := ⟨⟨[([⟨"A"⟩], ⟨[[⟨"a"⟩, ⟨"A"⟩], [⟨"a"⟩, .epsilon], Word.empty]⟩),
      ([⟨"b"⟩], ⟨[Word.empty]⟩), (Word.empty, ⟨[]⟩),
      ([⟨"C"⟩], ⟨[[⟨"a"⟩, ⟨"b"⟩], [⟨"c d"⟩]]⟩)]⟩⟩ }

section

open scoped Host

theorem infers_undeclaredText :
    parse undeclaredText none = .ok undeclaredGrammar ∧ Reads undeclaredText undeclaredItems ∧
      Infers undeclaredItems undeclaredGrammar ∧
      ∀ r ∈ Item.rules undeclaredItems,
        (∃ s, Word.normalize r.1 = [s] ∧ s ≠ ⟨"Z"⟩) ∧
          ∀ b ∈ r.2, BeginsApart (Item.rules undeclaredItems) ⟨"Z"⟩ (Word.normalize b) := by
  have hparse : parse undeclaredText none = .ok undeclaredGrammar :=
    eq_ok_of_toOption (by decide +kernel)
  have hitems : items undeclaredText.toList = .ok undeclaredItems :=
    eq_ok_of_toOption (by decide +kernel)
  have hreads := items_eq_ok_iff.1 hitems
  have hinfers := (infers_of_parse hparse).2 _ hreads
  have hnonterminals : Item.OmitsNonterminals undeclaredItems := by
    simp [Item.OmitsNonterminals, undeclaredItems]
  have hterminals : Item.OmitsTerminals undeclaredItems := by
    simp [Item.OmitsTerminals, undeclaredItems]
  have htype : Item.OmitsType undeclaredItems := by
    simp [Item.OmitsType, undeclaredItems]
  exact ⟨hparse, hreads, hinfers, (hinfers.regular hnonterminals hterminals htype).1 rfl⟩

end

end PhraseGrammar.Notation
