import PhraseGrammar.Proofs.Reading

/-!
# PhraseGrammar.Proofs.Parsing

Which texts are grammars, and which grammars they are.

* `Reads`: a text is cut into tokens whose quoted ones decode and which are phrases.
* `Declarations.ofItems_eq`: what the statements say together, field by field.
* `Declarations.grammar_eq_ok_iff`: the grammar of the declarations is the one described.

`parse_iff` puts the reader and the declarations together.
-/

namespace PhraseGrammar.Notation

theorem Describes.unique {items : List Item} {givenId : Option Text} {freshId : Text}
    {g g' : Grammar} (h : Describes items givenId freshId g)
    (h' : Describes items givenId freshId g') : g = g' := by
  obtain ⟨id, start, name, type, terminals, nonterminals, relation⟩ := g
  obtain ⟨id', start', name', type', terminals', nonterminals', relation'⟩ := g'
  obtain rfl : start = start' := Option.some.inj (h.start.symm.trans h'.start)
  obtain rfl : id = id' := h.id.trans h'.id.symm
  obtain rfl : name = name' := h.name.trans h'.name.symm
  obtain rfl : nonterminals = nonterminals' := h.nonterminals.trans h'.nonterminals.symm
  obtain rfl : terminals = terminals' := h.terminals.trans h'.terminals.symm
  obtain rfl : relation = relation' := h.relation.trans h'.relation.symm
  obtain rfl : type = type' := h.type.trans h'.type.symm
  rfl

/-! ## What statements say together -/

namespace Item

variable {α : Type}

@[simp] theorem last_nil (f : Item → Option α) : last f [] = none := rfl

theorem last_cons (f : Item → Option α) (item : Item) (items : List Item) :
    last f (item :: items) = (last f items).or (f item) := by
  unfold last
  cases hf : f item with
  | none => rw [List.filterMap_cons_none hf, Option.or_none]
  | some a =>
    rw [List.filterMap_cons_some hf, List.getLast?_cons]
    cases (items.filterMap f).getLast? <;> rfl

@[simp] theorem together_nil (f : Item → Option (List α)) : together f [] = none := rfl

theorem together_cons (f : Item → Option (List α)) (item : Item) (items : List Item) :
    together f (item :: items) =
      match f item with
      | none => together f items
      | some as => some (as ++ (together f items).getD []) := by
  unfold together
  cases hf : f item with
  | none => rw [List.filterMap_cons_none hf]
  | some as =>
    rw [List.filterMap_cons_some hf, if_neg (List.cons_ne_nil _ _), List.flatten_cons]
    by_cases hnil : items.filterMap f = []
    · simp [hnil]
    · simp [hnil]

theorem rules_cons (item : Item) (items : List Item) :
    rules (item :: items) = item.rule?.toList ++ rules items := by
  unfold rules
  cases hf : item.rule? with
  | none => rw [List.filterMap_cons_none hf]; rfl
  | some r => rw [List.filterMap_cons_some hf]; rfl

end Item

namespace Declarations

/-- A declared list with the lists of later declarations at its end. -/
def extend {α : Type} (declared later : Option (List α)) : Option (List α) :=
  match later with
  | .none => declared
  | .some as => some (declared.getD [] ++ as)

theorem extend_append {α : Type} (declared later : Option (List α)) (as : List α) :
    extend (some (declared.getD [] ++ as)) later =
      extend declared (some (as ++ later.getD [])) := by
  cases later <;> simp [extend]

theorem foldl_add (items : List Item) (d : Declarations) :
    items.foldl add d =
      { name := (Item.last Item.name? items).or d.name
        id := (Item.last Item.id? items).or d.id
        start := (Item.last Item.start? items).or d.start
        type := (Item.last Item.type? items).or d.type
        terminals := extend d.terminals (Item.together Item.terminals? items)
        nonterminals := extend d.nonterminals (Item.together Item.nonterminals? items)
        rules := d.rules ++ Item.rules items } := by
  induction items generalizing d with
  | nil => simp [extend, Item.rules]
  | cons item items ih =>
    rw [List.foldl_cons, ih]
    simp only [Item.last_cons, Item.together_cons, Item.rules_cons, Option.or_assoc]
    cases item <;> simp [add, Item.name?, Item.id?, Item.start?, Item.type?, Item.terminals?,
      Item.nonterminals?, Item.rule?, extend_append]

theorem ofItems_eq (items : List Item) :
    ofItems items =
      { name := Item.last Item.name? items
        id := Item.last Item.id? items
        start := Item.last Item.start? items
        type := Item.last Item.type? items
        terminals := Item.together Item.terminals? items
        nonterminals := Item.together Item.nonterminals? items
        rules := Item.rules items } := by
  have hjoined : ∀ later : Option (List Symbol), extend .none later = later := by
    intro later
    cases later <;> rfl
  rw [ofItems, foldl_add]
  simp [none, hjoined]

theorem startSymbol?_ofItems (items : List Item) :
    (ofItems items).startSymbol? = Item.startSymbol? items := by
  rw [ofItems_eq]
  rfl

/-! ## The grammar -/

variable {d : Declarations} {items : List Item} {givenId : Option Text} {freshId : Text}
  {g : Grammar}

theorem chooseId_eq (given declared : Option Text) (freshId : Text) :
    chooseId given declared freshId =
      ((given.toList ++ declared.toList).find? fun t => t ≠ []).getD freshId := by
  have hempty : (fun t : Text => !t.isEmpty) = fun t => decide (t ≠ []) := by
    funext t
    cases t <;> rfl
  rw [chooseId, hempty]

theorem normalize_alternativeWord (body : List Symbol) :
    Word.normalize (alternativeWord body) = Word.normalize body := by
  unfold alternativeWord
  split
  · rename_i hnil
    rw [hnil]
    rfl
  · rfl

theorem addProduction_alternativeWord (r : Relation) (head : Word) (bodies : List Word) :
    r.addProduction head (bodies.map alternativeWord) = r.addProduction head bodies := by
  unfold Relation.addProduction
  rw [List.map_map]
  congr 3
  funext s
  congr 1
  exact List.map_congr_left fun body _ => normalize_alternativeWord body

theorem ofPairs_eq (pairs : List (Word × List Word)) :
    Relation.ofPairs pairs =
      pairs.foldl (fun r p => r.addProduction p.1 (p.2.map alternativeWord)) .empty := by
  simp only [Relation.ofPairs, addProduction_alternativeWord]

theorem inferredNonterminals_eq (d : Declarations) (start : Symbol) :
    d.inferredNonterminals start =
      start :: (d.rules.flatMap fun r => r.1).filter (· ≠ Symbol.epsilon) := by
  unfold inferredNonterminals realSymbols
  congr 2
  funext s
  by_cases hs : s = Symbol.epsilon <;> simp [hs]

theorem inferredTerminals_eq (d : Declarations) (nonterminals : Alphabet) :
    d.inferredTerminals nonterminals =
      (d.rules.flatMap fun r => r.1 ++ r.2.flatten).filter fun s =>
        s ≠ Symbol.epsilon ∧ s ∉ nonterminals.toList := by
  unfold inferredTerminals realSymbols
  rw [List.filter_filter]
  congr 1
  funext s
  by_cases hs : s = Symbol.epsilon <;> by_cases hn : s ∈ nonterminals.toList <;>
    simp [hs, hn, OrderedSet.contains]

/-- The declarations have a grammar as soon as they have a start symbol. -/
theorem grammar_of_start {start : Symbol} (h : d.startSymbol? = some start)
    (givenId : Option Text) (freshId : Text) : ∃ g, d.grammar givenId freshId = .ok g := by
  unfold grammar
  rw [h]
  cases d.type with
  | none => exact ⟨_, rfl⟩
  | some type => exact ⟨_, rfl⟩

/-- What the declarations say of each part of their grammar. -/
theorem parts_of_grammar (h : d.grammar givenId freshId = .ok g) :
    d.startSymbol? = some g.start ∧
      g.id = chooseId givenId d.id freshId ∧
      g.name = d.name.getD "" ∧
      g.nonterminals = .ofList (d.nonterminals.getD (d.inferredNonterminals g.start)) ∧
      g.terminals = .ofList (d.terminals.getD (d.inferredTerminals g.nonterminals)) ∧
      g.relation = .ofPairs d.rules ∧
      g.type = d.type.getD g.view.classify := by
  unfold grammar at h
  split at h
  · cases h
  · rename_i hstart
    rw [hstart]
    cases htype : d.type <;> rw [htype] at h <;> cases h <;>
      exact ⟨rfl, rfl, rfl, rfl, rfl, rfl, rfl⟩

theorem describes_of_grammar (h : (ofItems items).grammar givenId freshId = .ok g) :
    Describes items givenId freshId g := by
  obtain ⟨hstart, hid, hname, hnonterminals, hterminals, hrelation, htype⟩ := parts_of_grammar h
  rw [startSymbol?_ofItems] at hstart
  rw [inferredNonterminals_eq] at hnonterminals
  rw [inferredTerminals_eq] at hterminals
  rw [chooseId_eq] at hid
  rw [ofPairs_eq] at hrelation
  rw [ofItems_eq] at hid hname hrelation htype hnonterminals hterminals
  exact ⟨hid, hname, hstart, hnonterminals, hterminals, hrelation, htype⟩

theorem grammar_eq_ok_iff :
    (ofItems items).grammar givenId freshId = .ok g ↔ Describes items givenId freshId g := by
  constructor
  · exact describes_of_grammar
  · intro h
    have hstart : (ofItems items).startSymbol? = some g.start := by
      rw [startSymbol?_ofItems, h.start]
    obtain ⟨g', hg'⟩ := grammar_of_start hstart givenId freshId
    rw [hg', (describes_of_grammar hg').unique h]

end Declarations

theorem Describes.relation_eq {items : List Item} {givenId : Option Text} {freshId : Text}
    {g : Grammar} (h : Describes items givenId freshId g) :
    g.relation = .ofPairs (Item.rules items) := by
  rw [Declarations.ofPairs_eq]
  exact h.relation

theorem Item.mem_rules {items : List Item} {r : Word × List Word} :
    r ∈ Item.rules items ↔ .rule r.1 r.2 ∈ items := by
  unfold Item.rules
  rw [List.mem_filterMap]
  constructor
  · rintro ⟨item, hitem, hr⟩
    cases item <;> cases hr
    exact hitem
  · intro hitem
    exact ⟨_, hitem, rfl⟩

/-- A text without start declaration, rule and declared head has no start symbol. -/
theorem Item.startSymbol?_isSome_iff {items : List Item}
    (hheads : ∀ head bodies, .rule head bodies ∈ items → head ≠ []) :
    (∃ s, Item.startSymbol? items = some s) ↔
      (∃ s, .start s ∈ items) ∨ ∃ head bodies, .rule head bodies ∈ items := by
  constructor
  · rintro ⟨s, hs⟩
    rcases Option.or_eq_some_iff.1 hs with hlast | ⟨_, hfirst⟩
    · obtain ⟨item, hitem, hstart⟩ := List.mem_filterMap.1 (List.mem_of_getLast? hlast)
      cases item <;> cases hstart
      exact .inl ⟨s, hitem⟩
    · obtain ⟨r, hr, _⟩ := Option.bind_eq_some_iff.1 hfirst
      exact .inr ⟨r.1, r.2, mem_rules.1 (List.mem_of_head? hr)⟩
  · intro h
    cases hlast : last start? items with
    | some s => exact ⟨s, by rw [startSymbol?, hlast]; rfl⟩
    | none =>
      rcases h with ⟨s, hs⟩ | ⟨head, bodies, hrule⟩
      · have hmem : s ∈ items.filterMap start? := List.mem_filterMap.2 ⟨_, hs, rfl⟩
        rw [List.getLast?_eq_none_iff.1 hlast] at hmem
        cases hmem
      · have hmem : (head, bodies) ∈ rules items := mem_rules.2 hrule
        obtain ⟨r, rest, hrules⟩ := List.exists_cons_of_ne_nil (List.ne_nil_of_mem hmem)
        have hr : .rule r.1 r.2 ∈ items := mem_rules.1 (by rw [hrules]; exact List.mem_cons_self)
        obtain ⟨s, word, hword⟩ := List.exists_cons_of_ne_nil (hheads r.1 r.2 hr)
        refine ⟨s, ?_⟩
        rw [startSymbol?, hlast, hrules]
        simp [hword]

/-! ## Texts -/

section

variable [Host]

/-- A text says some statements. -/
def Reads (source : String) (items : List Item) : Prop :=
  ∃ s, scan source.toList = .ok s ∧ AllDecode s.tokens ∧ Phrases (s.tokens.map Token.sign) items

theorem items_eq_ok_iff {source : String} {its : List Item} :
    items source.toList = .ok its ↔ Reads source its := by
  unfold items Reads
  cases hs : scan source.toList with
  | error e => simp
  | ok s =>
    simp only [Except.ok.injEq, exists_eq_left']
    exact readItems_iff

theorem Phrase.head_ne_nil {xs : List Sign} {head : Word} {bodies : List Word}
    (h : Phrase xs (.rule head bodies)) : head ≠ [] := by
  cases h with
  | directive _ _ _ _ _ hsaid =>
    cases hsaid with
    | head hne => exact hne
  | rule _ hhead _ _ _ => exact hhead.ne_nil

theorem Phrases.head_ne_nil {xs : List Sign} {items : List Item} (h : Phrases xs items)
    {head : Word} {bodies : List Word} (hrule : .rule head bodies ∈ items) : head ≠ [] := by
  induction h with
  | nil => cases hrule
  | cons hphrase _ ih =>
    rcases List.mem_cons.1 hrule with rfl | hrule
    · exact hphrase.head_ne_nil
    · exact ih hrule

theorem parse_of_reads {source : String} {items : List Item} (h : Reads source items)
    (givenId : Option Text) (freshId : Text) (g : Grammar) :
    parse source givenId freshId = .ok g ↔ Describes items givenId freshId g := by
  rw [← Declarations.grammar_eq_ok_iff]
  unfold parse declarations
  rw [items_eq_ok_iff.2 h]
  simp only
  cases (Declarations.ofItems items).grammar givenId freshId <;> simp

theorem reads_of_parse {source : String} {givenId : Option Text} {freshId : Text} {g : Grammar}
    (h : parse source givenId freshId = .ok g) : ∃ items, Reads source items := by
  unfold parse declarations at h
  cases hitems : items source.toList with
  | error e =>
    rw [hitems] at h
    cases h
  | ok its => exact ⟨its, items_eq_ok_iff.1 hitems⟩

/-- A text is a grammar exactly if it is cut into tokens whose quoted ones decode, the tokens are
statements of the notation, and one of these declares a start symbol or a head. The grammar is then
the one that the statements describe. -/
theorem parse_iff (source : String) (givenId : Option Text) (freshId : Text) :
    ((∃ g, parse source givenId freshId = .ok g) ↔
      ∃ items, Reads source items ∧
        ((∃ s, .start s ∈ items) ∨ ∃ head bodies, .rule head bodies ∈ items)) ∧
    ∀ items, Reads source items → ∀ g,
      parse source givenId freshId = .ok g ↔ Describes items givenId freshId g := by
  have hstart : ∀ items, Reads source items → ((∃ s, Item.startSymbol? items = some s) ↔
      (∃ s, .start s ∈ items) ∨ ∃ head bodies, .rule head bodies ∈ items) := by
    rintro items ⟨s, _, _, hphrases⟩
    exact Item.startSymbol?_isSome_iff fun head bodies hrule => hphrases.head_ne_nil hrule
  refine ⟨⟨?_, ?_⟩, fun items hreads g => parse_of_reads hreads givenId freshId g⟩
  · rintro ⟨g, hg⟩
    obtain ⟨items, hreads⟩ := reads_of_parse hg
    have hg := (parse_of_reads hreads givenId freshId g).1 hg
    exact ⟨items, hreads, (hstart items hreads).1 ⟨g.start, hg.start⟩⟩
  · rintro ⟨items, hreads, hdeclares⟩
    obtain ⟨s, hs⟩ := (hstart items hreads).2 hdeclares
    rw [← Declarations.startSymbol?_ofItems] at hs
    obtain ⟨g, hg⟩ := Declarations.grammar_of_start hs givenId freshId
    exact ⟨g, (parse_of_reads hreads givenId freshId g).2 (Declarations.describes_of_grammar hg)⟩

end

theorem eq_ok_of_toOption {ε α : Type} {x : Except ε α} {a : α} (h : x.toOption = some a) :
    x = .ok a := by
  cases x with
  | error e => cases h
  | ok b => rw [Option.some.inj h]

def error? {ε α : Type} : Except ε α → Option ε
  | .error e => some e
  | .ok _ => none

theorem eq_error_of_error? {ε α : Type} {x : Except ε α} {e : ε} (h : error? x = some e) :
    x = .error e := by
  cases x with
  | error e' => rw [Option.some.inj h]
  | ok a => cases h

/-- A text with escapes, an alternative without symbols and a last id that is empty. One escape
names a digit, and another half of a pair. -/
def twiceNamed : String :=
  "%start T; S T : \"\\x61\" S '\\N\x7bDigit One\x7d' | '\\ud800' | ; %id x; %head S ε; %id '';"

def twiceNamedItems : List Item :=
  [.start ⟨"T"⟩, .rule [⟨"S"⟩, ⟨"T"⟩] [[⟨"a"⟩, ⟨"S"⟩, ⟨"1"⟩], [⟨[.half 0]⟩], []], .id "x",
    .rule [⟨"S"⟩, .epsilon] [], .id ""]

def twiceNamedGrammar : Grammar :=
  { id := unnamedId
    start := ⟨"T"⟩
    name := ""
    type := .unrestricted
    terminals := ⟨[⟨"a"⟩, ⟨"1"⟩, ⟨[.half 0]⟩]⟩
    nonterminals := ⟨[⟨"T"⟩, ⟨"S"⟩]⟩
    relation := ⟨⟨[([⟨"S"⟩, ⟨"T"⟩], ⟨[[⟨"a"⟩, ⟨"S"⟩, ⟨"1"⟩], [⟨[.half 0]⟩], Word.empty]⟩),
      ([⟨"S"⟩, .epsilon], ⟨[]⟩)]⟩⟩ }

section

open scoped Host

theorem parse_iff_twiceNamed :
    Reads twiceNamed twiceNamedItems ∧
      Describes twiceNamedItems none unnamedId twiceNamedGrammar := by
  have hitems : items twiceNamed.toList = .ok twiceNamedItems :=
    eq_ok_of_toOption (by decide +kernel)
  have hparse : parse twiceNamed none = .ok twiceNamedGrammar :=
    eq_ok_of_toOption (by decide +kernel)
  have hreads := items_eq_ok_iff.1 hitems
  exact ⟨hreads, ((parse_iff twiceNamed none unnamedId).2 _ hreads _).1 hparse⟩

end

end PhraseGrammar.Notation
