import PhraseGrammar.Proofs.Reachable

/-!
# PhraseGrammar.Proofs.Canonical

How rules and alphabets are stored, seen from outside.

* `Word.Canonical`: reading the word gives it back, and only the one symbol `ε` stands for the
  empty word.
* `CanonicalRules`: no head is listed twice, no body twice under one head, and every word is
  canonical.
* `View.Canonical`: the rules are canonical, and neither alphabet lists a symbol twice.

`canonical_of_reachable` says so of everything that building and editing lead to, whatever the
arguments were. What an edit leaves behind that fails midway is canonical, too.
-/

namespace PhraseGrammar

section

variable [Host]

/-- A word in the one form in which it is stored. -/
structure Word.Canonical (w : Word) : Prop where
  ne_nil : w ≠ []
  toWord : (Value.list (w.map .symbol)).toWord = .ok w
  eq_empty : (∀ s ∈ w, s = Symbol.epsilon) → w = Word.empty

/-- Rules of which nothing is listed twice. -/
structure CanonicalRules (rules : List (Word × List Word)) : Prop where
  nodup : (rules.map fun r => r.1).Nodup
  head : ∀ r ∈ rules, Word.Canonical r.1
  bodies_nodup : ∀ r ∈ rules, r.2.Nodup
  body : ∀ r ∈ rules, ∀ b ∈ r.2, Word.Canonical b

structure View.Canonical (v : View) : Prop where
  terminals : v.terminals.Nodup
  nonterminals : v.nonterminals.Nodup
  rules : CanonicalRules v.rules

theorem Value.toWord_symbols (w : List Symbol) :
    (Value.list (w.map .symbol)).toWord = .ok (Word.normalize w) := by
  simp only [Value.toWord, Value.elements, Value.elements?, Value.toSymbols_symbols]

theorem Word.IsNormal.canonical {w : Word} (h : Word.IsNormal w) : Word.Canonical w := by
  have hnormal : Word.normalize w = w := h
  constructor
  case ne_nil => exact h.ne_nil
  case toWord => rw [Value.toWord_symbols, hnormal]
  case eq_empty =>
    intro hall
    rw [← hnormal]
    exact Word.normalize_of_all hall

theorem WellFormedRules.canonical {m : OrderedMap Word Bodies} (h : WellFormedRules m) :
    CanonicalRules (m.entries.map fun e => (e.1, e.2.toList)) := by
  constructor
  case nodup =>
    rw [List.map_map]
    exact h.nodup
  case head =>
    intro r hr
    obtain ⟨e, he, rfl⟩ := List.mem_map.1 hr
    exact (h.normal e he).canonical
  case bodies_nodup =>
    intro r hr
    obtain ⟨e, he, rfl⟩ := List.mem_map.1 hr
    exact (h.bodies e he).nodup
  case body =>
    intro r hr b hb
    obtain ⟨e, he, rfl⟩ := List.mem_map.1 hr
    exact ((h.bodies e he).normal b hb).canonical

theorem Grammar.Reachable.canonical {g : Grammar} (h : g.Reachable) : g.view.Canonical :=
  ⟨h.wellFormed.terminals, h.wellFormed.nonterminals, h.wellFormed.rules.canonical⟩

theorem FrozenGrammar.Reachable.canonical {p : FrozenGrammar} (h : p.Reachable) :
    p.view.Canonical :=
  ⟨h.wellFormed.terminals, h.wellFormed.nonterminals, h.wellFormed.rules.canonical⟩

/-- Grammars, relations, frozen rules and alphabets are canonical, whatever built and edited
them. -/
theorem canonical_of_reachable :
    (∀ g : Grammar, g.Reachable → g.view.Canonical) ∧
      (∀ p : FrozenGrammar, p.Reachable → p.view.Canonical) ∧
      (∀ r : Relation, r.Reachable → CanonicalRules r.items) ∧
      (∀ r : FrozenRules, r.Reachable → CanonicalRules r.items) ∧
      ∀ a : Alphabet, a.Reachable → a.toList.Nodup := by
  refine ⟨?_, ?_, ?_, ?_, ?_⟩
  · exact fun g hg => hg.canonical
  · exact fun p hp => hp.canonical
  · exact fun r hr => hr.wellFormed.canonical
  · exact fun r hr => hr.wellFormed.canonical
  · exact fun a ha => ha.nodup

end

section

open scoped Host

/-- An edit that fails midway: of the bodies for a head of nothing but `ε`, two are the same, two
are empty, and the last but one is no word. -/
def brokenOff : Grammar × Option EditError :=
  (Grammar.new "g" ⟨"S"⟩ "").apply (.rule (.addProduction (.list [.text "ε", .text "ε"])
    (.list [.text "a", .list [], .list [.symbol ⟨"a"⟩], .text "ε", .int 5, .text "b"])))

theorem canonical_brokenOff :
    brokenOff.2 = some (.argument (.notIterable .int)) ∧
      brokenOff.1.view.rules = [(Word.empty, [[⟨"a"⟩], Word.empty])] ∧
      brokenOff.1.view.Canonical := by
  have hreachable : brokenOff.1.Reachable := .edit _ (.new "g" ⟨"S"⟩ "")
  exact ⟨by decide +kernel, by decide +kernel, canonical_of_reachable.1 brokenOff.1 hreachable⟩

end

end PhraseGrammar
