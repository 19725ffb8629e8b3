import PhraseGrammar.Proofs.TypeOrder

/-!
# PhraseGrammar.Proofs.Terminals

What the terminals have to do with the type of a grammar.

* `View.SameRules`: two grammars that a caller can come by have equal rules, whatever else they are
  and whichever kind each of them is of.
* `View.Relaxes`: the types of two grammars if the second has no fewer terminals.

Only the bodies are asked about terminals, so whether a type allows the heads is settled without
them (`View.classify_le_contextFree_congr`), and more terminals allow more bodies
(`View.classify_mono`). `type_of_terminals` says what follows for two grammars, and for adding and
removing a terminal.
-/

namespace PhraseGrammar

namespace View

variable {v w : View} {m n : OrderedMap Word Bodies}

/-! ## More terminals -/

/-- The type of the second, which has more terminals, is that of the first, or it is regular where
that is context-free. -/
structure Relaxes (v w : View) : Prop where
  unrestricted : v.classify = .unrestricted ↔ w.classify = .unrestricted
  regular : v.classify = .regular → w.classify = .regular
  changed : v.classify ≠ w.classify → v.classify = .contextFree ∧ w.classify = .regular

section

variable (hv : v.Shows m) (hw : w.Shows n) (hstart : v.start = w.start)
  (h : SameContents m n)

include hv hw hstart h

/-- Bodies do not matter to whether the type is at most context-free. -/
theorem classify_le_contextFree_congr :
    v.classify ≤ .contextFree ↔ w.classify ≤ .contextFree := by
  have hbody : ∀ terminals b, GrammarType.contextFree.AllowsBody terminals b := fun _ _ =>
    .inl GrammarType.noConfusion
  simp only [classify_le_iff hv, classify_le_iff hw, hstart, hbody, h.1, implies_true, and_true]

theorem classify_antitone (hterminals : ∀ s ∈ v.terminals, s ∈ w.terminals) :
    w.classify ≤ v.classify :=
  classify_mono hw hv hstart.symm hterminals ⟨fun k => (h.1 k).2, fun k b => (h.2 k b).2⟩

theorem relaxes_of_sameContents (hterminals : ∀ s ∈ v.terminals, s ∈ w.terminals) :
    v.Relaxes w := by
  have hle := classify_antitone hv hw hstart h hterminals
  have hcongr := classify_le_contextFree_congr hv hw hstart h
  have hvnever := (classified_of_fullBodies hv.hasFullBodies).never
  have hwnever := (classified_of_fullBodies hw.hasFullBodies).never
  -- What is left is about two types of which the second is not above the first.
  constructor
  all_goals
    revert hle hcongr hvnever hwnever
    cases v.classify <;> cases w.classify <;> decide

end

section

variable [Host]

/-! ## Two grammars with the same rules -/

/-- Two grammars of either kind, with rules that are equal up to order. Across kinds, the frozen
rules are thawed. -/
inductive SameRules : View → View → Prop where
  | editable {g h : Grammar} : g.Reachable → h.Reachable → g.relation.same h.relation = true →
      SameRules g.view h.view
  | frozen {p q : FrozenGrammar} : p.Reachable → q.Reachable → p.rules.same q.rules = true →
      SameRules p.view q.view
  | editableFrozen {g : Grammar} {p : FrozenGrammar} : g.Reachable → p.Reachable →
      g.relation.same p.thaw.relation = true → SameRules g.view p.view
  | frozenEditable {p : FrozenGrammar} {g : Grammar} : p.Reachable → g.Reachable →
      p.thaw.relation.same g.relation = true → SameRules p.view g.view

theorem SameRules.sameContents (h : v.SameRules w) :
    ∃ m n, v.Shows m ∧ w.Shows n ∧ SameContents m n := by
  have hthaw : ∀ {p : FrozenGrammar}, p.Reachable → p.thaw.relation = ⟨p.rules.rules⟩ := by
    intro p hp
    rw [FrozenGrammar.thaw_eq hp.wellFormed]
  cases h with
  | editable hg hh hsame =>
    exact ⟨_, _, Grammar.ruleSteps.shows hg.wellFormed, Grammar.ruleSteps.shows hh.wellFormed,
      (Relation.same_iff hg.wellFormed.rules.nodup).1 hsame⟩
  | frozen hp hq hsame =>
    have hsame' := hsame
    rw [FrozenRules.same_eq hp.wellFormed.rules hq.wellFormed.rules] at hsame'
    exact ⟨_, _, FrozenGrammar.ruleSteps.shows hp.wellFormed,
      FrozenGrammar.ruleSteps.shows hq.wellFormed,
      (Relation.same_iff hp.wellFormed.rules.nodup).1 hsame'⟩
  | editableFrozen hg hp hsame =>
    rw [hthaw hp] at hsame
    exact ⟨_, _, Grammar.ruleSteps.shows hg.wellFormed,
      FrozenGrammar.ruleSteps.shows hp.wellFormed,
      (Relation.same_iff hg.wellFormed.rules.nodup).1 hsame⟩
  | frozenEditable hp hg hsame =>
    rw [hthaw hp] at hsame
    exact ⟨_, _, FrozenGrammar.ruleSteps.shows hp.wellFormed,
      Grammar.ruleSteps.shows hg.wellFormed,
      (Relation.same_iff hp.wellFormed.rules.nodup).1 hsame⟩

namespace SameRules

theorem relaxes (h : v.SameRules w) (hstart : v.start = w.start)
    (hterminals : ∀ s ∈ v.terminals, s ∈ w.terminals) : v.Relaxes w := by
  obtain ⟨m, n, hv, hw, hsame⟩ := h.sameContents
  exact relaxes_of_sameContents hv hw hstart hsame hterminals

theorem classify_eq (h : v.SameRules w) (hstart : v.start = w.start)
    (hterminals : ∀ s, s ∈ v.terminals ↔ s ∈ w.terminals) : v.classify = w.classify := by
  obtain ⟨m, n, hv, hw, hsame⟩ := h.sameContents
  apply le_antisymm
  · exact classify_antitone hw hv hstart.symm hsame.symm fun s => (hterminals s).2
  · exact classify_antitone hv hw hstart hsame fun s => (hterminals s).1

end SameRules

end

end View

section

variable [Host]

/-! ## One terminal more or fewer -/

namespace Grammar

theorem addTerminal_keeps (g : Grammar) (v : Value) :
    (g.apply (.addTerminal v)).1.start = g.start ∧
      (g.apply (.addTerminal v)).1.relation = g.relation ∧
      ∀ x ∈ g.terminals.toList, x ∈ (g.apply (.addTerminal v)).1.terminals.toList := by
  simp only [apply, withSymbol]
  cases v.toSymbol with
  | error err => exact ⟨rfl, rfl, fun _ hx => hx⟩
  | ok s => exact ⟨rfl, rfl, fun _ hx => OrderedSet.mem_insert.2 (.inl hx)⟩

theorem removeTerminal_keeps (g : Grammar) (v : Value) :
    (g.apply (.removeTerminal v)).1.start = g.start ∧
      (g.apply (.removeTerminal v)).1.relation = g.relation ∧
      ∀ x ∈ (g.apply (.removeTerminal v)).1.terminals.toList, x ∈ g.terminals.toList := by
  simp only [apply, withSymbol]
  cases v.toSymbol with
  | error err => exact ⟨rfl, rfl, fun _ hx => hx⟩
  | ok s => exact ⟨rfl, rfl, fun _ hx => OrderedSet.mem_of_mem_erase hx⟩

theorem Reachable.relaxes {g : Grammar} (hg : g.Reachable) (v : Value) :
    g.view.Relaxes (g.apply (.addTerminal v)).1.view ∧
      (g.apply (.removeTerminal v)).1.view.Relaxes g.view := by
  have hsame : g.relation.same g.relation = true :=
    (Relation.same_iff hg.wellFormed.rules.nodup).2 (.refl _)
  constructor
  · obtain ⟨hstart, hrelation, hterminals⟩ := g.addTerminal_keeps v
    have hrules : g.view.SameRules (g.apply (.addTerminal v)).1.view :=
      .editable hg (.edit _ hg) (by rw [hrelation, hsame])
    exact hrules.relaxes hstart.symm hterminals
  · obtain ⟨hstart, hrelation, hterminals⟩ := g.removeTerminal_keeps v
    have hrules : (g.apply (.removeTerminal v)).1.view.SameRules g.view :=
      .editable (.edit _ hg) hg (by rw [hrelation, hsame])
    exact hrules.relaxes hstart hterminals

end Grammar

namespace FrozenGrammar

variable {p : FrozenGrammar}

theorem Reachable.step (hp : p.Reachable) (e : GrammarEdit) : (p.step e).1.Reachable := by
  cases hu : p.apply e with
  | error err =>
    rw [step_of_error hu]
    exact hp
  | ok u =>
    rw [step_of_ok hu]
    exact .edit hp hu

theorem addTerminal_keeps (p : FrozenGrammar) (v : Value) :
    (p.step (.addTerminal v)).1.start = p.start ∧
      (p.step (.addTerminal v)).1.rules = p.rules ∧
      ∀ x ∈ p.terminals.toList, x ∈ (p.step (.addTerminal v)).1.terminals.toList := by
  cases hv : v.toSymbol with
  | error err =>
    rw [step_of_error (by rw [apply, withSymbol, hv])]
    exact ⟨rfl, rfl, fun _ hx => hx⟩
  | ok s =>
    have happly : p.apply (.addTerminal v) =
        .ok ((p.terminals.add? s).map fun terminals => { p with terminals }) := withSymbol_ok hv _
    rw [step_of_ok happly, on_terminals, OrderedSet.on_add?]
    exact ⟨rfl, rfl, fun _ hx => OrderedSet.mem_insert.2 (.inl hx)⟩

theorem removeTerminal_keeps (hp : p.WellFormed) (v : Value) :
    (p.step (.removeTerminal v)).1.start = p.start ∧
      (p.step (.removeTerminal v)).1.rules = p.rules ∧
      ∀ x ∈ (p.step (.removeTerminal v)).1.terminals.toList, x ∈ p.terminals.toList := by
  cases hv : v.toSymbol with
  | error err =>
    rw [step_of_error (by rw [apply, withSymbol, hv])]
    exact ⟨rfl, rfl, fun _ hx => hx⟩
  | ok s =>
    have happly : p.apply (.removeTerminal v) =
        .ok ((p.terminals.remove? s).map fun terminals => { p with terminals }) :=
      withSymbol_ok hv _
    rw [step_of_ok happly, on_terminals, OrderedSet.on_remove? hp.terminals]
    exact ⟨rfl, rfl, fun _ hx => OrderedSet.mem_of_mem_erase hx⟩

theorem Reachable.relaxes (hp : p.Reachable) (v : Value) :
    p.view.Relaxes (p.step (.addTerminal v)).1.view ∧
      (p.step (.removeTerminal v)).1.view.Relaxes p.view := by
  have hsame : p.rules.same p.rules = true := by
    rw [FrozenRules.same_eq hp.wellFormed.rules hp.wellFormed.rules]
    exact (Relation.same_iff hp.wellFormed.rules.nodup).2 (.refl _)
  constructor
  · obtain ⟨hstart, hrules, hterminals⟩ := p.addTerminal_keeps v
    have hrules' : p.view.SameRules (p.step (.addTerminal v)).1.view :=
      .frozen hp (hp.step _) (by rw [hrules, hsame])
    exact hrules'.relaxes hstart.symm hterminals
  · obtain ⟨hstart, hrules, hterminals⟩ := removeTerminal_keeps hp.wellFormed v
    have hrules' : (p.step (.removeTerminal v)).1.view.SameRules p.view :=
      .frozen (hp.step _) hp (by rw [hrules, hsame])
    exact hrules'.relaxes hstart hterminals

end FrozenGrammar

/-- Of two grammars with equal rules and one start symbol, the one with more terminals relaxes the
other, and with the same terminals they have one type, whatever else is different about them. So
adding a terminal relaxes a grammar, and removing one does the opposite. -/
theorem type_of_terminals :
    (∀ v w : View, v.SameRules w → v.start = w.start →
      ((∀ s ∈ v.terminals, s ∈ w.terminals) → v.Relaxes w) ∧
      ((∀ s, s ∈ v.terminals ↔ s ∈ w.terminals) → v.classify = w.classify)) ∧
    (∀ g : Grammar, g.Reachable → ∀ s : Value,
      g.view.Relaxes (g.apply (.addTerminal s)).1.view ∧
        (g.apply (.removeTerminal s)).1.view.Relaxes g.view) ∧
    ∀ p : FrozenGrammar, p.Reachable → ∀ s : Value,
      p.view.Relaxes (p.step (.addTerminal s)).1.view ∧
        (p.step (.removeTerminal s)).1.view.Relaxes p.view :=
  ⟨fun _ _ hrules hstart => ⟨hrules.relaxes hstart, hrules.classify_eq hstart⟩,
    fun _ hg => hg.relaxes, fun _ hp => hp.relaxes⟩

end

section

open scoped Host

/-- A body begins with `ε`, which is no terminal, and `a` is a terminal and a nonterminal. -/
def markedBodies : Grammar :=
  [.addTerminal (.text "a"), .addNonterminal (.text "a"),
    .rule (.addProduction (.text "A") (.list [.list [.text "ε", .text "a"], .list [.text "a"]])),
    .rule (.addHead (.text "B"))].foldl (fun g e => (g.apply e).1) (.new "g" ⟨"S"⟩ "")

/-- Equal rules, everything else different, and `ε` among the terminals. -/
def markedFrozen : FrozenGrammar :=
  [.rule (.addHead (.text "B")), .setName "other", .setType .unrestricted,
    .rule (.addProduction (.text "A") (.list [.text "a", .list [.text "ε", .text "a"]])),
    .addTerminal (.text "ε"), .addTerminal (.text "a")].foldl
    (fun p e => (p.step e).1) (.new "h" ⟨"S"⟩ "")

theorem type_markedBodies :
    markedBodies.view.SameRules markedFrozen.view ∧
      markedBodies.view.classify = .contextFree ∧ markedFrozen.view.classify = .regular ∧
      (markedBodies.apply (.addTerminal (.text "ε"))).1.view.classify = .regular ∧
      (markedFrozen.step (.removeTerminal (.text "ε"))).1.view.Relaxes markedFrozen.view := by
  have hmarked : markedBodies.Reachable := .edit _ (.edit _ (.edit _ (.edit _ (.new "g" ⟨"S"⟩ ""))))
  have hfrozen : markedFrozen.Reachable :=
    .step (.step (.step (.step (.step (.step (.new "h" ⟨"S"⟩ "") _) _) _) _) _) _
  have hsame : markedBodies.relation.same markedFrozen.thaw.relation = true := by decide +kernel
  have hrules : markedBodies.view.SameRules markedFrozen.view :=
    .editableFrozen hmarked hfrozen hsame
  obtain ⟨hpairs, heditable, hstep⟩ := type_of_terminals
  obtain ⟨hcontextFree, hregular⟩ := ((hpairs _ _ hrules rfl).1 (by decide)).changed (by decide)
  have hmore : (markedBodies.apply (.addTerminal (.text "ε"))).1.view.SameRules markedFrozen.view :=
    .editableFrozen (.edit _ hmarked) hfrozen hsame
  have hterminals : ∀ s, s ∈ (markedBodies.apply (.addTerminal (.text "ε"))).1.view.terminals ↔
      s ∈ markedFrozen.view.terminals :=
    fun s => (List.Perm.swap (⟨"ε"⟩ : Symbol) ⟨"a"⟩ []).mem_iff
  have htype := (hpairs _ _ hmore rfl).2 hterminals
  exact ⟨hrules, hcontextFree, hregular, htype.trans hregular, (hstep _ hfrozen (.text "ε")).2⟩

end

end PhraseGrammar
