import PhraseGrammar.Hierarchy
import PhraseGrammar.Symbol

/-!
# PhraseGrammar.View

What a reader sees of a grammar.

* `View` — the parts of a grammar with all their orders.

The classifier, the record writer and the printer read a grammar through its view, so they cannot
tell an editable grammar from a frozen one.
-/

namespace PhraseGrammar

/-- The contents of a grammar in order. -/
structure View where
  id : Text
  name : Text
  type : GrammarType
  start : Symbol
  terminals : List Symbol
  nonterminals : List Symbol
  rules : List (Word × List Word)
deriving DecidableEq, Repr

end PhraseGrammar
