/-!
# PhraseGrammar.Update

The outcome of an edit that makes a new value only if something changes.

* `Update` — the old value is kept, or there is a new one.
* `Update.on` — the value after an update.
-/

namespace PhraseGrammar

/-- What an edit makes of a value. -/
inductive Update (α : Type) where
  | kept
  | changed (new : α)
deriving DecidableEq, Repr

namespace Update

variable {α β : Type}

/-- The value after an update of an old one. -/
def on (u : Update α) (old : α) : α :=
  match u with
  | .kept => old
  | .changed new => new

/-- Carries an update of a part over to the whole. -/
def map (f : α → β) : Update α → Update β
  | .kept => .kept
  | .changed new => .changed (f new)

def isKept : Update α → Bool
  | .kept => true
  | .changed _ => false

end Update

end PhraseGrammar
