import PhraseGrammar.Json.Reader
import PhraseGrammar.Json.Writer
import PhraseGrammar.Record.Document

/-!
# PhraseGrammar.Record.Text

Records as JSON text.

* `Record.write` — the text of a record in a layout.
* `Record.writeIndented` — its text with an optional indentation, which must not be too wide.
* `Record.read` — the record of a text, or why there is none.
-/

namespace PhraseGrammar

inductive RecordTextError where
  | json (e : Json.ReadError)
  | record (e : RecordError)
deriving Repr

/-- The wording of an error; only a malformed text is reported as one. -/
def RecordTextError.message : RecordTextError → String
  | .json (.malformed p line column offset) =>
    "invalid grammar JSON: " ++ (Json.ReadError.malformed p line column offset).message
  | .json e => e.message
  | .record e => e.message

namespace Record

def write (layout : Json.Layout) (r : Record) : Text := Json.write layout r.document

section

variable [Host]

def writeIndented (indent : Option Int) (r : Record) : Except Json.LayoutError Text :=
  match Json.Layout.ofIndent indent with
  | .error e => .error e
  | .ok layout => .ok (r.write layout)

def read (s : String) : Except RecordTextError Record :=
  match Json.read s with
  | .error e => .error (.json e)
  | .ok v =>
    match ofDocument v with
    | .error e => .error (.record e)
    | .ok r => .ok r

end

end Record

end PhraseGrammar
