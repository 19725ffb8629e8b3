import PhraseGrammar.Main
import PhraseGrammar.Proofs.Characters
import PhraseGrammar.Proofs.Showing
import PhraseGrammar.Proofs.WellFormed
import PhraseGrammar.Proofs.Rebuild
import PhraseGrammar.Proofs.Reachable
import PhraseGrammar.Proofs.Lockstep
import PhraseGrammar.Proofs.Reading
import PhraseGrammar.Proofs.Parsing
import PhraseGrammar.Proofs.Escape
import PhraseGrammar.Proofs.Scanning
import PhraseGrammar.Proofs.Printing
import PhraseGrammar.Proofs.JsonText
import PhraseGrammar.Proofs.Storing
import PhraseGrammar.Proofs.Canonical
import PhraseGrammar.Proofs.Classification
import PhraseGrammar.Proofs.Documents
import PhraseGrammar.Proofs.Encoding
import PhraseGrammar.Proofs.JsonFaults
import PhraseGrammar.Proofs.Blame
import PhraseGrammar.Proofs.Reports
import PhraseGrammar.Proofs.Merging
import PhraseGrammar.Proofs.History
import PhraseGrammar.Proofs.Formatting
import PhraseGrammar.Proofs.Paths
import PhraseGrammar.Proofs.Saving
import PhraseGrammar.Proofs.Refusal
import PhraseGrammar.Proofs.Conversion
import PhraseGrammar.Proofs.Concatenation
import PhraseGrammar.Proofs.Equality
import PhraseGrammar.Proofs.Acceptance
import PhraseGrammar.Proofs.Malformed
import PhraseGrammar.Proofs.Terminals
import PhraseGrammar.Proofs.Inference
import PhraseGrammar.Proofs.Lexemes
import PhraseGrammar.Proofs.Places
import PhraseGrammar.Proofs.Tokens
import PhraseGrammar.Proofs.Carets
import PhraseGrammar.Proofs.Semicolons
import PhraseGrammar.Proofs.Alike
import PhraseGrammar.Proofs.Layout
import PhraseGrammar.Proofs.Newlines
import PhraseGrammar.Proofs.Sharing
import PhraseGrammar.Proofs.Listing
import PhraseGrammar.Proofs.Quoting
import PhraseGrammar.Proofs.Cursor
import PhraseGrammar.Proofs.Ahead
import PhraseGrammar.Proofs.Progress
