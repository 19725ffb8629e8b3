import PhraseGrammar.Text.Letter
import PhraseGrammar.Text.Lines

/-!
# PhraseGrammar.Notation.Token

The tokens of the grammar notation.

* `Position` — an offset with its line and column.
* `Kind`, `Token` — a piece of text with its kind and the position where it begins.
* `Lexeme.first?` — the token, blank or comment at the front of a text.

Blanks, line ends and comments stand between tokens and mean nothing.
-/

namespace PhraseGrammar.Notation

/-- A place in a text. Offsets count from zero, lines and columns from one. -/
structure Position where
  offset : Nat
  line : Nat
  column : Nat
deriving DecidableEq, Repr

namespace Position

def start : Position := ⟨0, 1, 1⟩

/-- The place after a piece of text. A piece without line ends moves the column on; after another
one the column is counted from the last of its line ends. -/
def advance (p : Position) (cs : List Char) : Position :=
  if cs.count '\n' = 0 then ⟨p.offset + cs.length, p.line, p.column + cs.length⟩
  else ⟨p.offset + cs.length, p.line + cs.count '\n', (Text.lastLine cs).length + 1⟩

theorem advance_of_notMem (p : Position) {cs : List Char} (h : '\n' ∉ cs) :
    p.advance cs = ⟨p.offset + cs.length, p.line, p.column + cs.length⟩ :=
  if_pos (List.count_eq_zero.2 h)

theorem advance_of_mem (p : Position) {cs : List Char} (h : '\n' ∈ cs) :
    p.advance cs =
      ⟨p.offset + cs.length, p.line + cs.count '\n', (Text.lastLine cs).length + 1⟩ :=
  if_neg fun c => List.count_eq_zero.1 c h

@[simp] theorem offset_advance (p : Position) (cs : List Char) :
    (p.advance cs).offset = p.offset + cs.length := by
  unfold advance
  split <;> rfl

end Position

inductive TokenKind where
  | percent
  | arrow
  | colon
  | semicolon
  | bar
  | doubleQuoted
  | singleQuoted
  | epsilon
  | ident
  | eof
deriving DecidableEq, Repr

def TokenKind.name : TokenKind → String
  | .percent => "PERCENT"
  | .arrow => "ARROW"
  | .colon => "COLON"
  | .semicolon => "SEMI"
  | .bar => "OR"
  | .doubleQuoted => "STRING"
  | .singleQuoted => "SSTRING"
  | .epsilon => "EPS"
  | .ident => "IDENT"
  | .eof => "EOF"

structure Token where
  kind : TokenKind
  lexeme : List Char
  position : Position
deriving DecidableEq, Repr

def Token.stop (t : Token) : Nat := t.position.offset + t.lexeme.length

def isIdentStart (c : Char) : Bool := c == '_' || Text.isLetterOrNumber c

def isIdentRest (c : Char) : Bool := c == '\'' || isIdentStart c

def isIdent : List Char → Bool
  | [] => false
  | c :: cs => isIdentStart c && cs.all isIdentRest

/-- A blank other than the line feed. -/
def isBlank (c : Char) : Bool := c == ' ' || c == '\t' || c == '\x0c' || c == '\r'

/-- Where a block comment ends: the characters up to the first `*/`, that one included, and the
rest. -/
def blockCommentEnd : List Char → Option (List Char × List Char)
  | [] => none
  | '*' :: '/' :: rest => some (['*', '/'], rest)
  | c :: rest =>
    match blockCommentEnd rest with
    | some (body, rest) => some (c :: body, rest)
    | none => none

/-- Where a quoted text ends: the characters up to the first quote that no backslash precedes, that
one included, and the rest. -/
def quotedEnd (quote : Char) : List Char → Option (List Char × List Char)
  | [] => none
  | c :: rest =>
    if c = quote then some ([c], rest)
    else if c = '\\' then
      match rest with
      | [] => none
      | d :: rest =>
        match quotedEnd quote rest with
        | some (body, rest) => some (c :: d :: body, rest)
        | none => none
    else
      match quotedEnd quote rest with
      | some (body, rest) => some (c :: body, rest)
      | none => none

theorem quotedEnd_self (quote : Char) (rest : List Char) :
    quotedEnd quote (quote :: rest) = some ([quote], rest) := by
  rw [quotedEnd.eq_def]
  simp only [if_true]

theorem quotedEnd_of_ne {quote c : Char} (hquote : c ≠ quote) (hbackslash : c ≠ '\\')
    {rest body after : List Char} (h : quotedEnd quote rest = some (body, after)) :
    quotedEnd quote (c :: rest) = some (c :: body, after) := by
  rw [quotedEnd.eq_def]
  simp only [if_neg hquote, if_neg hbackslash, h]

theorem quotedEnd_backslash {quote c : Char} (hquote : '\\' ≠ quote)
    {rest body after : List Char} (h : quotedEnd quote rest = some (body, after)) :
    quotedEnd quote ('\\' :: c :: rest) = some ('\\' :: c :: body, after) := by
  rw [quotedEnd.eq_def]
  simp only [if_neg hquote, if_true, h]

theorem append_of_blockCommentEnd {cs body rest : List Char}
    (h : blockCommentEnd cs = some (body, rest)) : body ++ rest = cs := by
  fun_induction blockCommentEnd cs generalizing body with
  | case1 => cases h
  | case2 => cases h; rfl
  | case3 c cs _ body' rest' hcs ih => cases h; simp [ih hcs]
  | case4 => cases h

theorem append_of_quotedEnd {quote : Char} {cs body rest : List Char}
    (h : quotedEnd quote cs = some (body, rest)) : body ++ rest = cs := by
  fun_induction quotedEnd quote cs generalizing body with
  | case1 => cases h
  | case2 => cases h; rfl
  | case3 => cases h
  | case4 d cs body' rest' hcs _ ih => cases h; simp [ih hcs]
  | case5 => cases h
  | case6 c cs _ _ body' rest' hcs ih => cases h; simp [ih hcs]
  | case7 => cases h

/-- What stands at the front of a text: a token of some kind, or something between tokens. -/
structure Lexeme where
  kind : Option TokenKind
  chars : List Char
  rest : List Char
deriving DecidableEq, Repr

namespace Lexeme

/-- A lexeme of the characters that satisfy a test, and of one character before them. -/
def run (kind : Option TokenKind) (test : Char → Bool) (c : Char) (rest : List Char) : Lexeme :=
  ⟨kind, c :: rest.takeWhile test, rest.dropWhile test⟩

/-- A quoted text whose opening quote has been read. -/
def quoted? (kind : TokenKind) (quote : Char) (rest : List Char) : Option Lexeme :=
  match quotedEnd quote rest with
  | some (body, rest) => some ⟨some kind, quote :: body, rest⟩
  | none => none

/-- A comment whose first slash has been read: up to the end of the line, or up to `*/`. -/
def comment? : List Char → Option Lexeme
  | '/' :: rest =>
    some ⟨none, '/' :: '/' :: rest.takeWhile (· != '\n'), rest.dropWhile (· != '\n')⟩
  | '*' :: rest =>
    match blockCommentEnd rest with
    | some (body, rest) => some ⟨none, '/' :: '*' :: body, rest⟩
    | none => none
  | _ => none

/-- An arrow whose dash has been read. -/
def arrow? : List Char → Option Lexeme
  | '>' :: rest => some ⟨some .arrow, ['-', '>'], rest⟩
  | _ => none

/-- Whether an identifier goes on at the front of a text. -/
def goesOn : List Char → Bool
  | [] => false
  | c :: _ => isIdentRest c

/-- A name: `ε` alone has a kind of its own, and everything else is an identifier. -/
def name (c : Char) (rest : List Char) : Lexeme :=
  if c = 'ε' ∧ goesOn rest = false then ⟨some .epsilon, [c], rest⟩
  else run (some .ident) isIdentRest c rest

def punctuation? : Char → Option TokenKind
  | '%' => some .percent
  | '→' => some .arrow
  | ':' => some .colon
  | ';' => some .semicolon
  | '|' => some .bar
  | _ => none

/-- The lexeme at the front of a text that is not empty. -/
def first? (c : Char) (rest : List Char) : Option Lexeme :=
  if isBlank c then some (run none isBlank c rest)
  else if isIdentStart c then some (name c rest)
  else
    match c with
    | '\n' => some ⟨none, ['\n'], rest⟩
    | '/' => comment? rest
    | '-' => arrow? rest
    | '"' => quoted? .doubleQuoted '"' rest
    | '\'' => quoted? .singleQuoted '\'' rest
    | c => (punctuation? c).map fun kind => ⟨some kind, [c], rest⟩

theorem append_run (kind : Option TokenKind) (test : Char → Bool) (c : Char) (rest : List Char) :
    (run kind test c rest).chars ++ (run kind test c rest).rest = c :: rest := by
  simp [run]

theorem append_name (c : Char) (rest : List Char) :
    (name c rest).chars ++ (name c rest).rest = c :: rest := by
  unfold name
  split
  · rfl
  · exact append_run ..

theorem append_of_quoted? {kind : TokenKind} {quote : Char} {rest : List Char} {l : Lexeme}
    (h : quoted? kind quote rest = some l) : l.chars ++ l.rest = quote :: rest := by
  unfold quoted? at h
  split at h
  · rename_i hq
    cases h
    simp [append_of_quotedEnd hq]
  · cases h

theorem append_of_comment? {rest : List Char} {l : Lexeme} (h : comment? rest = some l) :
    l.chars ++ l.rest = '/' :: rest := by
  unfold comment? at h
  split at h
  · cases h
    simp
  · split at h
    · rename_i hb
      cases h
      simp [append_of_blockCommentEnd hb]
    · cases h
  · cases h

theorem append_of_arrow? {rest : List Char} {l : Lexeme} (h : arrow? rest = some l) :
    l.chars ++ l.rest = '-' :: rest := by
  unfold arrow? at h
  split at h
  · cases h
    rfl
  · cases h

/-- A lexeme and what follows it are the text. -/
theorem append_of_first? {c : Char} {rest : List Char} {l : Lexeme} (h : first? c rest = some l) :
    l.chars ++ l.rest = c :: rest := by
  unfold first? at h
  split at h
  · cases h
    exact append_run ..
  · split at h
    · cases h
      exact append_name ..
    · split at h
      · cases h
        rfl
      · exact append_of_comment? h
      · exact append_of_arrow? h
      · exact append_of_quoted? h
      · exact append_of_quoted? h
      · obtain ⟨kind, _, rfl⟩ := Option.map_eq_some_iff.1 h
        rfl

theorem chars_run_ne_nil (kind : Option TokenKind) (test : Char → Bool) (c : Char)
    (rest : List Char) : (run kind test c rest).chars ≠ [] := List.cons_ne_nil _ _

theorem chars_ne_nil_of_first? {c : Char} {rest : List Char} {l : Lexeme}
    (h : first? c rest = some l) : l.chars ≠ [] := by
  unfold first? at h
  split at h
  · cases h
    exact chars_run_ne_nil _ _ _ _
  · split at h
    · cases h
      unfold name
      split
      · exact List.cons_ne_nil _ _
      · exact chars_run_ne_nil _ _ _ _
    · unfold comment? arrow? quoted? at h
      repeat' split at h
      all_goals first
        | (cases h; done)
        | (cases h; exact List.cons_ne_nil _ _)
        | (obtain ⟨kind, _, rfl⟩ := Option.map_eq_some_iff.1 h; exact List.cons_ne_nil _ _)

theorem length_rest_of_first? {c : Char} {rest : List Char} {l : Lexeme}
    (h : first? c rest = some l) : l.rest.length ≤ rest.length := by
  have length := congrArg List.length (append_of_first? h)
  have positive := List.length_pos_iff.2 (chars_ne_nil_of_first? h)
  simp only [List.length_append, List.length_cons] at length
  omega

end Lexeme

end PhraseGrammar.Notation
