import PhraseGrammar.Proofs.Lexemes
import PhraseGrammar.Proofs.Parsing
import PhraseGrammar.Proofs.Places

/-!
# PhraseGrammar.Proofs.Tokens

The tokens of a text, and where they stand.

* `gaps`: the stretches of a text before, between and after some tokens.
* `Tokenizes`: the tokens of a stretch of a text. Each is a longest lexeme, in its place, and
  nothing but blanks, line ends and comments is in the gaps.
* `Tokenizes.skip`, `Tokenizes.cons`: what stands before a stretch goes into its first gap, or is a
  token.
* `Scan.Exact`, `ScanFault.Exact`: what a scan finds in a text, and where one stops.

`exact_of_scan` joins both. Every place is that of its offset (`Position.In`), which each step of
the scanner keeps.
-/

namespace PhraseGrammar.Notation

/-- The stretches before, between and after some tokens, from one offset to another. -/
def gaps (start : Nat) : List Token → (stop : Nat) → List (Nat × Nat)
  | [], stop => [(start, stop)]
  | t :: ts, stop => (start, t.position.offset) :: gaps t.stop ts stop

/-- The tokens of a text from one offset to another. -/
structure Tokenizes (source : List Char) (start : Nat) (tokens : List Token) (stop : Nat) :
    Prop where
  ordered : start ≤ stop
  inside : stop ≤ source.length
  lexeme : ∀ t ∈ tokens, t.lexeme = source.extract t.position.offset t.stop
  longest : ∀ t ∈ tokens, Longest (some t.kind) t.lexeme (source.drop t.stop)
  position : ∀ t ∈ tokens, t.position.In source
  /-- No token is empty. -/
  nonempty : ∀ t ∈ tokens, t.position.offset < t.stop
  within : ∀ t ∈ tokens, start ≤ t.position.offset ∧ t.stop ≤ stop
  apart : tokens.Pairwise fun t u => t.stop ≤ u.position.offset
  between : ∀ gap ∈ gaps start tokens stop,
    Filler (source.extract gap.1 gap.2) (source.drop gap.2)

/-! ## Stretches -/

theorem extract_append_drop (source : List Char) {a b : Nat} (h : a ≤ b) :
    source.extract a b ++ source.drop b = source.drop a := by
  have hdrop : source.drop b = (source.drop a).drop (b - a) := by
    rw [List.drop_drop, Nat.add_sub_cancel' h]
  rw [hdrop, List.take_append_drop]

theorem extract_append_extract (source : List Char) {a b c : Nat} (hab : a ≤ b) (hbc : b ≤ c) :
    source.extract a b ++ source.extract b c = source.extract a c := by
  have hdrop : source.drop b = (source.drop a).drop (b - a) := by
    rw [List.drop_drop, Nat.add_sub_cancel' hab]
  have hsum : c - a = (b - a) + (c - b) := by omega
  rw [List.extract_eq_take_drop, List.extract_eq_take_drop, List.extract_eq_take_drop, hdrop, hsum,
    List.take_add]

theorem extract_of_drop {source cs rest : List Char} {a : Nat} (h : source.drop a = cs ++ rest) :
    source.extract a (a + cs.length) = cs := by
  rw [List.extract_eq_take_drop, Nat.add_sub_cancel_left, h, List.take_left]

theorem drop_of_drop {source cs rest : List Char} {a : Nat} (h : source.drop a = cs ++ rest) :
    source.drop (a + cs.length) = rest := by
  rw [← List.drop_drop, h, List.drop_left]

theorem Filler.before {source : List Char} {a b c : Nat} (hab : a ≤ b) (hbc : b ≤ c)
    (hlongest : Longest none (source.extract a b) (source.drop b))
    (h : Filler (source.extract b c) (source.drop c)) :
    Filler (source.extract a c) (source.drop c) := by
  rw [← extract_append_drop source hbc] at hlongest
  rw [← extract_append_extract source hab hbc]
  exact .cons hlongest h

theorem Longest.length_pos {kind : Option TokenKind} {cs rest : List Char}
    (h : Longest kind cs rest) : 0 < cs.length := List.length_pos_iff.2 h.shape.ne_nil

namespace Tokenizes

variable {source : List Char} {a b stop : Nat} {t : Token} {ts : List Token}

theorem nil (h : stop ≤ source.length) : Tokenizes source stop [] stop where
  ordered := Nat.le_refl stop
  inside := h
  lexeme := List.forall_mem_nil _
  longest := List.forall_mem_nil _
  position := List.forall_mem_nil _
  nonempty := List.forall_mem_nil _
  within := List.forall_mem_nil _
  apart := .nil
  between gap hgap := by
    rw [List.mem_singleton.1 hgap, List.extract_eq_take_drop, Nat.sub_self]
    exact .nil

theorem skip (h : Tokenizes source b ts stop) (hab : a ≤ b)
    (hlongest : Longest none (source.extract a b) (source.drop b)) :
    Tokenizes source a ts stop where
  ordered := Nat.le_trans hab h.ordered
  inside := h.inside
  lexeme := h.lexeme
  longest := h.longest
  position := h.position
  nonempty := h.nonempty
  within t ht := ⟨Nat.le_trans hab (h.within t ht).1, (h.within t ht).2⟩
  apart := h.apart
  between := by
    cases ts with
    | nil =>
      have hgap := h.between (b, stop) List.mem_cons_self
      exact List.forall_mem_singleton.2 (hgap.before hab h.ordered hlongest)
    | cons t ts =>
      have hb := (h.within t List.mem_cons_self).1
      obtain ⟨hgap, hgaps⟩ := List.forall_mem_cons.1 h.between
      exact List.forall_mem_cons.2 ⟨hgap.before hab hb hlongest, hgaps⟩

theorem cons (h : Tokenizes source t.stop ts stop)
    (hlexeme : t.lexeme = source.extract t.position.offset t.stop)
    (hlongest : Longest (some t.kind) t.lexeme (source.drop t.stop))
    (hposition : t.position.In source) : Tokenizes source t.position.offset (t :: ts) stop := by
  have hpos := hlongest.length_pos
  have hstop : t.position.offset < t.stop := by
    unfold Token.stop
    omega
  have hts := h.ordered
  constructor
  case ordered => omega
  case inside => exact h.inside
  case lexeme => exact List.forall_mem_cons.2 ⟨hlexeme, h.lexeme⟩
  case longest => exact List.forall_mem_cons.2 ⟨hlongest, h.longest⟩
  case position => exact List.forall_mem_cons.2 ⟨hposition, h.position⟩
  case nonempty => exact List.forall_mem_cons.2 ⟨hstop, h.nonempty⟩
  case within =>
    refine List.forall_mem_cons.2 ⟨⟨Nat.le_refl _, hts⟩, fun u hu => ?_⟩
    have hu := h.within u hu
    omega
  case apart => exact List.pairwise_cons.2 ⟨fun u hu => (h.within u hu).1, h.apart⟩
  case between =>
    refine List.forall_mem_cons.2 ⟨?_, h.between⟩
    simp only [List.extract_eq_take_drop, Nat.sub_self, List.take_zero]
    exact .nil

end Tokenizes

/-! ## The scanner -/

section

variable {source rest : List Char} {p : Position} {c : Char} {l : Lexeme}

theorem stretch_of_first? (hcs : source.drop p.offset = c :: rest)
    (hl : Lexeme.first? c rest = some l) :
    source.extract p.offset (p.advance l.chars).offset = l.chars ∧
      source.drop (p.advance l.chars).offset = l.rest := by
  rw [← Lexeme.append_of_first? hl] at hcs
  rw [Position.offset_advance]
  exact ⟨extract_of_drop hcs, drop_of_drop hcs⟩

theorem in_of_first? (hp : p.In source) (hcs : source.drop p.offset = c :: rest)
    (hl : Lexeme.first? c rest = some l) : (p.advance l.chars).In source := by
  rw [← Lexeme.append_of_first? hl] at hcs
  exact hp.advance hcs

theorem Tokenizes.behind {stop : Nat} {ts : List Token} (hp : p.In source)
    (hcs : source.drop p.offset = c :: rest) (hl : Lexeme.first? c rest = some l)
    (h : Tokenizes source (p.advance l.chars).offset ts stop) :
    Tokenizes source p.offset (match l.kind with
      | none => ts
      | some kind => ⟨kind, l.chars, p⟩ :: ts) stop := by
  obtain ⟨hextract, hdrop⟩ := stretch_of_first? hcs hl
  have hlongest := Lexeme.longest_of_first? hl
  rw [← hdrop] at hlongest
  cases hkind : l.kind with
  | none =>
    rw [hkind] at hlongest
    refine h.skip ?_ ?_
    · rw [Position.offset_advance]
      exact Nat.le_add_right _ _
    · rw [hextract]
      exact hlongest
  | some kind =>
    rw [hkind] at hlongest
    have hstop : Token.stop ⟨kind, l.chars, p⟩ = (p.advance l.chars).offset :=
      (Position.offset_advance p l.chars).symm
    refine Tokenizes.cons (t := ⟨kind, l.chars, p⟩) ?_ ?_ ?_ hp
    · rw [hstop]
      exact h
    · rw [hstop]
      exact hextract.symm
    · rw [hstop]
      exact hlongest

theorem offset_eq_of_drop (hp : p.In source) (hcs : source.drop p.offset = []) :
    p.offset = source.length :=
  Nat.le_antisymm hp.offset (List.drop_eq_nil_iff.1 hcs)

/-- A scan that ends well has found the tokens of the rest of the text. -/
theorem tokenizes_of_scanFrom {fuel : Nat} {cs : List Char} {s : Scan} (hp : p.In source)
    (hcs : source.drop p.offset = cs) (h : scanFrom p fuel cs = .ok s) :
    Tokenizes source p.offset s.tokens source.length ∧ s.ending.In source ∧
      s.ending.offset = source.length := by
  induction fuel generalizing p cs s with
  | zero =>
    cases cs with
    | nil =>
      cases h
      have hend := offset_eq_of_drop hp hcs
      exact ⟨hend ▸ .nil hp.offset, hp, hend⟩
    | cons c rest => cases h
  | succ fuel ih =>
    cases cs with
    | nil =>
      cases h
      have hend := offset_eq_of_drop hp hcs
      exact ⟨hend ▸ .nil hp.offset, hp, hend⟩
    | cons c rest =>
      simp only [scanFrom] at h
      split at h
      · cases h
      rename_i l hl
      split at h
      · cases h
      rename_i s' hs'
      obtain ⟨htokens, hending⟩ := ih (in_of_first? hp hcs hl) (stretch_of_first? hcs hl).2 hs'
      have hbehind := htokens.behind hp hcs hl
      split at h <;> rename_i hkind <;> rw [hkind] at hbehind <;> cases h
      · exact ⟨hbehind, hending⟩
      · exact ⟨hbehind, hending⟩

/-- A scan that stops has found the tokens up to a character with which no lexeme begins. -/
theorem tokenizes_of_scanFrom_error {fuel : Nat} {cs : List Char} {e : ScanFault} (hp : p.In source)
    (hcs : source.drop p.offset = cs) (hfuel : cs.length ≤ fuel)
    (h : scanFrom p fuel cs = .error e) :
    (∃ ts, Tokenizes source p.offset ts e.position.offset) ∧ e.position.In source ∧
      ∃ rest, source.drop e.position.offset = e.char :: rest ∧
        Lexeme.first? e.char rest = none := by
  induction fuel generalizing p cs with
  | zero =>
    obtain rfl := List.length_eq_zero_iff.1 (Nat.le_zero.1 hfuel)
    cases h
  | succ fuel ih =>
    cases cs with
    | nil => cases h
    | cons c rest =>
      simp only [scanFrom] at h
      split at h
      · rename_i hnone
        cases h
        exact ⟨⟨[], .nil hp.offset⟩, hp, rest, hcs, hnone⟩
      rename_i l hl
      split at h
      · rename_i e' he
        cases h
        have hshorter := Lexeme.length_rest_of_first? hl
        rw [List.length_cons] at hfuel
        obtain ⟨⟨ts, hts⟩, hstop⟩ :=
          ih (in_of_first? hp hcs hl) (stretch_of_first? hcs hl).2 (by omega) he
        exact ⟨⟨_, hts.behind hp hcs hl⟩, hstop⟩
      · split at h <;> cases h

end

/-! ## Whole texts -/

/-- What a scan finds in a text. -/
structure Scan.Exact (source : List Char) (s : Scan) : Prop where
  tokens : Tokenizes source 0 s.tokens source.length
  noEof : ∀ t ∈ s.tokens, t.kind ≠ .eof
  eof : s.eof.kind = .eof ∧ s.eof.lexeme = [] ∧ s.eof.position.offset = source.length
  eof_position : s.eof.position.In source

/-- Where a scan stops. -/
structure ScanFault.Exact (source : List Char) (e : ScanFault) : Prop where
  before : ∃ tokens, Tokenizes source 0 tokens e.position.offset
  char : source[e.position.offset]? = some e.char
  position : e.position.In source
  /-- No token, blank or comment begins there. -/
  stuck : ∀ kind cs after, source.drop e.position.offset = cs ++ after → ¬Shape kind cs
  message : Fault.message source (.scan e) =
    "Unexpected char " ++ Text.quoted (String.singleton e.char) ++ " at " ++
      toString e.position.line ++ ":" ++ toString e.position.column

theorem Shape.ne_eof {kind : TokenKind} {cs : List Char} (h : Shape (some kind) cs) :
    kind ≠ .eof := by
  rintro rfl
  cases h

theorem exact_of_scan_ok {source : List Char} {s : Scan} (h : scan source = .ok s) :
    s.Exact source := by
  obtain ⟨htokens, hending, hoffset⟩ := tokenizes_of_scanFrom (Position.in_start source) rfl h
  exact ⟨htokens, fun t ht => (htokens.longest t ht).shape.ne_eof, ⟨rfl, rfl, hoffset⟩, hending⟩

theorem Fault.message_scan (text : List Char) (e : ScanFault) :
    Fault.message text (.scan e) =
      "Unexpected char " ++ Text.quoted (String.singleton e.char) ++ " at " ++
        toString e.position.line ++ ":" ++ toString e.position.column := by
  unfold Fault.message Position.text
  simp only [Text.ofString_append, List.append_assoc]

theorem exact_of_scan_error {source : List Char} {e : ScanFault} (h : scan source = .error e) :
    e.Exact source := by
  obtain ⟨hbefore, hposition, rest, hdrop, hnone⟩ :=
    tokenizes_of_scanFrom_error (Position.in_start source) rfl (Nat.le_refl _) h
  refine ⟨hbefore, ?_, hposition, ?_, ?_⟩
  · rw [← List.head?_drop, hdrop]
    rfl
  · rw [hdrop]
    exact Lexeme.first?_eq_none_iff.1 hnone
  · exact Fault.message_scan source e

/-- **Tokens.** What the scanner finds in a text are its tokens, each in its place and with nothing
but blanks, line ends and comments between them, and then the end of the text. Where it finds no
more, no lexeme begins, and that place is reported. -/
theorem exact_of_scan [Host] (source : String) :
    (∀ s, scan source.toList = .ok s → s.Exact source.toList) ∧
      ∀ e, scan source.toList = .error e → e.Exact source.toList ∧
        ∀ givenId freshId, parse source givenId freshId = .error ⟨source.toList, .scan e⟩ := by
  refine ⟨fun s => exact_of_scan_ok, fun e h => ⟨exact_of_scan_error h, fun givenId freshId => ?_⟩⟩
  unfold parse declarations items
  rw [h]

section

open scoped Host

/-- Comments and a quoted text that go over several lines, with tokens after them on their last
lines, and a comment that the end of the text ends. -/
def manyLinesText : String := "A/* x\n\n y */: 'b\nc'ε\n-> // end"

def manyLinesScan : Scan :=
  { tokens := [⟨.ident, ['A'], ⟨0, 1, 1⟩⟩, ⟨.colon, [':'], ⟨12, 3, 6⟩⟩,
      ⟨.singleQuoted, ['\'', 'b', '\n', 'c', '\''], ⟨14, 3, 8⟩⟩, ⟨.epsilon, ['ε'], ⟨19, 4, 3⟩⟩,
      ⟨.arrow, ['-', '>'], ⟨21, 5, 1⟩⟩]
    ending := ⟨30, 5, 10⟩ }

def unclosedText : String := "a /* b\n*/ \"c"

theorem exact_manyLines :
    scan manyLinesText.toList = .ok manyLinesScan ∧ manyLinesScan.Exact manyLinesText.toList ∧
      scan unclosedText.toList = .error ⟨'"', ⟨10, 2, 4⟩⟩ ∧
      ScanFault.Exact unclosedText.toList ⟨'"', ⟨10, 2, 4⟩⟩ := by
  have hscan : scan manyLinesText.toList = .ok manyLinesScan :=
    eq_ok_of_toOption (by decide +kernel)
  have hstop : scan unclosedText.toList = .error ⟨'"', ⟨10, 2, 4⟩⟩ :=
    eq_error_of_error? (by decide +kernel)
  exact ⟨hscan, (exact_of_scan manyLinesText).1 _ hscan, hstop,
    ((exact_of_scan unclosedText).2 _ hstop).1⟩

end

end PhraseGrammar.Notation
