import PhraseGrammar.Proofs.JsonText
import PhraseGrammar.Proofs.Parsing
import PhraseGrammar.Proofs.Reachable
import PhraseGrammar.Proofs.Scanning

/-!
# PhraseGrammar.Proofs.Printing

A grammar that is printed in the notation reads back as the same grammar.

* `isWhole_print_iff`: half of a pair stands in a printed grammar if it does in the grammar.
* `SaysText`: a piece of text says some statements, whatever follows it.
* `saysText_directive`, `saysText_ruleLine`: the lines of a printed grammar.
* `reads_print`: a printed grammar says its parts.

`parse_print` is the round trip. What is printed is read if it is a string.
-/

namespace PhraseGrammar.Notation

/-! ## Words -/

/-- Texts one after the other, each with a separator in front. -/
def following (separator : String) (texts : List Text) : List Char :=
  texts.flatMap fun text => separator.toList ++ text.chars

theorem following_cons (separator : String) (text : Text) (texts : List Text) :
    following separator (text :: texts) =
      separator.toList ++ (text.chars ++ following separator texts) := by
  rw [following, List.flatMap_cons, List.append_assoc]
  rfl

theorem chars_intercalate_cons (separator : String) (text : Text) (texts : List Text) :
    Text.chars (List.intercalate (Text.ofString separator) (text :: texts)) =
      text.chars ++ following separator texts := by
  rw [Text.chars_intercalate, Text.chars_ofString, List.map_cons, Json.intercalate_cons_eq,
    List.flatMap_map]
  rfl

/-- A name in front of such texts ends there, if the separator ends it. -/
theorem goesOn_following {separator : String}
    (hseparator : ∀ cs, Lexeme.goesOn (separator.toList ++ cs) = false) (texts : List Text)
    {rest : List Char} (hrest : Lexeme.goesOn rest = false) :
    Lexeme.goesOn (following separator texts ++ rest) = false := by
  cases texts with
  | nil => exact hrest
  | cons text texts =>
    rw [following_cons, List.append_assoc]
    exact hseparator _

theorem Scans.symbols {rest : List Char} {xs : List Sign} (hrest : Lexeme.goesOn rest = false)
    (h : Scans rest xs) (w : Word) :
    Scans (following " " (w.map symbolText) ++ rest) (w.map symbolSign ++ xs) := by
  induction w with
  | nil => exact h
  | cons s w ih =>
    have hgoes : Lexeme.goesOn (following " " (w.map symbolText) ++ rest) = false :=
      goesOn_following (fun _ => rfl) _ hrest
    have hsymbol := (ih.symbol s hgoes).space
    rw [List.map_cons, following_cons, List.append_assoc, List.append_assoc]
    exact hsymbol

theorem eq_epsilon_of_isEmptyWord {w : Word} (h : Word.isEmptyWord w = true) {s : Symbol}
    (hs : s ∈ w) : s = Symbol.epsilon := by
  unfold Word.isEmptyWord Word.realLength at h
  rw [beq_iff_eq, List.countP_eq_zero] at h
  simpa using h s hs

theorem wordText_of_isNormal {w : Word} (h : Word.IsNormal w) :
    wordText w = List.intercalate (Text.ofString " ") (w.map symbolText) := by
  unfold wordText
  split
  · rename_i hempty
    have hw : w = Word.empty := by
      rw [← show Word.normalize w = w from h,
        Word.normalize_of_all fun s hs => eq_epsilon_of_isEmptyWord hempty hs]
    rw [hw]
    rfl
  · rfl

theorem Scans.spaced {rest : List Char} {xs : List Sign} (hrest : Lexeme.goesOn rest = false)
    (h : Scans rest xs) (w : Word) :
    Scans (Text.chars (List.intercalate (Text.ofString " ") (w.map symbolText)) ++ rest)
      (w.map symbolSign ++ xs) := by
  cases w with
  | nil => exact h
  | cons s w =>
    have hgoes : Lexeme.goesOn (following " " (w.map symbolText) ++ rest) = false :=
      goesOn_following (fun _ => rfl) _ hrest
    have hsymbols := (h.symbols hrest w).symbol s hgoes
    rw [List.map_cons, chars_intercalate_cons, List.append_assoc]
    exact hsymbols

theorem Scans.word {w : Word} (hw : Word.IsNormal w) {rest : List Char} {xs : List Sign}
    (hrest : Lexeme.goesOn rest = false) (h : Scans rest xs) :
    Scans (Text.chars (wordText w) ++ rest) (w.map symbolSign ++ xs) := by
  rw [wordText_of_isNormal hw]
  exact h.spaced hrest w

/-! ## Lines -/

theorem chars_alphabetLine (directive : String) (symbols : List Symbol) :
    Text.chars (alphabetLine directive symbols) =
      '%' :: directive.toList ++ following " " (symbols.map symbolText) ++ [';'] := by
  unfold alphabetLine
  cases symbols with
  | nil => simp [following]
  | cons s symbols =>
    rw [if_neg (by simp), List.map_cons, following_cons]
    simp only [Text.chars_append, chars_intercalate_cons]
    simp

theorem ruleLine_nil {head : Word} (h : Word.IsNormal head) :
    ruleLine head [] = alphabetLine Directive.head.word head := by
  have hne : head.isEmpty = false := by
    simpa using h.ne_nil
  unfold ruleLine alphabetLine
  rw [hne, wordText_of_isNormal h]
  rfl

def barSign : Sign := ⟨.bar, ['|']⟩

def bodiesSigns (body : Word) (bodies : List Word) : List Sign :=
  body.map symbolSign ++ bodies.flatMap fun b => barSign :: b.map symbolSign

theorem Scans.alternatives {rest : List Char} {xs : List Sign}
    (hrest : Lexeme.goesOn rest = false) (h : Scans rest xs) (bodies : List Word)
    (hbodies : ∀ b ∈ bodies, Word.IsNormal b) :
    Scans (following " | " (bodies.map wordText) ++ rest)
      ((bodies.flatMap fun b => barSign :: b.map symbolSign) ++ xs) := by
  induction bodies with
  | nil => exact h
  | cons b bodies ih =>
    have hgoes : Lexeme.goesOn (following " | " (bodies.map wordText) ++ rest) = false :=
      goesOn_following (fun _ => rfl) _ hrest
    have hmore := ih fun b hb => hbodies b (List.mem_cons_of_mem _ hb)
    have hword := hmore.word (hbodies b List.mem_cons_self) hgoes
    have hbar : Scans _ (barSign :: _) := hword.space.punctuation (c := '|') rfl
    rw [List.map_cons, following_cons, List.flatMap_cons]
    simpa using hbar.space

theorem Scans.rule {head body : Word} {bodies : List Word} (hhead : Word.IsNormal head)
    (hbodies : ∀ b ∈ body :: bodies, Word.IsNormal b) {rest : List Char} {xs : List Sign}
    (h : Scans rest xs) :
    Scans (Text.chars (ruleLine head (body :: bodies)) ++ rest)
      (head.map symbolSign ++ ⟨.colon, [':']⟩ :: bodiesSigns body bodies ++
        ⟨.semicolon, [';']⟩ :: xs) := by
  have hsemicolon : Scans (';' :: rest) (⟨.semicolon, [';']⟩ :: xs) := h.punctuation rfl
  have halternatives := hsemicolon.space.alternatives rfl bodies fun b hb =>
    hbodies b (List.mem_cons_of_mem _ hb)
  have hgoes : Lexeme.goesOn (following " | " (bodies.map wordText) ++ ' ' :: ';' :: rest) =
      false := goesOn_following (fun _ => rfl) _ rfl
  have hbody := halternatives.word (hbodies body List.mem_cons_self) hgoes
  have hcolon : Scans (':' :: ' ' :: _) (⟨.colon, [':']⟩ :: _) :=
    hbody.space.punctuation rfl
  have hall := hcolon.space.word hhead rfl
  have htext : Text.chars (ruleLine head (body :: bodies)) ++ rest = Text.chars (wordText head) ++
      ' ' :: ':' :: ' ' :: (Text.chars (wordText body) ++
        (following " | " (bodies.map wordText) ++ ' ' :: ';' :: rest)) := by
    simp only [ruleLine, List.isEmpty_cons, Bool.false_eq_true, if_false, List.map_cons,
      Text.chars_append, chars_intercalate_cons]
    simp
  rw [htext]
  simpa [bodiesSigns] using hall

theorem symbolText_typeName (t : GrammarType) : symbolText ⟨t.name⟩ = t.name := by
  cases t <;> decide

/-- The lines of a printed grammar, each with the statements that it says. -/
def sayings (v : View) : List (Text × List Item) :=
  [("%id " ++ Json.quote v.id ++ ";", [.id v.id]),
    ("%name " ++ Json.quote v.name ++ ";", [.name v.name]),
    ("%type " ++ v.type.name ++ ";", [.type v.type]),
    ("%start " ++ symbolText v.start ++ ";", [.start v.start]),
    (alphabetLine "terminals" v.terminals, [.terminals v.terminals]),
    (alphabetLine "nonterminals" v.nonterminals, [.nonterminals v.nonterminals]),
    ("", [])] ++ v.rules.map fun r => (ruleLine r.1 r.2, [.rule r.1 r.2])

theorem lines_eq (v : View) : lines v = (sayings v).map fun l => l.1 := by
  simp [lines, sayings]

def statements (v : View) : List Item :=
  [.id v.id, .name v.name, .type v.type, .start v.start, .terminals v.terminals,
    .nonterminals v.nonterminals] ++ v.rules.map fun r => .rule r.1 r.2

theorem flatMap_sayings (v : View) : (sayings v).flatMap (fun l => l.2) = statements v := by
  unfold sayings statements
  rw [List.flatMap_append, List.flatMap_map, List.map_eq_flatMap]
  rfl

/-! ## Halves of pairs -/

theorem isWhole_wordText_iff {w : Word} : (wordText w).IsWhole ↔ ∀ s ∈ w, s.text.IsWhole := by
  unfold wordText
  split
  · rename_i hempty
    refine iff_of_true (Text.isWhole_ofString "ε") fun s hs => ?_
    rw [eq_epsilon_of_isEmptyWord hempty hs]
    exact Text.isWhole_ofString "ε"
  · rw [Text.isWhole_intercalate_iff (Text.isWhole_ofString " "), List.forall_mem_map]
    simp only [isWhole_symbolText_iff]

theorem isWhole_alphabetLine_iff {directive : String} {symbols : List Symbol} :
    (alphabetLine directive symbols).IsWhole ↔ ∀ s ∈ symbols, s.text.IsWhole := by
  unfold alphabetLine
  split
  · rename_i hempty
    rw [List.isEmpty_iff.1 hempty]
    simp only [Text.isWhole_append_iff, Text.isWhole_ofString, and_self, List.not_mem_nil,
      false_imp_iff, implies_true]
  · simp only [Text.isWhole_append_iff, Text.isWhole_ofString, true_and, and_true,
      Text.isWhole_intercalate_iff, List.forall_mem_map, isWhole_symbolText_iff]

theorem isWhole_ruleLine_iff {head : Word} {bodies : List Word} :
    (ruleLine head bodies).IsWhole ↔
      (∀ s ∈ head, s.text.IsWhole) ∧ ∀ b ∈ bodies, ∀ s ∈ b, s.text.IsWhole := by
  unfold ruleLine
  split
  · rename_i hempty
    rw [List.isEmpty_iff.1 hempty]
    simp only [Text.isWhole_append_iff, Text.isWhole_ofString, true_and, and_true,
      isWhole_wordText_iff, List.not_mem_nil, false_imp_iff, implies_true]
  · simp only [Text.isWhole_append_iff, Text.isWhole_ofString, and_true,
      Text.isWhole_intercalate_iff, List.forall_mem_map, isWhole_wordText_iff]

/-- Half of a pair stands in a printed grammar if it does in the grammar. -/
theorem isWhole_print_iff {v : View} : (print v).IsWhole ↔ v.IsWhole := by
  simp only [print, lines, Text.isWhole_append_iff, Text.isWhole_ofString, and_true,
    Text.isWhole_intercalate_iff, List.forall_mem_append, List.forall_mem_cons, List.forall_mem_map,
    List.not_mem_nil, true_and, Json.isWhole_quote_iff, isWhole_symbolText_iff,
    isWhole_alphabetLine_iff, isWhole_ruleLine_iff, View.isWhole_iff]
  constructor
  · rintro ⟨⟨hid, hname, hstart, hterminals, hnonterminals, -⟩, hrules⟩
    exact ⟨hid, hname, hstart, hterminals, hnonterminals, fun r hr => (hrules r hr).1,
      fun r hr => (hrules r hr).2⟩
  · rintro ⟨hid, hname, hstart, hterminals, hnonterminals, hheads, hbodies⟩
    exact ⟨⟨hid, hname, hstart, hterminals, hnonterminals, nofun⟩,
      fun r hr => ⟨hheads r hr, hbodies r hr⟩⟩

theorem exists_print {v : View} (h : v.IsWhole) : ∃ source : String, print v = source :=
  ⟨_, (Text.ofString_chars (isWhole_print_iff.2 h)).symm⟩

/-! ## What a text says -/

section

variable [Host]

/-- A piece of text that is cut into the signs of some statements, whatever follows. -/
def SaysText (text : List Char) (items : List Item) : Prop :=
  ∃ signs, Phrases signs items ∧ (∀ x ∈ signs, x.Decodes) ∧
    ∀ {rest xs}, Scans rest xs → Scans (text ++ rest) (signs ++ xs)

theorem Phrases.append {xs ys : List Sign} {items items' : List Item} (h : Phrases xs items)
    (h' : Phrases ys items') : Phrases (xs ++ ys) (items ++ items') := by
  induction h with
  | nil => exact h'
  | cons hphrase _ ih =>
    rw [List.append_assoc]
    exact .cons hphrase ih

theorem Phrase.phrases {xs : List Sign} {item : Item} (h : Phrase xs item) :
    Phrases xs [item] := by
  have hnil := Phrases.cons h .nil
  rwa [List.append_nil] at hnil

theorem saysText_nil : SaysText [] [] :=
  ⟨[], .nil, by simp, fun h => h⟩

theorem saysText_newline : SaysText ['\n'] [] :=
  ⟨[], .nil, by simp, fun h => h.newline⟩

theorem SaysText.append {text text' : List Char} {items items' : List Item}
    (h : SaysText text items) (h' : SaysText text' items') :
    SaysText (text ++ text') (items ++ items') := by
  obtain ⟨signs, hphrases, hdecode, hscans⟩ := h
  obtain ⟨signs', hphrases', hdecode', hscans'⟩ := h'
  refine ⟨signs ++ signs', hphrases.append hphrases', ?_, ?_⟩
  · intro x hx
    exact (List.mem_append.1 hx).elim (hdecode x) (hdecode' x)
  · intro rest xs hrest
    rw [List.append_assoc, List.append_assoc]
    exact hscans (hscans' hrest)

/-- A text is read as some statements if its signs are these, and in no other case. -/
theorem reads_iff_scans {source : String} {items : List Item} :
    Reads source items ↔
      ∃ signs, Scans source.toList signs ∧ Phrases signs items ∧ ∀ x ∈ signs, x.Decodes := by
  constructor
  · rintro ⟨s, hs, hdecode, hphrases⟩
    refine ⟨s.tokens.map Token.sign, scans_of_scanFrom hs, hphrases, ?_⟩
    exact List.forall_mem_map.2 hdecode
  · rintro ⟨signs, hscans, hphrases, hdecode⟩
    obtain ⟨s, hs, rfl⟩ := scan_of_scans hscans
    exact ⟨s, hs, List.forall_mem_map.1 hdecode, hphrases⟩

theorem SaysText.reads {source : String} {items : List Item} (h : SaysText source.toList items) :
    Reads source items := by
  obtain ⟨signs, hphrases, hdecode, hscans⟩ := h
  have hall := hscans .nil
  rw [List.append_nil, List.append_nil] at hall
  exact reads_iff_scans.2 ⟨signs, hall, hphrases, hdecode⟩

theorem spells_symbolSigns {w : Word} (h : ∀ s ∈ w, s.text.IsWhole) :
    Spells (w.map symbolSign) w := by
  induction w with
  | nil => exact .nil
  | cons s w ih =>
    obtain ⟨hs, hw⟩ := List.forall_mem_cons.1 h
    have hspells := Spells.sign (isSymbol_symbolSign s) (ih hw)
    rwa [symbol_symbolSign hs] at hspells

theorem decodes_symbolSigns (w : Word) : ∀ x ∈ w.map symbolSign, x.Decodes := by
  intro x hx
  obtain ⟨s, _, rfl⟩ := List.mem_map.1 hx
  exact decodes_symbolSign s

/-! ### Declarations -/

theorem saysText_directive (d : Directive) {arguments : List Char} {signs : List Sign}
    {symbols : List Symbol} {item : Item}
    (hgoes : ∀ {rest}, Lexeme.goesOn rest = false → Lexeme.goesOn (arguments ++ rest) = false)
    (hscans : ∀ {rest xs}, Lexeme.goesOn rest = false → Scans rest xs →
      Scans (arguments ++ rest) (signs ++ xs))
    (hspells : Spells signs symbols) (hdecode : ∀ x ∈ signs, x.Decodes)
    (hsaid : d.Says symbols item) :
    SaysText ('%' :: d.word.toList ++ arguments ++ [';']) [item] := by
  have hident : isIdent d.word.toList = true := by
    cases d <;> decide
  have hepsilon : d.word.toList ≠ ['ε'] := by
    cases d <;> decide
  have hphrase : Phrase (⟨.percent, ['%']⟩ :: ⟨.ident, d.word.toList⟩ :: signs ++
      [⟨.semicolon, [';']⟩]) item :=
    .directive rfl rfl rfl hspells rfl hsaid
  refine ⟨_, hphrase.phrases, ?_, ?_⟩
  · intro x hx
    simp only [List.cons_append, List.mem_cons, List.mem_append, List.not_mem_nil, or_false] at hx
    rcases hx with rfl | rfl | hx | rfl
    · exact Sign.decodes_of_kind rfl
    · exact Sign.decodes_of_kind rfl
    · exact hdecode x hx
    · exact Sign.decodes_of_kind rfl
  · intro rest xs hrest
    have hsemicolon : Scans (';' :: rest) (⟨.semicolon, [';']⟩ :: xs) := hrest.punctuation rfl
    have harguments := hscans rfl hsemicolon
    have hword := harguments.ident hident hepsilon (hgoes rfl)
    have hpercent : Scans ('%' :: (d.word.toList ++ (arguments ++ ';' :: rest)))
        (⟨.percent, ['%']⟩ :: ⟨.ident, d.word.toList⟩ :: (signs ++ ⟨.semicolon, [';']⟩ :: xs)) :=
      hword.punctuation rfl
    simpa using hpercent

theorem saysText_quoted {d : Directive} {start : String} {t : Text} {item : Item}
    (hstart : start = "%" ++ d.word ++ " ") (ht : t.IsWhole) (hsaid : d.Says [⟨t⟩] item) :
    SaysText (Text.chars (start ++ Json.quote t ++ ";")) [item] := by
  have hspells : Spells [quotedSign t] [⟨t⟩] := by
    have hsign : Spells [quotedSign t] [(quotedSign t).symbol] := .sign rfl .nil
    rwa [symbol_quotedSign ht] at hsign
  have hscans : ∀ {rest xs}, Lexeme.goesOn rest = false → Scans rest xs →
      Scans (' ' :: Json.quoteChars t.chars ++ rest) ([quotedSign t] ++ xs) := by
    intro rest xs _ h
    exact (h.quoted t.chars).space
  have htext := saysText_directive d (fun _ => rfl) hscans hspells
    (fun x hx => List.mem_singleton.1 hx ▸ decodes_quotedSign t) hsaid
  rw [hstart]
  simpa [Json.chars_quote] using htext

theorem saysText_alphabetLine {d : Directive} {symbols : List Symbol} {item : Item}
    (hwhole : ∀ s ∈ symbols, s.text.IsWhole) (hsaid : d.Says symbols item) :
    SaysText (Text.chars (alphabetLine d.word symbols)) [item] := by
  rw [chars_alphabetLine]
  exact saysText_directive d (goesOn_following (fun _ => rfl) _)
    (fun hrest h => h.symbols hrest symbols) (spells_symbolSigns hwhole)
    (decodes_symbolSigns symbols) hsaid

theorem saysText_symbol {d : Directive} {start : String} {s : Symbol} {item : Item}
    (hstart : start = "%" ++ d.word ++ " ") (hs : s.text.IsWhole) (hsaid : d.Says [s] item) :
    SaysText (Text.chars (start ++ symbolText s ++ ";")) [item] := by
  have hline :
      Text.chars (start ++ symbolText s ++ ";") = Text.chars (alphabetLine d.word [s]) := by
    simp [alphabetLine, hstart]
  rw [hline]
  exact saysText_alphabetLine (List.forall_mem_singleton.2 hs) hsaid

/-! ### Rules -/

theorem spellsBodies_bodiesSigns {body : Word} {bodies : List Word}
    (h : ∀ b ∈ body :: bodies, ∀ s ∈ b, s.text.IsWhole) :
    SpellsBodies (bodiesSigns body bodies) (body :: bodies) := by
  induction bodies generalizing body with
  | nil =>
    rw [bodiesSigns, List.flatMap_nil, List.append_nil]
    exact .one (spells_symbolSigns (h body List.mem_cons_self))
  | cons b bodies ih =>
    obtain ⟨hbody, hbodies⟩ := List.forall_mem_cons.1 h
    exact .bar (spells_symbolSigns hbody) rfl (ih hbodies)

theorem decodes_bodiesSigns (body : Word) (bodies : List Word) :
    ∀ x ∈ bodiesSigns body bodies, x.Decodes := by
  intro x hx
  rcases List.mem_append.1 hx with hx | hx
  · exact decodes_symbolSigns body x hx
  · obtain ⟨b, _, hb⟩ := List.mem_flatMap.1 hx
    rcases List.mem_cons.1 hb with rfl | hb
    · exact Sign.decodes_of_kind rfl
    · exact decodes_symbolSigns b x hb

theorem phrase_rule {between : Sign} (hbetween : between.kind = .colon ∨ between.kind = .arrow)
    {head body : Word} {bodies : List Word} (hhead : head ≠ [])
    (hwhole : ∀ w ∈ head :: body :: bodies, ∀ s ∈ w, s.text.IsWhole) :
    Phrase (head.map symbolSign ++ between :: bodiesSigns body bodies ++
      [⟨.semicolon, [';']⟩]) (.rule head (body :: bodies)) := by
  obtain ⟨s, w, rfl⟩ := List.exists_cons_of_ne_nil hhead
  have hkind : (symbolSign s).kind ≠ .percent := by
    intro h
    have hsymbol := isSymbol_symbolSign s
    rw [h] at hsymbol
    cases hsymbol
  obtain ⟨hsymbols, hbodies⟩ := List.forall_mem_cons.1 hwhole
  exact .rule hkind (spells_symbolSigns hsymbols) hbetween (spellsBodies_bodiesSigns hbodies) rfl

theorem saysText_rule {text : List Char} {between : Sign} {head : Word} (hhead : head ≠ [])
    {body : Word} {bodies : List Word}
    (hwhole : ∀ w ∈ head :: body :: bodies, ∀ s ∈ w, s.text.IsWhole)
    (hscans : ∀ {rest xs}, Scans rest xs → Scans (text ++ rest)
      (head.map symbolSign ++ between :: bodiesSigns body bodies ++ ⟨.semicolon, [';']⟩ :: xs))
    (hbetween : between.kind = .colon ∨ between.kind = .arrow) :
    SaysText text [.rule head (body :: bodies)] := by
  have hquoted : between.kind.isQuoted = false := by
    rcases hbetween with h | h <;> rw [h] <;> rfl
  refine ⟨_, (phrase_rule hbetween hhead hwhole).phrases, ?_, ?_⟩
  · intro x hx
    simp only [List.mem_append, List.mem_cons, List.not_mem_nil, or_false] at hx
    rcases hx with (hx | rfl | hx) | rfl
    · exact decodes_symbolSigns head x hx
    · exact Sign.decodes_of_kind hquoted
    · exact decodes_bodiesSigns body bodies x hx
    · exact Sign.decodes_of_kind rfl
  · intro rest xs h
    have hrule := hscans h
    simpa using hrule

theorem saysText_ruleLine {head : Word} {bodies : List Word} (hhead : Word.IsNormal head)
    (hbodies : ∀ b ∈ bodies, Word.IsNormal b)
    (hwhole : ∀ w ∈ head :: bodies, ∀ s ∈ w, s.text.IsWhole) :
    SaysText (Text.chars (ruleLine head bodies)) [.rule head bodies] := by
  cases bodies with
  | nil =>
    rw [ruleLine_nil hhead]
    exact saysText_alphabetLine (hwhole head List.mem_cons_self) (.head hhead.ne_nil)
  | cons body bodies =>
    exact saysText_rule hhead.ne_nil hwhole (fun h => h.rule hhead hbodies) (.inl rfl)

/-! ### Grammars -/

def NormalRules (rules : List (Word × List Word)) : Prop :=
  ∀ r ∈ rules, Word.IsNormal r.1 ∧ ∀ b ∈ r.2, Word.IsNormal b

theorem saysText_sayings {v : View} (h : NormalRules v.rules) (hwhole : v.IsWhole)
    {l : Text × List Item} (hl : l ∈ sayings v) : SaysText l.1.chars l.2 := by
  rcases List.mem_append.1 hl with hl | hl
  · simp only [List.mem_cons, List.not_mem_nil, or_false] at hl
    rcases hl with rfl | rfl | rfl | rfl | rfl | rfl | rfl
    · exact saysText_quoted (d := .id) rfl hwhole.id (.id ⟨v.id⟩)
    · exact saysText_quoted (d := .name) rfl hwhole.name (.name ⟨v.name⟩)
    · have htype : SaysText (Text.chars ("%type " ++ symbolText ⟨v.type.name⟩ ++ ";"))
          [.type v.type] :=
        saysText_symbol (d := .type) rfl (Text.isWhole_ofString _) (.type v.type)
      simpa [symbolText_typeName] using htype
    · exact saysText_symbol (d := .start) rfl hwhole.start (.start v.start)
    · exact saysText_alphabetLine (d := .terminals) hwhole.terminals (.terminals v.terminals)
    · exact saysText_alphabetLine (d := .nonterminals) hwhole.nonterminals
        (.nonterminals v.nonterminals)
    · exact saysText_nil
  · obtain ⟨r, hr, rfl⟩ := List.mem_map.1 hl
    obtain ⟨hhead, hbodies⟩ := h r hr
    exact saysText_ruleLine hhead hbodies
      (List.forall_mem_cons.2 ⟨hwhole.heads r hr, hwhole.bodies r hr⟩)

theorem saysText_lines {ls : List (Text × List Item)}
    (h : ∀ l ∈ ls, SaysText l.1.chars l.2) :
    SaysText (following "\n" (ls.map fun l => l.1)) (ls.flatMap fun l => l.2) := by
  induction ls with
  | nil => exact saysText_nil
  | cons l ls ih =>
    have hl := h l List.mem_cons_self
    have hls := ih fun l' hl' => h l' (List.mem_cons_of_mem l hl')
    rw [List.map_cons, following_cons, List.flatMap_cons]
    exact saysText_newline.append (hl.append hls)

theorem saysText_intercalate {ls : List (Text × List Item)}
    (h : ∀ l ∈ ls, SaysText l.1.chars l.2) :
    SaysText (Text.chars (List.intercalate (Text.ofString "\n") (ls.map fun l => l.1)))
      (ls.flatMap fun l => l.2) := by
  cases ls with
  | nil => exact saysText_nil
  | cons l ls =>
    have hfirst := h l List.mem_cons_self
    have hmore := saysText_lines fun l' hl' => h l' (List.mem_cons_of_mem l hl')
    rw [List.map_cons, chars_intercalate_cons, List.flatMap_cons]
    exact hfirst.append hmore

/-- A printed grammar says its parts, if it is a string. -/
theorem reads_print {v : View} (h : NormalRules v.rules) {source : String}
    (hsource : print v = source) : Reads source (statements v) := by
  apply SaysText.reads
  have hwhole : v.IsWhole := by
    rw [← isWhole_print_iff, hsource]
    exact Text.isWhole_ofString source
  have hlines : SaysText (Text.chars (List.intercalate (Text.ofString "\n") (lines v)))
      (statements v) := by
    have hall := saysText_intercalate fun l hl => saysText_sayings h hwhole (l := l) hl
    rwa [← lines_eq, flatMap_sayings] at hall
  have htext := hlines.append saysText_newline
  rw [List.append_nil] at htext
  rw [← Text.chars_ofString, ← hsource, print, Text.chars_append]
  exact htext

end

/-! ## The round trip -/

theorem filterMap_statements {α : Type} {f : Item → Option α}
    (hf : ∀ head bodies, f (.rule head bodies) = none) (v : View) :
    (statements v).filterMap f = [.id v.id, .name v.name, .type v.type, .start v.start,
      .terminals v.terminals, .nonterminals v.nonterminals].filterMap f := by
  have hrules : (v.rules.map fun r => Item.rule r.1 r.2).filterMap f = [] := by
    rw [List.filterMap_map, List.filterMap_eq_nil_iff]
    exact fun r _ => hf r.1 r.2
  rw [statements, List.filterMap_append, hrules, List.append_nil]

theorem rules_statements (v : View) : Item.rules (statements v) = v.rules := by
  have hrules : (v.rules.map fun r => Item.rule r.1 r.2).filterMap Item.rule? = v.rules := by
    rw [List.filterMap_map]
    exact List.filterMap_some
  rw [Item.rules, statements, List.filterMap_append, hrules]
  rfl

theorem Item.together_of_filterMap {α : Type} {f : Item → Option (List α)} {items : List Item}
    {as : List α} (h : items.filterMap f = [as]) : together f items = some as := by
  rw [together, h, if_neg (List.cons_ne_nil _ _), List.flatten_cons]
  exact congrArg some (List.append_nil as)

theorem normalRules_items {m : OrderedMap Word Bodies} (h : WellFormedRules m) :
    NormalRules (m.entries.map fun e => (e.1, e.2.toList)) := by
  intro r hr
  obtain ⟨e, he, rfl⟩ := List.mem_map.1 hr
  exact ⟨h.normal e he, (h.bodies e he).normal⟩

/-- The id that a printed grammar has when it is read. -/
def printedId (id freshId : Text) : Text := if id = [] then freshId else id

theorem find?_printedId (id freshId : Text) :
    ([id].find? fun t => t ≠ []).getD freshId = printedId id freshId := by
  unfold printedId
  by_cases hid : id = [] <;> simp [hid]

theorem describes_statements {g : Grammar} (h : g.WellFormed) (freshId : Text) :
    Describes (statements g.view) none freshId { g with id := printedId g.id freshId } := by
  have hrelation := Relation.ofPairs_items h.rules
  constructor
  case id =>
    rw [Item.last, filterMap_statements fun _ _ => rfl]
    exact (find?_printedId g.id freshId).symm
  case name =>
    rw [Item.last, filterMap_statements fun _ _ => rfl]
    rfl
  case start =>
    rw [Item.startSymbol?, Item.last, filterMap_statements fun _ _ => rfl]
    rfl
  case nonterminals =>
    rw [Item.together_of_filterMap (filterMap_statements (fun _ _ => rfl) g.view)]
    exact (OrderedSet.ofList_toList h.nonterminals).symm
  case terminals =>
    rw [Item.together_of_filterMap (filterMap_statements (fun _ _ => rfl) g.view)]
    exact (OrderedSet.ofList_toList h.terminals).symm
  case relation =>
    rw [rules_statements, ← Declarations.ofPairs_eq]
    exact hrelation.symm
  case type =>
    rw [Item.last, filterMap_statements fun _ _ => rfl]
    rfl

section

variable [Host]

/-- A printed grammar is read as the grammar, but an empty id is replaced. -/
theorem parse_print_of_wellFormed {g : Grammar} (h : g.WellFormed) {source : String}
    (hsource : print g.view = source) (freshId : Text) :
    parse source none freshId = .ok { g with id := printedId g.id freshId } := by
  have hreads := reads_print (normalRules_items h.rules) hsource
  exact (parse_of_reads hreads none freshId _).2 (describes_statements h freshId)

/-- Printing a grammar and reading the text gives a grammar with the same record; only an empty id
is replaced by a fresh one. -/
theorem parse_print (freshId : Text) :
    (∀ g : Grammar, g.Reachable → g.view.IsWhole → ∃ source : String, print g.view = source ∧
      ∃ g', parse source none freshId = .ok g' ∧
        g'.view.record = { g.view.record with id := if g.id = [] then freshId else g.id }) ∧
    ∀ p : FrozenGrammar, p.Reachable → p.view.IsWhole → ∃ source : String,
      print p.view = source ∧ ∃ g', parse source none freshId = .ok g' ∧
        g'.view.record = { p.view.record with id := if p.id = [] then freshId else p.id } := by
  constructor
  · intro g hg hwhole
    obtain ⟨source, hsource⟩ := exists_print hwhole
    exact ⟨source, hsource, _, parse_print_of_wellFormed hg.wellFormed hsource freshId, rfl⟩
  · intro p hp hwhole
    obtain ⟨source, hsource⟩ := exists_print hwhole
    have hview := FrozenGrammar.view_thaw hp.wellFormed
    rw [← hview] at hsource ⊢
    refine ⟨source, hsource, _, parse_print_of_wellFormed
      (Grammar.Reachable.thaw hp).wellFormed hsource freshId, ?_⟩
    rfl

end

section

open scoped Host

/-- Symbols without letters and with letters that the notation reserves, in words with `ε`. -/
def awkwardTexts : Grammar :=
  let edits : List GrammarEdit := [
    .addTerminal (.text ""),
    .rule (.addProduction (.list [.text "ε", .text "a\n\\"])
      (.list [.list [], .list [.text "εx", .text "%"]]))]
  edits.foldl (fun g e => (g.apply e).1) (Grammar.new "" ⟨"ε"⟩ "\"")

theorem parse_print_awkwardTexts :
    ∃ source : String, print awkwardTexts.view = source ∧ ∃ g', parse source none "7" = .ok g' ∧
      g'.view.record =
        { id := "7"
          start := "ε"
          name := "\""
          nonterminals := []
          terminals := [""]
          rules := [⟨["ε", "a\n\\"], [["ε"], ["εx", "%"]]⟩]
          type := some .regular } := by
  have hreachable : awkwardTexts.Reachable := .edit _ (.edit _ (.new "" ⟨"ε"⟩ "\""))
  obtain ⟨source, hsource, g', hparse, hrecord⟩ :=
    (parse_print "7").1 awkwardTexts hreachable (by decide +kernel)
  exact ⟨source, hsource, g', hparse, hrecord.trans (by decide +kernel)⟩

end

end PhraseGrammar.Notation
