import LivePage.Proofs.Expr.Spelling

/-!
# Through a text

The scanner skips white space and reads spellings, one after the other, until it is at the end of
the text or stuck.

* `Spelled`, `scan_of_spelled`: rows of spellings with white space between them, and their tokens.
* `Step`, `Reaches`: how the scanner goes through a text.
* `ofText_eq_ok_iff`, `ofText_eq_error_iff`: where it gets to.
* `ofText_spelled`: tokens are read back from their spellings, and every text is read to its end or
  to a place where the scanner is stuck.
-/

namespace LivePage

namespace Token

/-! ## Rows of spellings -/

/-- A row of spellings is written in a text: there is white space between neighbours, and there may
be white space around them all. -/
inductive Spelled : List Spelling → List Char → Prop
  | nil {blanks : List Char} : (∀ b ∈ blanks, Text.isWhiteSpace b = true) → Spelled [] blanks
  | cons {blanks rest : List Char} {s : Spelling} {ss : List Spelling} :
      (∀ b ∈ blanks, Text.isWhiteSpace b = true) → (∀ c ∈ rest.head?, Text.isWhiteSpace c = true) →
      Spelled ss rest → Spelled (s :: ss) (blanks ++ (s.chars ++ rest))

section

variable {expression : String} {cs rest : List Char}

/-- A spelling is scanned as its token where it ends before what follows. -/
theorem scan_spelling {s : Spelling} (h : s.EndsBefore rest) (expression : String) :
    scan expression 0 (s.chars ++ rest) = (scan expression 0 rest).map (s.token :: ·) := by
  obtain ⟨c, cs, hs, hspace⟩ := s.exists_chars_eq_cons
  rw [hs, List.cons_append, scan_cons hspace (Spelling.readToken_of_endsBefore hs h expression)]

theorem scan_blanks_append {blanks : List Char} (h : ∀ b ∈ blanks, Text.isWhiteSpace b = true)
    (expression : String) (cs : List Char) :
    scan expression 0 (blanks ++ cs) = scan expression 0 cs := by
  induction blanks with
  | nil => rfl
  | cons b bs ih =>
    obtain ⟨hb, hbs⟩ := List.forall_mem_cons.mp h
    rw [List.cons_append, scan_whiteSpace expression _ hb, ih hbs]

/-- The tokens of a row of spellings. -/
theorem scan_of_spelled {ss : List Spelling} (h : Spelled ss cs) (expression : String) :
    scan expression 0 cs = .ok (ss.map Spelling.token) := by
  induction h with
  | nil hblanks => exact scan_blanks hblanks expression
  | cons hblanks hspace h ih =>
    have hapart : Apart _ := fun c hc => endsToken_of_isWhiteSpace (hspace c hc)
    rw [scan_blanks_append hblanks, scan_spelling (Spelling.endsBefore_of_apart hapart _), ih]
    rfl

/-! ## Through a text -/

/-- What is left of a text after one step of the scanner: white space is skipped, and a spelling is
read to its end. -/
inductive Step : List Char → List Char → Prop
  | whiteSpace {c : Char} {cs : List Char} : Text.isWhiteSpace c = true → Step (c :: cs) cs
  | spelling {cs rest : List Char} {s : Spelling} : s.Begins cs rest → Step cs rest

/-- Some steps of the scanner, with the tokens that it reads on its way. -/
inductive Reaches : List Char → List Token → List Char → Prop
  | here {cs : List Char} : Reaches cs [] cs
  | whiteSpace {c : Char} {cs : List Char} {ts : List Token} {rest : List Char} :
      Text.isWhiteSpace c = true → Reaches cs ts rest → Reaches (c :: cs) ts rest
  | spelling {cs after : List Char} {s : Spelling} {ts : List Token} {rest : List Char} :
      s.Begins cs after → Reaches after ts rest → Reaches cs (s.token :: ts) rest

/-- Every step leaves less of a text. -/
theorem Step.length_lt (h : Step cs rest) : rest.length < cs.length := by
  cases h with
  | whiteSpace => exact Nat.lt_succ_self _
  | spelling hs =>
    obtain ⟨rfl, -⟩ := hs
    obtain ⟨c, ds, hchars, -⟩ := Spelling.exists_chars_eq_cons _
    rw [hchars, List.length_append, List.length_cons]
    omega

/-- The scanner cannot step for ever. -/
theorem wellFounded_step : WellFounded fun after before => Step before after :=
  Subrelation.wf Step.length_lt (measure List.length).wf

/-- The tokens of a text are those on the way to a place in it and those of what is left there. -/
theorem Reaches.scan_eq {ts : List Token} (h : Reaches cs ts rest) (expression : String) :
    scan expression 0 cs = (scan expression 0 rest).map (ts ++ ·) := by
  induction h with
  | here => cases scan expression 0 _ <;> rfl
  | whiteSpace hc h ih => rw [scan_whiteSpace expression _ hc, ih]
  | @spelling cs after s ts rest hs h ih =>
    obtain ⟨rfl, hends⟩ := hs
    rw [scan_spelling hends, ih]
    cases scan expression 0 rest <;> rfl

theorem Stuck.exists_cons {fault : SyntaxFault} (h : Stuck expression cs fault) :
    ∃ c ds, cs = c :: ds ∧ Text.isWhiteSpace c = false := by
  cases h with
  | unterminated hquote => exact ⟨_, _, rfl, isWhiteSpace_quote hquote⟩
  | points hdigit =>
    exact ⟨_, _, rfl, Text.isWhiteSpace_of_isWordChar (Text.isWordChar_of_isDigit hdigit)⟩
  | noLexeme hspace => exact ⟨_, _, rfl, hspace⟩

theorem Stuck.scan_eq {fault : SyntaxFault} (h : Stuck expression cs fault) :
    scan expression 0 cs = .error fault := by
  obtain ⟨c, ds, rfl, hspace⟩ := h.exists_cons
  rw [scan, hspace, if_neg Bool.false_ne_true, h.readToken_eq]

/-- Every text is read to its end, or to a place where the scanner is stuck. -/
theorem exists_reaches (expression : String) (cs : List Char) :
    (∃ ts, Reaches cs ts []) ∨
      ∃ ts rest fault, Reaches cs ts rest ∧ Stuck expression rest fault := by
  induction cs using wellFounded_step.induction with
  | _ cs ih =>
  cases cs with
  | nil => exact .inl ⟨[], .here⟩
  | cons c cs =>
    cases hspace : Text.isWhiteSpace c with
    | true =>
      refine (ih cs (.whiteSpace hspace)).imp ?_ ?_
      · exact fun ⟨ts, h⟩ => ⟨ts, h.whiteSpace hspace⟩
      · exact fun ⟨ts, rest, fault, h, hstuck⟩ => ⟨ts, rest, fault, h.whiteSpace hspace, hstuck⟩
    | false =>
      rcases begins_or_stuck hspace cs expression with ⟨s, after, hs⟩ | ⟨fault, hstuck⟩
      · refine (ih after (.spelling hs)).imp ?_ ?_
        · exact fun ⟨ts, h⟩ => ⟨_, h.spelling hs⟩
        · exact fun ⟨ts, rest, fault, h, hstuck⟩ => ⟨_, rest, fault, h.spelling hs, hstuck⟩
      · exact .inr ⟨[], _, fault, .here, hstuck⟩

theorem ofText_eq_ok_iff {ts : List Token} :
    ofText expression = .ok ts ↔ Reaches expression.toList ts [] := by
  constructor
  · intro h
    rcases exists_reaches expression expression.toList with
      ⟨us, hus⟩ | ⟨us, rest, fault, hus, hstuck⟩
    · rw [ofText, hus.scan_eq, scan, Except.map, List.append_nil] at h
      cases h
      exact hus
    · rw [ofText, hus.scan_eq, hstuck.scan_eq] at h
      cases h
  · intro h
    rw [ofText, h.scan_eq, scan, Except.map, List.append_nil]

theorem ofText_eq_error_iff {fault : SyntaxFault} :
    ofText expression = .error fault ↔
      ∃ ts rest, Reaches expression.toList ts rest ∧ Stuck expression rest fault := by
  constructor
  · intro h
    rcases exists_reaches expression expression.toList with
      ⟨us, hus⟩ | ⟨us, rest, fault', hus, hstuck⟩
    · rw [ofText, hus.scan_eq] at h
      cases h
    · rw [ofText, hus.scan_eq, hstuck.scan_eq] at h
      cases h
      exact ⟨us, rest, hus, hstuck⟩
  · rintro ⟨ts, rest, h, hstuck⟩
    rw [ofText, h.scan_eq, hstuck.scan_eq]
    rfl

end

/-- **Tokens are read back from their spellings.** A row of spellings with white space between
neighbours is read as the tokens of the row: a literal with its quote and backslashes escaped as its
string, a numeral with its value, an operator whole. On every text the scanner comes to an end: no
steps go on for ever. It succeeds exactly if it reaches the end of the text, and then with the
tokens on its way; it fails exactly if it reaches a literal that is not closed, digits with more
than one point among them, or a place where no lexeme begins. -/
theorem ofText_spelled :
    (∀ (e : String) (ss : List Spelling), Spelled ss e.toList →
      ofText e = .ok (ss.map Spelling.token)) ∧
    (∀ (quote : Char) (hquote : quote = '\x27' ∨ quote = '\x22') (s : String),
      (Spelling.ofString quote hquote s).chars = (quoted quote s).toList ∧
      (Spelling.ofString quote hquote s).token = .str s) ∧
    (WellFounded fun after before => Step before after) ∧
    ∀ e : String,
      (∀ ts, ofText e = .ok ts ↔ Reaches e.toList ts []) ∧
      ∀ fault, ofText e = .error fault ↔
        ∃ ts rest, Reaches e.toList ts rest ∧ Stuck e rest fault := by
  refine ⟨fun e ss h => scan_of_spelled h e, fun quote hquote s => ?_, wellFounded_step,
    fun e => ?_⟩
  · exact ⟨Spelling.chars_ofString hquote s, Spelling.token_ofString hquote s⟩
  · exact ⟨fun ts => ofText_eq_ok_iff, fun fault => ofText_eq_error_iff⟩

/-- A word, a literal with an escaped quote, a numeral, and two operators of which one begins with
the other. -/
def mixedRow : List Spelling :=
  [.word '$' ['a', '1'] rfl (List.all_eq_true.mp rfl), .ofString '\x27' (.inl rfl) "it's",
    .numeral '1' ['0'] (some ['5']) rfl (List.all_eq_true.mp rfl)
      (fun ds hds => by cases hds; exact List.all_eq_true.mp rfl),
    .operator .optionalDot, .operator .question]

theorem ofText_spelled_mixedRow :
    Spelled mixedRow "$a1 'it\\'s'\t10.5 ?. ? ".toList ∧
      ofText "$a1 'it\\'s'\t10.5 ?. ? " =
        .ok [.ident "$a1", .str "it's", .num (Decimal.mk false 105 (-1)).toBinary64,
          .op .optionalDot, .op .question] := by
  have hblank : ∀ b ∈ [' '], Text.isWhiteSpace b = true := List.all_eq_true.mp rfl
  have htab : ∀ b ∈ ['\t'], Text.isWhiteSpace b = true := List.all_eq_true.mp rfl
  have hspace : ∀ b ∈ some ' ', Text.isWhiteSpace b = true := fun b hb => by cases hb; rfl
  have htab' : ∀ b ∈ some '\t', Text.isWhiteSpace b = true := fun b hb => by cases hb; rfl
  have hspelled : Spelled mixedRow ([] ++ ("$a1".toList ++ ([' '] ++ ("'it\\'s'".toList ++
      (['\t'] ++ ("10.5".toList ++ ([' '] ++ (['?', '.'] ++ ([' '] ++ (['?'] ++ [' '])))))))))) :=
    .cons nofun hspace (.cons hblank htab' (.cons htab hspace
      (.cons hblank hspace (.cons hblank hspace (.nil hblank)))))
  exact ⟨hspelled, (ofText_spelled.1 _ _ hspelled).trans rfl⟩

end Token

end LivePage
