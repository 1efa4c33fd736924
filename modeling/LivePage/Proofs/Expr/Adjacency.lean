import LivePage.Proofs.Expr.Lexing

/-!
# Texts that follow each other

A token ends before the first character that cannot go on it. So where a text begins with a
character that goes on no token at all, what stands before it has the tokens that it has alone.

* `EndsToken`, `Apart`: characters that go on no token, and texts that begin with none or with such
  a character.
* `readToken_append_of_apart`: a token is read in the same way with such a text after it.
* `scan_append_of_apart`: the tokens of two texts, one after the other.
* `scan_openParen`, `scan_closeParen`, `scan_op_of_apart`: operators.
-/

namespace LivePage

namespace Token

/-- Neither a number nor a word nor an operator goes on with the character. -/
structure EndsToken (c : Char) : Prop where
  number : isNumberChar c = false
  word : Text.isWordChar c = false
  operator : ∀ o : Operator, c ∉ o.chars.tail

/-- A text that does not go on a token that stands before it. -/
def Apart (more : List Char) : Prop := ∀ c ∈ more.head?, EndsToken c

variable {more : List Char}

theorem apart_cons {c : Char} (h : EndsToken c) (cs : List Char) : Apart (c :: cs) := by
  intro d hd
  obtain rfl : c = d := by simpa using hd
  exact h

theorem endsToken_of_isWhiteSpace {c : Char} (h : Text.isWhiteSpace c = true) : EndsToken c where
  number := by
    have hdot : c ≠ '.' := by
      rintro rfl
      exact absurd h (by decide)
    simp [isNumberChar, Text.isDigit_of_isWhiteSpace h, hdot]
  word := Text.isWordChar_of_isWhiteSpace h
  operator o hmem := by
    obtain ⟨-, -, -, -, -, hspace⟩ := operator_chars (List.mem_of_mem_tail hmem)
    rw [h] at hspace
    cases hspace

theorem apart_of_isWhiteSpace (h : ∀ c ∈ more, Text.isWhiteSpace c = true) : Apart more :=
  fun c hc => endsToken_of_isWhiteSpace (h c (List.mem_of_mem_head? hc))

theorem endsToken_closeParen : EndsToken ')' where
  number := rfl
  word := by decide
  operator o := by cases o <;> decide

/-! ## Stretches of characters -/

theorem takeWhile_append_of_neg {p : Char → Bool} (h : ∀ c ∈ more.head?, p c = false)
    (cs : List Char) : (cs ++ more).takeWhile p = cs.takeWhile p := by
  induction cs with
  | nil =>
    cases more with
    | nil => rfl
    | cons b bs => exact List.takeWhile_cons_of_neg (by simp [h b rfl])
  | cons c cs ih => rw [List.cons_append, List.takeWhile_cons, List.takeWhile_cons, ih]

theorem dropWhile_append_of_neg {p : Char → Bool} (h : ∀ c ∈ more.head?, p c = false)
    (cs : List Char) : (cs ++ more).dropWhile p = cs.dropWhile p ++ more := by
  induction cs with
  | nil =>
    cases more with
    | nil => rfl
    | cons b bs => exact List.dropWhile_cons_of_neg (by simp [h b rfl])
  | cons c cs ih =>
    rw [List.cons_append, List.dropWhile_cons, List.dropWhile_cons, ih]
    split <;> rfl

/-- A string literal that is closed stays so, whatever comes after it. -/
theorem readQuoted_append_right {quote : Char} {cs content rest : List Char}
    (h : readQuoted quote cs = some (content, rest)) (more : List Char) :
    readQuoted quote (cs ++ more) = some (content, rest ++ more) := by
  induction h using readQuoted_induction with
  | close cs => exact readQuoted_quote _
  | escape c cs content rest hq h ih =>
    rw [List.cons_append, List.cons_append, readQuoted_escape hq, ih]
    rfl
  | char c cs content rest hq he h ih =>
    rw [List.cons_append, readQuoted_char hq he, ih]
    rfl

/-- Whether a text begins with some characters is told without what follows it, if that does not
begin with one of them. -/
theorem isPrefixOf_append {ds : List Char} (h : ∀ c ∈ more.head?, c ∉ ds) (cs : List Char) :
    ds.isPrefixOf (cs ++ more) = ds.isPrefixOf cs := by
  induction ds generalizing cs with
  | nil => simp
  | cons d ds ih =>
    cases cs with
    | nil =>
      cases more with
      | nil => rfl
      | cons b bs =>
        have hne : d ≠ b := fun heq => h b rfl (by simp [heq])
        simp [List.isPrefixOf, hne]
    | cons c cs =>
      have hds : ∀ c ∈ more.head?, c ∉ ds := fun c hc hmem => h c hc (List.mem_cons_of_mem d hmem)
      simp [List.isPrefixOf, ih hds]

/-- The operator at the head of a text is told without what follows the text. -/
theorem read?_append (h : ∀ c ∈ more.head?, ∀ o : Operator, c ∉ o.chars.tail) (c : Char)
    (cs : List Char) :
    Operator.read? (c :: cs ++ more) =
      (Operator.read? (c :: cs)).map fun r => (r.1, r.2 ++ more) := by
  have hsame : (fun o : Operator => o.chars.isPrefixOf (c :: cs ++ more)) =
      fun o => o.chars.isPrefixOf (c :: cs) := by
    funext o
    obtain ⟨first, others, ho⟩ := chars_eq_cons o
    have hothers : ∀ c ∈ more.head?, c ∉ others := by
      intro c hc
      have := h c hc o
      rwa [ho] at this
    rw [ho, List.cons_append, List.isPrefixOf, List.isPrefixOf, isPrefixOf_append hothers]
  rw [Operator.read?, Operator.read?, hsame]
  cases hfind : Operator.all.find? fun o => o.chars.isPrefixOf (c :: cs) with
  | none => rfl
  | some o =>
    have hprefix := List.find?_some hfind
    rw [List.isPrefixOf_iff_prefix] at hprefix
    rw [Option.map_some, Option.map_some, Option.map_some,
      List.drop_append_of_le_length hprefix.length_le]

/-! ## Tokens -/

/-- A token is read in the same way where a text follows that does not go on it. -/
theorem readToken_append_of_apart (hmore : Apart more) {expression : String} {c : Char}
    {cs rest : List Char} {token : Token}
    (h : readToken expression c cs = .ok (token, rest)) (expression' : String) :
    readToken expression' c (cs ++ more) = .ok (token, rest ++ more) := by
  by_cases hquote : c = '\x27' ∨ c = '\x22'
  · rw [readToken_of_quote hquote] at h ⊢
    split at h
    · rename_i hread
      cases h
      rw [readQuoted_append_right hread]
    · cases h
  by_cases hdigit : c.isDigit = true
  · have hneg : ∀ b ∈ more.head?, isNumberChar b = false := fun b hb => (hmore b hb).number
    rw [readToken_of_isDigit hdigit] at h
    rw [readToken_of_isDigit hdigit, ← List.cons_append, takeWhile_append_of_neg hneg,
      dropWhile_append_of_neg hneg]
    split at h
    · cases h
      rfl
    · cases h
  by_cases hstart : Text.isWordStart c = true
  · have hneg : ∀ b ∈ more.head?, Text.isWordChar b = false := fun b hb => (hmore b hb).word
    rw [readToken_of_isWordStart hstart] at h
    rw [readToken_of_isWordStart hstart, ← List.cons_append, takeWhile_append_of_neg hneg,
      dropWhile_append_of_neg hneg]
    cases h
    rfl
  rw [Bool.not_eq_true] at hdigit hstart
  rw [readToken_of_others hquote hdigit hstart] at h
  rw [readToken_of_others hquote hdigit hstart, ← List.cons_append,
    read?_append fun b hb => (hmore b hb).operator]
  split at h
  · rename_i hread
    cases h
    rw [hread]
    rfl
  · cases h

/-- The tokens of a text come before those of the text after it, if that goes on none of them. -/
theorem scan_append_of_apart (hmore : Apart more) {expression : String} {cs : List Char}
    {ts : List Token} (h : scan expression 0 cs = .ok ts) (expression' : String) :
    scan expression' 0 (cs ++ more) = (scan expression' 0 more).map (ts ++ ·) := by
  induction h using scan_induction with
  | nil =>
    rw [List.nil_append]
    cases scan expression' 0 more <;> rfl
  | whiteSpace c cs ts hc h ih => rw [List.cons_append, scan_whiteSpace expression' _ hc, ih]
  | token c cs token rest ts hc hread h ih =>
    rw [List.cons_append, scan_cons hc (readToken_append_of_apart hmore hread expression'), ih]
    cases scan expression' 0 more <;> rfl

/-! ## Operators -/

theorem scan_openParen (expression : String) (cs : List Char) :
    scan expression 0 ('(' :: cs) = (scan expression 0 cs).map (.op .openParen :: ·) :=
  scan_cons (by decide) rfl

theorem scan_closeParen (expression : String) (cs : List Char) :
    scan expression 0 (')' :: cs) = (scan expression 0 cs).map (.op .closeParen :: ·) :=
  scan_cons (by decide) rfl

/-- An operator is read whole where no longer one may begin with it. -/
theorem scan_op_of_apart (hmore : Apart more) (expression : String) (o : Operator) :
    scan expression 0 (o.chars ++ more) = (scan expression 0 more).map (.op o :: ·) := by
  obtain ⟨first, others, ho⟩ := chars_eq_cons o
  have hread : readToken expression first others = .ok (.op o, []) := by
    cases o <;> cases ho <;> rfl
  have hspace : Text.isWhiteSpace first = false := by
    obtain ⟨-, -, -, -, -, hspace⟩ := operator_chars (o := o) (c := first) (by simp [ho])
    exact hspace
  rw [ho, List.cons_append, scan_cons hspace (readToken_append_of_apart hmore hread expression)]
  rfl

end Token

end LivePage
