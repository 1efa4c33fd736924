import LivePage.Expr.Lexeme
import LivePage.Proofs.Text.Classes
import Mathlib.Data.List.TakeDrop

/-!
# What the scanner reads

A successful scan is taken apart one token at a time: `Token.Lexeme` says what characters a token is
read from, by the kind of token.

* `lexeme_of_readToken`: a token that is read is a lexeme.
* `scan_cons_eq_ok`: the scan of a text that does not begin with white space is a lexeme and the
  scan of the text after it.
* `readQuoted_induction`, `scan_induction`: induction on a literal that is closed, and on a
  successful scan.
* `Inside`, `readQuoted_eq_some_iff`: what stands between the quotes of a literal.
* `operator_chars`: the characters of operators begin no other tokens.
-/

namespace LivePage

namespace Token

/-- How a token is read from a character, the text after it and the text that is left. -/
inductive Lexeme : Char → List Char → Token → List Char → Prop
  | str {quote : Char} {cs content rest : List Char} :
      quote = '\x27' ∨ quote = '\x22' → readQuoted quote cs = some (content, rest) →
      Lexeme quote cs (.str (String.ofList content)) rest
  | num {c : Char} {cs : List Char} (x : Binary64) :
      c.isDigit = true → Lexeme c cs (.num x) (cs.dropWhile isNumberChar)
  | ident {c : Char} {cs : List Char} :
      Text.isWordStart c = true →
      Lexeme c cs (.ident (String.ofList (c :: cs.takeWhile Text.isWordChar)))
        (cs.dropWhile Text.isWordChar)
  | op {c : Char} {cs rest : List Char} {o : Operator} :
      o.chars ++ rest = c :: cs → Lexeme c cs (.op o) rest

theorem read?_eq_some {cs rest : List Char} {o : Operator}
    (h : Operator.read? cs = some (o, rest)) : o.chars ++ rest = cs := by
  obtain ⟨p, hp, hpair⟩ := Option.map_eq_some_iff.mp h
  cases hpair
  have hprefix := List.find?_some hp
  rw [List.isPrefixOf_iff_prefix] at hprefix
  exact List.prefix_iff_eq_append.mp hprefix

section

variable {c : Char}

/-- A quote opens a literal. -/
theorem readToken_of_quote (h : c = '\x27' ∨ c = '\x22') (expression : String) (cs : List Char) :
    readToken expression c cs =
      match readQuoted c cs with
      | some (content, rest) => .ok (.str (String.ofList content), rest)
      | none => .error (.unterminatedString expression) := if_pos h

/-- A digit begins a run of digits and points. -/
theorem readToken_of_isDigit (h : c.isDigit = true) (expression : String) (cs : List Char) :
    readToken expression c cs =
      match Decimal.ofText? ((c :: cs).takeWhile isNumberChar) with
      | some decimal => .ok (.num decimal.toBinary64, (c :: cs).dropWhile isNumberChar)
      | none =>
        .error (.invalidNumber (String.ofList ((c :: cs).takeWhile isNumberChar))) := by
  have hquote : ¬(c = '\x27' ∨ c = '\x22') := by
    rintro (rfl | rfl) <;> exact absurd h (by decide)
  refine (if_neg hquote).trans ((if_pos h).trans ?_)
  exact congrArg (fun r : List Char × List Char =>
    match Decimal.ofText? r.1 with
    | some decimal => Except.ok (Token.num decimal.toBinary64, r.2)
    | none => Except.error (SyntaxFault.invalidNumber (String.ofList r.1)))
    (List.span_eq_takeWhile_dropWhile isNumberChar (c :: cs))

/-- The first character of a word begins a run of characters of words. -/
theorem readToken_of_isWordStart (h : Text.isWordStart c = true) (expression : String)
    (cs : List Char) :
    readToken expression c cs =
      .ok (.ident (String.ofList ((c :: cs).takeWhile Text.isWordChar)),
        (c :: cs).dropWhile Text.isWordChar) := by
  have hquote : ¬(c = '\x27' ∨ c = '\x22') := by
    rintro (rfl | rfl) <;> exact absurd h (by decide)
  have hdigit : ¬c.isDigit = true := by
    intro hdigit
    rw [Text.isWordStart_of_isDigit hdigit] at h
    cases h
  rw [readToken, if_neg hquote, if_neg hdigit, if_pos h, List.span_eq_takeWhile_dropWhile]

/-- Whatever begins no other token may begin an operator. -/
theorem readToken_of_others (hquote : ¬(c = '\x27' ∨ c = '\x22')) (hdigit : c.isDigit = false)
    (hstart : Text.isWordStart c = false) (expression : String) (cs : List Char) :
    readToken expression c cs =
      match Operator.read? (c :: cs) with
      | some (o, rest) => .ok (.op o, rest)
      | none => .error (.unexpectedCharacter c expression) := by
  rw [← Bool.not_eq_true] at hdigit hstart
  exact (if_neg hquote).trans ((if_neg hdigit).trans (if_neg hstart))

end

theorem lexeme_of_readToken {expression : String} {c : Char} {cs rest : List Char} {token : Token}
    (h : readToken expression c cs = .ok (token, rest)) : Lexeme c cs token rest := by
  by_cases hquote : c = '\x27' ∨ c = '\x22'
  · rw [readToken_of_quote hquote] at h
    split at h
    · rename_i hread
      cases h
      exact .str hquote hread
    · cases h
  by_cases hdigit : c.isDigit = true
  · rw [readToken_of_isDigit hdigit] at h
    split at h
    · cases h
      rw [List.dropWhile_cons_of_pos (by simp [isNumberChar, hdigit])]
      exact .num _ hdigit
    · cases h
  by_cases hstart : Text.isWordStart c = true
  · rw [readToken_of_isWordStart hstart] at h
    cases h
    have hword := Text.isWordChar_of_isWordStart hstart
    rw [List.takeWhile_cons_of_pos hword, List.dropWhile_cons_of_pos hword]
    exact .ident hstart
  rw [Bool.not_eq_true] at hdigit hstart
  rw [readToken_of_others hquote hdigit hstart] at h
  split at h
  · rename_i hread
    cases h
    exact .op (read?_eq_some hread)
  · cases h

/-! ## String literals -/

section

variable {quote : Char}

theorem readQuoted_quote (cs : List Char) : readQuoted quote (quote :: cs) = some ([], cs) := by
  rw [readQuoted.eq_def]
  exact if_pos rfl

theorem readQuoted_escape (hq : '\\' ≠ quote) (c : Char) (cs : List Char) :
    readQuoted quote ('\\' :: c :: cs) =
      (readQuoted quote cs).map fun r => (unescape c :: r.1, r.2) := by
  rw [readQuoted.eq_def]
  simp [hq]

theorem readQuoted_char {c : Char} (hq : c ≠ quote) (he : c ≠ '\\') (cs : List Char) :
    readQuoted quote (c :: cs) = (readQuoted quote cs).map fun r => (c :: r.1, r.2) := by
  rw [readQuoted.eq_def]
  simp [hq, he]

/-- Induction on a literal that is closed: its quote comes next, or a backslash and a character, or
another character. -/
@[elab_as_elim]
theorem readQuoted_induction
    {motive : ∀ cs content rest : List Char, readQuoted quote cs = some (content, rest) → Prop}
    (close : ∀ cs : List Char, motive (quote :: cs) [] cs (readQuoted_quote cs))
    (escape : ∀ (c : Char) (cs content rest : List Char) (hq : '\\' ≠ quote)
      (h : readQuoted quote cs = some (content, rest)), motive cs content rest h →
      motive ('\\' :: c :: cs) (unescape c :: content) rest
        ((readQuoted_escape hq c cs).trans (by rw [h]; rfl)))
    (char : ∀ (c : Char) (cs content rest : List Char) (hq : c ≠ quote) (he : c ≠ '\\')
      (h : readQuoted quote cs = some (content, rest)), motive cs content rest h →
      motive (c :: cs) (c :: content) rest ((readQuoted_char hq he cs).trans (by rw [h]; rfl)))
    {cs content rest : List Char} (h : readQuoted quote cs = some (content, rest)) :
    motive cs content rest h := by
  induction cs using readQuoted.induct quote generalizing content rest with
  | case1 => cases h
  | case2 cs =>
    obtain ⟨rfl, rfl⟩ := Prod.mk.inj (Option.some.inj ((readQuoted_quote cs).symm.trans h))
    exact close cs
  | case3 hq =>
    rw [readQuoted.eq_def] at h
    simp [hq] at h
  | case4 c cs hq ih =>
    obtain ⟨⟨content', rest'⟩, hread, hpair⟩ :=
      Option.map_eq_some_iff.mp ((readQuoted_escape hq c cs).symm.trans h)
    cases hpair
    exact escape c cs content' rest' hq hread (ih hread)
  | case5 c cs hq he ih =>
    obtain ⟨⟨content', rest'⟩, hread, hpair⟩ :=
      Option.map_eq_some_iff.mp ((readQuoted_char hq he cs).symm.trans h)
    cases hpair
    exact char c cs content' rest' hq he hread (ih hread)

theorem suffix_of_readQuoted {cs content rest : List Char}
    (h : readQuoted quote cs = some (content, rest)) : rest <:+ cs := by
  induction h using readQuoted_induction with
  | close cs => exact List.suffix_cons _ _
  | escape c cs content rest hq h ih =>
    exact (ih.trans (List.suffix_cons _ _)).trans (List.suffix_cons _ _)
  | char c cs content rest hq he h ih => exact ih.trans (List.suffix_cons _ _)

theorem quote_ne_backslash (hquote : quote = '\x27' ∨ quote = '\x22') : quote ≠ '\\' := by
  rcases hquote with rfl | rfl <;> decide

/-- What stands between the quotes of a literal, with the content that it writes: a backslash
protects the next character, and all others but the quote stand for themselves. -/
inductive Inside (quote : Char) : List Char → List Char → Prop
  | nil : Inside quote [] []
  | escape {cs content : List Char} (c : Char) :
      Inside quote cs content → Inside quote ('\\' :: c :: cs) (unescape c :: content)
  | char {cs content : List Char} {c : Char} :
      c ≠ quote → c ≠ '\\' → Inside quote cs content → Inside quote (c :: cs) (c :: content)

theorem readQuoted_of_inside {inside content : List Char} (hquote : quote ≠ '\\')
    (h : Inside quote inside content) (rest : List Char) :
    readQuoted quote (inside ++ quote :: rest) = some (content, rest) := by
  induction h with
  | nil => exact readQuoted_quote rest
  | escape c h ih =>
    rw [List.cons_append, List.cons_append, readQuoted_escape hquote.symm, ih]
    rfl
  | char hq he h ih =>
    rw [List.cons_append, readQuoted_char hq he, ih]
    rfl

/-- A literal is read as far as its first quote that is not protected. -/
theorem readQuoted_eq_some_iff {cs content rest : List Char} (hquote : quote ≠ '\\') :
    readQuoted quote cs = some (content, rest) ↔
      ∃ inside, Inside quote inside content ∧ cs = inside ++ quote :: rest := by
  constructor
  · intro h
    induction h using readQuoted_induction with
    | close cs => exact ⟨[], .nil, rfl⟩
    | escape c cs content rest hq h ih =>
      obtain ⟨inside, hinside, rfl⟩ := ih
      exact ⟨_, hinside.escape c, rfl⟩
    | char c cs content rest hq he h ih =>
      obtain ⟨inside, hinside, rfl⟩ := ih
      exact ⟨_, hinside.char hq he, rfl⟩
  · rintro ⟨inside, hinside, rfl⟩
    exact readQuoted_of_inside hquote hinside rest

/-- A literal without such a quote is not closed. -/
theorem readQuoted_eq_none_iff {cs : List Char} (hquote : quote ≠ '\\') :
    readQuoted quote cs = none ↔
      ∀ inside content rest, Inside quote inside content → cs ≠ inside ++ quote :: rest := by
  constructor
  · rintro h inside content rest hinside rfl
    rw [readQuoted_of_inside hquote hinside] at h
    cases h
  · intro h
    cases hread : readQuoted quote cs with
    | none => rfl
    | some r =>
      obtain ⟨inside, hinside, hcs⟩ := (readQuoted_eq_some_iff hquote).mp hread
      exact absurd hcs (h inside r.1 r.2 hinside)

end

/-! ## The text after a token -/

theorem chars_eq_cons (o : Operator) : ∃ first others, o.chars = first :: others := by
  cases o <;> exact ⟨_, _, rfl⟩

theorem Lexeme.suffix {c : Char} {cs rest : List Char} {token : Token}
    (h : Lexeme c cs token rest) : rest <:+ cs := by
  cases h with
  | str _ hread => exact suffix_of_readQuoted hread
  | num => exact List.dropWhile_suffix _
  | ident => exact List.dropWhile_suffix _
  | op hchars =>
    rename_i o
    obtain ⟨first, others, ho⟩ := chars_eq_cons o
    rw [ho, List.cons_append, List.cons.injEq] at hchars
    exact ⟨others, hchars.2⟩

theorem scan_whiteSpace (expression : String) {c : Char} (cs : List Char)
    (hc : Text.isWhiteSpace c = true) :
    scan expression 0 (c :: cs) = scan expression 0 cs := by
  rw [scan, if_pos hc]

section

variable {expression : String} {c : Char} {cs : List Char} {ts : List Token}

/-- The tokens of a text that begins with a token: this one and those of the text after it. -/
theorem scan_cons {rest : List Char} {token : Token} (hc : Text.isWhiteSpace c = false)
    (h : readToken expression c cs = .ok (token, rest)) :
    scan expression 0 (c :: cs) = (scan expression 0 rest).map (token :: ·) := by
  have hsuffix := (lexeme_of_readToken h).suffix
  rw [scan, hc, if_neg Bool.false_ne_true, h]
  dsimp only
  rw [scan_eq_scan_drop, ← List.suffix_iff_eq_drop.mp hsuffix]

/-- A text that has tokens and begins with no white space begins with a token. -/
theorem exists_readToken_of_scan (hc : Text.isWhiteSpace c = false)
    (h : scan expression 0 (c :: cs) = .ok ts) :
    ∃ token rest ts', readToken expression c cs = .ok (token, rest) ∧
      scan expression 0 rest = .ok ts' ∧ ts = token :: ts' := by
  cases hread : readToken expression c cs with
  | error fault =>
    rw [scan, hc, if_neg Bool.false_ne_true, hread] at h
    cases h
  | ok r =>
    obtain ⟨token, rest⟩ := r
    rw [scan_cons hc hread] at h
    cases hrest : scan expression 0 rest with
    | error fault =>
      rw [hrest] at h
      cases h
    | ok ts' =>
      rw [hrest] at h
      cases h
      exact ⟨token, rest, ts', rfl, hrest, rfl⟩

/-- The tokens of a text that begins with no white space: a lexeme and the tokens of the rest. -/
theorem scan_cons_eq_ok (hc : Text.isWhiteSpace c = false)
    (h : scan expression 0 (c :: cs) = .ok ts) :
    ∃ token rest ts', Lexeme c cs token rest ∧ scan expression 0 rest = .ok ts' ∧
      ts = token :: ts' := by
  obtain ⟨token, rest, ts', hread, hrest, rfl⟩ := exists_readToken_of_scan hc h
  exact ⟨token, rest, ts', lexeme_of_readToken hread, hrest, rfl⟩

/-- Induction on a successful scan: a text is empty, or begins with white space, or with a token
that is read. -/
@[elab_as_elim]
theorem scan_induction
    {motive : ∀ (cs : List Char) (ts : List Token), scan expression 0 cs = .ok ts → Prop}
    (nil : motive [] [] rfl)
    (whiteSpace : ∀ (c : Char) (cs : List Char) (ts : List Token)
      (hc : Text.isWhiteSpace c = true) (h : scan expression 0 cs = .ok ts), motive cs ts h →
      motive (c :: cs) ts ((scan_whiteSpace expression cs hc).trans h))
    (token : ∀ (c : Char) (cs : List Char) (token : Token) (rest : List Char) (ts : List Token)
      (hc : Text.isWhiteSpace c = false) (hread : readToken expression c cs = .ok (token, rest))
      (h : scan expression 0 rest = .ok ts), motive rest ts h →
      motive (c :: cs) (token :: ts) ((scan_cons hc hread).trans (by rw [h]; rfl)))
    (h : scan expression 0 cs = .ok ts) : motive cs ts h := by
  -- on the length, as the text after a token is no tail of the list
  induction hn : cs.length using Nat.strongRecOn generalizing cs ts with
  | ind n ih =>
    cases cs with
    | nil =>
      cases h
      exact nil
    | cons c cs =>
      cases hc : Text.isWhiteSpace c with
      | true =>
        have htail : scan expression 0 cs = .ok ts := by
          rwa [scan_whiteSpace expression cs hc] at h
        exact whiteSpace c cs ts hc htail (ih cs.length (by simp [← hn]) htail rfl)
      | false =>
        obtain ⟨t, rest, ts', hread, hrest, rfl⟩ := exists_readToken_of_scan hc h
        have hlt : rest.length < n := by
          have := (lexeme_of_readToken hread).suffix.length_le
          simp only [List.length_cons] at hn
          omega
        exact token c cs t rest ts' hc hread hrest (ih _ hlt hrest rfl)

end

/-! ## The characters of operators -/

/-- No operator is written with a character that begins a token of another kind. -/
theorem operator_chars {o : Operator} {c : Char} (h : c ∈ o.chars) :
    c ≠ '\x27' ∧ c ≠ '\x22' ∧ c ≠ '\x60' ∧ c.isDigit = false ∧ Text.isWordStart c = false ∧
      Text.isWhiteSpace c = false := by
  have hall : (o.chars.all fun c => c != '\x27' && c != '\x22' && c != '\x60' && !c.isDigit &&
      !Text.isWordStart c && !Text.isWhiteSpace c) = true := by
    cases o <;> rfl
  have hc := List.all_eq_true.mp hall c h
  simpa [and_assoc] using hc

/-- What begins with the first character of a word is a word. -/
theorem scan_word {expression : String} {c : Char} {cs : List Char} {ts : List Token}
    (hc : Text.isWordStart c = true) (h : scan expression 0 (c :: cs) = .ok ts) :
    ∃ name ts', ts = .ident name :: ts' := by
  have hw := Text.isWhiteSpace_of_isWordChar (Text.isWordChar_of_isWordStart hc)
  obtain ⟨token, rest, ts', hlexeme, -, rfl⟩ := scan_cons_eq_ok hw h
  cases hlexeme with
  | str hquote => rcases hquote with rfl | rfl <;> exact absurd hc (by decide)
  | num x hdigit =>
    rw [Text.isWordStart_of_isDigit hdigit] at hc
    cases hc
  | ident => exact ⟨_, ts', rfl⟩
  | op hchars =>
    rename_i o
    obtain ⟨first, others, ho⟩ := chars_eq_cons o
    have hfirst : first ∈ o.chars := by
      rw [ho]
      exact List.mem_cons_self
    obtain ⟨-, -, -, -, hstart, -⟩ := operator_chars hfirst
    rw [ho, List.cons_append, List.cons.injEq] at hchars
    rw [hchars.1, hc] at hstart
    cases hstart

end Token

end LivePage
