import LivePage.Expr.Parser
import LivePage.Proofs.Expr.Adjacency

/-!
# White space around an expression

Neither the tokens nor the term of an expression depend on the white space before and after it.

* `Token.readToken_append`: a token is read in the same way without the white space that follows the
  text.
* `Token.scan_trim`: the tokens of a text are those of the text without the white space at its ends.
* `Term.parse_trim`: and so is its term.
-/

namespace LivePage

namespace Token

variable {blanks : List Char}

/-! ## What follows a text -/

theorem readQuoted_eq_none {quote : Char} {cs : List Char} (h : quote ∉ cs) :
    readQuoted quote cs = none := by
  induction cs using readQuoted.induct quote with
  | case1 => rfl
  | case2 cs => exact absurd List.mem_cons_self h
  | case3 hq =>
    rw [readQuoted.eq_def]
    simp [hq]
  | case4 c cs hq ih =>
    rw [readQuoted_escape hq, ih fun hmem => h (by simp [hmem]), Option.map_none]
  | case5 c cs hq he ih =>
    rw [readQuoted_char hq he, ih fun hmem => h (by simp [hmem]), Option.map_none]

/-- A string literal is closed within a text if no quote follows the text. -/
theorem readQuoted_append {quote : Char} (hblanks : quote ∉ blanks)
    {cs content rest : List Char} (h : readQuoted quote (cs ++ blanks) = some (content, rest)) :
    ∃ rest', rest = rest' ++ blanks ∧ readQuoted quote cs = some (content, rest') := by
  induction cs using readQuoted.induct quote generalizing content rest with
  | case1 =>
    rw [List.nil_append, readQuoted_eq_none hblanks] at h
    cases h
  | case2 cs =>
    rw [List.cons_append, readQuoted_quote] at h
    cases h
    exact ⟨cs, rfl, readQuoted_quote cs⟩
  | case3 hq =>
    -- the backslash is the last character, so whatever it protects comes after the text
    cases blanks with
    | nil =>
      rw [List.append_nil, readQuoted.eq_def] at h
      simp [hq] at h
    | cons b bs =>
      rw [List.cons_append, List.nil_append, readQuoted_escape hq,
        readQuoted_eq_none fun hmem => hblanks (List.mem_cons_of_mem b hmem)] at h
      cases h
  | case4 c cs hq ih =>
    rw [List.cons_append, List.cons_append, readQuoted_escape hq] at h
    obtain ⟨⟨content', rest'⟩, hread, hpair⟩ := Option.map_eq_some_iff.mp h
    cases hpair
    obtain ⟨rest'', hrest, hread'⟩ := ih hread
    exact ⟨rest'', hrest, by rw [readQuoted_escape hq, hread']; rfl⟩
  | case5 c cs hq he ih =>
    rw [List.cons_append, readQuoted_char hq he] at h
    obtain ⟨⟨content', rest'⟩, hread, hpair⟩ := Option.map_eq_some_iff.mp h
    cases hpair
    obtain ⟨rest'', hrest, hread'⟩ := ih hread
    exact ⟨rest'', hrest, by rw [readQuoted_char hq he, hread']; rfl⟩

/-! ## Tokens -/

/-- A token that is read from a text with white space after it is read from the text alone. -/
theorem readToken_append (hblanks : ∀ b ∈ blanks, Text.isWhiteSpace b = true)
    {expression : String} {c : Char} {cs rest : List Char} {token : Token}
    (h : readToken expression c (cs ++ blanks) = .ok (token, rest)) (expression' : String) :
    ∃ rest', rest = rest' ++ blanks ∧ readToken expression' c cs = .ok (token, rest') := by
  have hapart := apart_of_isWhiteSpace hblanks
  by_cases hquote : c = '\x27' ∨ c = '\x22'
  · have hnot : c ∉ blanks := by
      intro hmem
      have hspace := hblanks c hmem
      rcases hquote with rfl | rfl <;> exact absurd hspace (by decide)
    rw [readToken_of_quote hquote] at h ⊢
    split at h
    · rename_i hread
      cases h
      obtain ⟨rest', hrest, hread'⟩ := readQuoted_append hnot hread
      exact ⟨rest', hrest, by rw [hread']⟩
    · cases h
  by_cases hdigit : c.isDigit = true
  · have hneg : ∀ b ∈ blanks.head?, isNumberChar b = false := fun b hb => (hapart b hb).number
    rw [readToken_of_isDigit hdigit, ← List.cons_append, takeWhile_append_of_neg hneg,
      dropWhile_append_of_neg hneg] at h
    rw [readToken_of_isDigit hdigit]
    split at h
    · cases h
      exact ⟨_, rfl, rfl⟩
    · cases h
  by_cases hstart : Text.isWordStart c = true
  · have hneg : ∀ b ∈ blanks.head?, Text.isWordChar b = false := fun b hb => (hapart b hb).word
    rw [readToken_of_isWordStart hstart, ← List.cons_append, takeWhile_append_of_neg hneg,
      dropWhile_append_of_neg hneg] at h
    rw [readToken_of_isWordStart hstart]
    cases h
    exact ⟨_, rfl, rfl⟩
  rw [Bool.not_eq_true] at hdigit hstart
  rw [readToken_of_others hquote hdigit hstart, ← List.cons_append,
    read?_append fun b hb => (hapart b hb).operator] at h
  rw [readToken_of_others hquote hdigit hstart]
  cases hread : Operator.read? (c :: cs) with
  | none =>
    rw [hread] at h
    cases h
  | some r =>
    rw [hread] at h
    cases h
    exact ⟨_, rfl, rfl⟩

theorem scan_blanks (hblanks : ∀ b ∈ blanks, Text.isWhiteSpace b = true) (expression : String) :
    scan expression 0 blanks = .ok [] := by
  induction blanks with
  | nil => rfl
  | cons b bs ih =>
    obtain ⟨hb, hbs⟩ := List.forall_mem_cons.mp hblanks
    rw [scan_whiteSpace expression bs hb, ih hbs]

theorem scan_append (hblanks : ∀ b ∈ blanks, Text.isWhiteSpace b = true)
    {expression : String} {cs : List Char} {ts : List Token}
    (h : scan expression 0 (cs ++ blanks) = .ok ts) (expression' : String) :
    scan expression' 0 cs = .ok ts := by
  generalize hds : cs ++ blanks = ds at h
  induction h using scan_induction generalizing cs with
  | nil =>
    obtain ⟨rfl, -⟩ := List.append_eq_nil_iff.mp hds
    rfl
  | whiteSpace c ds ts hc h ih =>
    cases cs with
    | nil =>
      obtain rfl : blanks = c :: ds := hds
      rw [scan_blanks (List.forall_mem_cons.mp hblanks).2] at h
      cases h
      rfl
    | cons d cs =>
      obtain ⟨rfl, htail⟩ := List.cons.inj hds
      rw [scan_whiteSpace expression' cs hc, ih htail]
  | token c ds token rest ts hc hread h ih =>
    cases cs with
    | nil =>
      obtain rfl : blanks = c :: ds := hds
      rw [hblanks c List.mem_cons_self] at hc
      cases hc
    | cons d cs =>
      obtain ⟨rfl, rfl⟩ := List.cons.inj hds
      obtain ⟨rest', rfl, hread'⟩ := readToken_append hblanks hread expression'
      rw [scan_cons hc hread', ih rfl]
      rfl

theorem scan_trimStart (expression : String) (cs : List Char) :
    scan expression 0 (Text.trimStart cs) = scan expression 0 cs := by
  induction cs with
  | nil => rfl
  | cons c cs ih =>
    cases hc : Text.isWhiteSpace c with
    | true =>
      rw [scan_whiteSpace expression cs hc, ← ih, Text.trimStart, List.dropWhile_cons_of_pos hc,
        Text.trimStart]
    | false => rw [Text.trimStart, List.dropWhile_cons_of_neg (by simp [hc])]

/-- White space at its two ends adds nothing to the tokens of a text. -/
theorem scan_trim {expression : String} {cs : List Char} {ts : List Token}
    (h : scan expression 0 cs = .ok ts) (expression' : String) :
    scan expression' 0 (Text.trim cs) = .ok ts := by
  obtain ⟨blanks, hblanks, hsplit⟩ := Text.exists_trimEnd_append (Text.trimStart cs)
  rw [← scan_trimStart, hsplit] at h
  exact scan_append hblanks h expression'

end Token

namespace Term

/-- The text of an expression is told in faults only. -/
theorem ofTokens_congr {expression : String} {ts : List Token} {t : Term}
    (h : ofTokens expression ts = .ok t) (expression' : String) :
    ofTokens expression' ts = .ok t := by
  unfold ofTokens at h ⊢
  split at h
  · cases h
  · exact h
  · cases h

/-- White space at its two ends changes nothing about the term of an expression. -/
theorem parse_trim {expression : String} {t : Term} (h : parse expression = .ok t) :
    parse (String.ofList (Text.trim expression.toList)) = .ok t := by
  unfold parse at h ⊢
  cases hts : Token.ofText expression with
  | error fault =>
    rw [hts] at h
    cases h
  | ok ts =>
    rw [hts] at h
    have hscan := Token.scan_trim hts (String.ofList (Text.trim expression.toList))
    rw [Token.ofText, String.toList_ofList, hscan]
    exact ofTokens_congr h _

end Term

end LivePage
