import LivePage.Proofs.Number.Numerals
import LivePage.Proofs.Template.Expressions

/-!
# Spellings of tokens

A spelling is a lexeme with its characters and its token. At each place the scanner reads the
spelling that begins there and goes as far as one can; where none does, it is stuck.

* `Operator.read?_eq_some_iff`: the longest operator is read.
* `Spelling`, `Spelling.EndsBefore`: words, literals, numerals and operators, and the texts before
  which they end.
* `Spelling.readToken_of_endsBefore`, `Stuck.readToken_eq`: what is read at a place, or why nothing
  is; it is always one of the two (`begins_or_stuck`).
-/

namespace LivePage

/-! ## Operators -/

namespace Operator

/-- An operator is no beginning of those that stand after it. -/
theorem pairwise_all : all.Pairwise fun o p => ¬o.chars <+: p.chars := by decide

/-- The operator that is read is the longest one that a text begins with. -/
theorem length_le_of_find? {cs : List Char} {o p : Operator}
    (ho : all.find? (fun o => o.chars.isPrefixOf cs) = some o) (hp : p.chars <+: cs) :
    p.chars.length ≤ o.chars.length := by
  obtain ⟨hbegins, before, after, hall, hbefore⟩ := List.find?_eq_some_iff_append.mp ho
  rw [List.isPrefixOf_iff_prefix] at hbegins
  by_contra hlonger
  have hpo : o.chars <+: p.chars :=
    List.prefix_of_prefix_length_le hbegins hp (Nat.le_of_lt (Nat.lt_of_not_le hlonger))
  have hne : p ≠ o := by
    rintro rfl
    exact hlonger (Nat.le_refl _)
  have hmem := mem_all p
  have hpairwise := pairwise_all
  rw [hall] at hmem hpairwise
  rcases List.mem_append.mp hmem with hmem | hmem
  · have hnot := hbefore p hmem
    rw [Bool.not_eq_true', Bool.eq_false_iff, Ne, List.isPrefixOf_iff_prefix] at hnot
    exact hnot hp
  · have hmem := (List.mem_cons.mp hmem).resolve_left hne
    exact (List.pairwise_cons.mp (List.pairwise_append.mp hpairwise).2.1).1 p hmem hpo

theorem chars_injective {o p : Operator} (h : o.chars = p.chars) : o = p := by
  have hall : ∀ o ∈ all, ∀ p ∈ all, o.chars = p.chars → o = p := by decide
  exact hall o (mem_all o) p (mem_all p) h

theorem read?_eq_some_iff {cs rest : List Char} {o : Operator} :
    read? cs = some (o, rest) ↔
      cs = o.chars ++ rest ∧ ∀ p : Operator, p.chars <+: cs → p.chars.length ≤ o.chars.length := by
  constructor
  · intro h
    obtain ⟨q, hq, hpair⟩ := Option.map_eq_some_iff.mp h
    obtain ⟨rfl, -⟩ := Prod.mk.inj hpair
    exact ⟨(Token.read?_eq_some h).symm, fun p => length_le_of_find? hq⟩
  · rintro ⟨rfl, hlongest⟩
    have hprefix : o.chars <+: o.chars ++ rest := List.prefix_append _ _
    unfold read?
    cases hfind : all.find? fun p => p.chars.isPrefixOf (o.chars ++ rest) with
    | none =>
      have hnone := List.find?_eq_none.mp hfind o (mem_all o)
      rw [List.isPrefixOf_iff_prefix] at hnone
      exact absurd hprefix hnone
    | some p =>
      have hp := List.find?_some hfind
      rw [List.isPrefixOf_iff_prefix] at hp
      have hlength := Nat.le_antisymm (hlongest p hp) (length_le_of_find? hfind hprefix)
      have hprefixes := List.prefix_of_prefix_length_le hp hprefix (Nat.le_of_eq hlength)
      have hchars := hprefixes.eq_of_length hlength
      rw [chars_injective hchars, Option.map_some, List.drop_left]

theorem read?_eq_none_iff {cs : List Char} :
    read? cs = none ↔ ∀ o : Operator, ¬o.chars <+: cs := by
  simp [read?, List.find?_eq_none, mem_all, List.isPrefixOf_iff_prefix]

end Operator

namespace Token

/-! ## Spellings -/

/-- A lexeme: a word; a literal; digits, with a point or without, after which more may come; or an
operator. -/
inductive Spelling
  | word (first : Char) (others : List Char) (hfirst : Text.isWordStart first = true)
      (hothers : ∀ c ∈ others, Text.isWordChar c = true)
  | literal (quote : Char) (inside content : List Char) (hquote : quote = '\x27' ∨ quote = '\x22')
      (hinside : Inside quote inside content)
  | numeral (first : Char) (others : List Char) (fraction : Option (List Char))
      (hfirst : first.isDigit = true) (hothers : ∀ c ∈ others, c.isDigit = true)
      (hfraction : ∀ ds ∈ fraction, ∀ c ∈ ds, c.isDigit = true)
  | operator (o : Operator)

namespace Spelling

/-- The point of a numeral and the digits after it, if it has a point. -/
def fractionChars : Option (List Char) → List Char
  | none => []
  | some ds => '.' :: ds

/-- The characters of a spelling. -/
def chars : Spelling → List Char
  | word first others _ _ => first :: others
  | literal quote inside _ _ _ => quote :: (inside ++ [quote])
  | numeral first others fraction _ _ _ => first :: (others ++ fractionChars fraction)
  | operator o => o.chars

/-- The token that is spelled: a literal has the content that it writes, and a numeral the double
nearest to its value. -/
def token : Spelling → Token
  | word first others _ _ => .ident (String.ofList (first :: others))
  | literal _ _ content _ _ => .str (String.ofList content)
  | numeral first others fraction _ _ _ =>
    .num (Decimal.ofParts false (first :: others) (fraction.getD []) 0).toBinary64
  | operator o => .op o

/-- A spelling ends before a text: no word and no numeral goes on with it, and no operator that is
longer is spelled together with it. -/
def EndsBefore (rest : List Char) : Spelling → Prop
  | word .. => ∀ c ∈ rest.head?, Text.isWordChar c = false
  | literal .. => True
  | numeral .. => ∀ c ∈ rest.head?, isNumberChar c = false
  | operator o => ∀ p : Operator, p.chars <+: o.chars ++ rest → p.chars.length ≤ o.chars.length

/-- The literal of a string in some quotes, with that quote and backslashes escaped. -/
def ofString (quote : Char) (hquote : quote = '\x27' ∨ quote = '\x22') (s : String) : Spelling :=
  literal quote (s.toList.flatMap (escape quote)) s.toList hquote
    (inside_flatMap_escape hquote s.toList)

theorem token_ofString {quote : Char} (hquote : quote = '\x27' ∨ quote = '\x22') (s : String) :
    (ofString quote hquote s).token = .str s :=
  congrArg Token.str String.ofList_toList

theorem chars_ofString {quote : Char} (hquote : quote = '\x27' ∨ quote = '\x22') (s : String) :
    (ofString quote hquote s).chars = (quoted quote s).toList :=
  String.toList_ofList.symm

/-- A spelling has a first character, which is no white space. -/
theorem exists_chars_eq_cons (s : Spelling) :
    ∃ c cs, s.chars = c :: cs ∧ Text.isWhiteSpace c = false := by
  cases s with
  | word first others hfirst hothers =>
    have hword := Text.isWordChar_of_isWordStart hfirst
    exact ⟨first, others, rfl, Text.isWhiteSpace_of_isWordChar hword⟩
  | literal quote inside content hquote hinside =>
    exact ⟨quote, inside ++ [quote], rfl, isWhiteSpace_quote hquote⟩
  | numeral first others fraction hfirst hothers hfraction =>
    have hword := Text.isWordChar_of_isDigit hfirst
    exact ⟨first, others ++ fractionChars fraction, rfl, Text.isWhiteSpace_of_isWordChar hword⟩
  | operator o =>
    obtain ⟨first, others, ho⟩ := chars_eq_cons o
    have hmem : first ∈ o.chars := by rw [ho]; exact List.mem_cons_self
    obtain ⟨-, -, -, -, -, hspace⟩ := operator_chars hmem
    exact ⟨first, others, ho, hspace⟩

/-- Every spelling ends before a text that goes on no token. -/
theorem endsBefore_of_apart {rest : List Char} (h : Apart rest) (s : Spelling) :
    s.EndsBefore rest := by
  cases s with
  | word => exact fun c hc => (h c hc).word
  | literal => exact trivial
  | numeral => exact fun c hc => (h c hc).number
  | operator o =>
    intro p hp
    by_contra hlonger
    obtain ⟨more, hmore⟩ := List.prefix_of_prefix_length_le (List.prefix_append o.chars rest) hp
      (Nat.le_of_lt (Nat.lt_of_not_le hlonger))
    obtain ⟨first, others, ho⟩ := chars_eq_cons o
    cases more with
    | nil => simp [← hmore] at hlonger
    | cons d more =>
      rw [← hmore, List.prefix_append_right_inj] at hp
      obtain ⟨rest', rfl⟩ := hp
      refine (h d rfl).operator p ?_
      simp [← hmore, ho]

/-! ## Reading a spelling -/

theorem isNumberChar_of_isDigit {c : Char} (h : c.isDigit = true) : isNumberChar c = true := by
  simp [isNumberChar, h]

section

variable {first : Char} {others : List Char} {fraction : Option (List Char)}

/-- The decimal of a numeral. -/
theorem ofText?_numeral (hfirst : first.isDigit = true) (hothers : ∀ c ∈ others, c.isDigit = true)
    (hfraction : ∀ ds ∈ fraction, ∀ c ∈ ds, c.isDigit = true) :
    Decimal.ofText? (first :: (others ++ fractionChars fraction)) =
      some (Decimal.ofParts false (first :: others) (fraction.getD []) 0) := by
  cases fraction with
  | none =>
    rw [fractionChars, List.append_nil]
    exact Decimal.ofText?_digits hfirst hothers
  | some ds => exact Decimal.ofText?_point hfirst hothers (hfraction ds rfl)

theorem isNumberChar_of_mem_numeral (hfirst : first.isDigit = true)
    (hothers : ∀ c ∈ others, c.isDigit = true)
    (hfraction : ∀ ds ∈ fraction, ∀ c ∈ ds, c.isDigit = true) {c : Char}
    (hc : c ∈ first :: (others ++ fractionChars fraction)) : isNumberChar c = true := by
  rcases List.mem_cons.mp hc with rfl | hc
  · exact isNumberChar_of_isDigit hfirst
  rcases List.mem_append.mp hc with hc | hc
  · exact isNumberChar_of_isDigit (hothers c hc)
  cases fraction with
  | none => cases hc
  | some ds =>
    rcases List.mem_cons.mp hc with rfl | hc
    · rfl
    · exact isNumberChar_of_isDigit (hfraction ds rfl c hc)

end

/-- A spelling is read before a text where it ends. -/
theorem readToken_of_endsBefore {s : Spelling} {c : Char} {cs rest : List Char}
    (hs : s.chars = c :: cs) (h : s.EndsBefore rest) (expression : String) :
    readToken expression c (cs ++ rest) = .ok (s.token, rest) := by
  cases s with
  | word first others hfirst hothers =>
    obtain ⟨rfl, rfl⟩ := List.cons.inj hs
    have hall : ∀ d ∈ first :: others, Text.isWordChar d = true :=
      List.forall_mem_cons.mpr ⟨Text.isWordChar_of_isWordStart hfirst, hothers⟩
    rw [readToken_of_isWordStart hfirst, ← List.cons_append, takeWhile_append_of_neg h,
      dropWhile_append_of_neg h, List.takeWhile_eq_self_iff.mpr hall,
      List.dropWhile_eq_nil_iff.mpr hall]
    rfl
  | literal quote inside content hquote hinside =>
    obtain ⟨rfl, rfl⟩ := List.cons.inj hs
    rw [readToken_of_quote hquote, List.append_assoc, List.singleton_append,
      readQuoted_of_inside (quote_ne_backslash hquote) hinside]
    rfl
  | numeral first others fraction hfirst hothers hfraction =>
    obtain ⟨rfl, rfl⟩ := List.cons.inj hs
    have hall : ∀ c ∈ first :: (others ++ fractionChars fraction), isNumberChar c = true :=
      fun c => isNumberChar_of_mem_numeral hfirst hothers hfraction
    rw [readToken_of_isDigit hfirst, ← List.cons_append, takeWhile_append_of_neg h,
      dropWhile_append_of_neg h, List.takeWhile_eq_self_iff.mpr hall,
      List.dropWhile_eq_nil_iff.mpr hall, ofText?_numeral hfirst hothers hfraction]
    rfl
  | operator o =>
    have hmem : c ∈ o.chars := by rw [show o.chars = c :: cs from hs]; exact List.mem_cons_self
    obtain ⟨hsingle, hdouble, -, hdigit, hstart, -⟩ := operator_chars hmem
    have hread : Operator.read? (c :: (cs ++ rest)) = some (o, rest) := by
      rw [← List.cons_append, ← show o.chars = c :: cs from hs]
      exact Operator.read?_eq_some_iff.mpr ⟨rfl, h⟩
    rw [readToken_of_others (not_or.mpr ⟨hsingle, hdouble⟩) hdigit hstart, hread]
    rfl

end Spelling

/-! ## Runs of digits and points -/

/-- The digits at the head of digits and points, and what stands after them. -/
theorem exists_digits_append {cs : List Char} (h : ∀ c ∈ cs, isNumberChar c = true) :
    ∃ digits rest, cs = digits ++ rest ∧ (∀ c ∈ digits, c.isDigit = true) ∧
      (∀ c ∈ rest, isNumberChar c = true) ∧ ∀ c ∈ rest.head?, c = '.' := by
  have hsplit : cs.takeWhile Char.isDigit ++ cs.dropWhile Char.isDigit = cs :=
    List.takeWhile_append_dropWhile
  refine ⟨_, _, hsplit.symm, fun c => List.mem_takeWhile_imp, ?_, ?_⟩
  · exact fun c hc => h c (List.dropWhile_subset _ hc)
  · intro c hc
    have hnumber := h c (List.dropWhile_subset _ (List.mem_of_mem_head? hc))
    have hnot : c.isDigit = false := by
      have hhead := List.head?_dropWhile_not Char.isDigit cs
      rw [Option.mem_def.mp hc] at hhead
      simpa using hhead
    simpa [isNumberChar, hnot] using hnumber

/-- Digits and points after a digit have at most one point and are a numeral, or have more and are
none. -/
theorem numeral_cases {first : Char} {cs : List Char} (hfirst : first.isDigit = true)
    (hcs : ∀ c ∈ cs, isNumberChar c = true) :
    (∃ others fraction, (∀ c ∈ others, c.isDigit = true) ∧
      (∀ ds ∈ fraction, ∀ c ∈ ds, c.isDigit = true) ∧
      cs = others ++ Spelling.fractionChars fraction ∧ cs.count '.' ≤ 1) ∨
    1 < cs.count '.' ∧ Decimal.ofText? (first :: cs) = none := by
  have hpoint {digits : List Char} (h : ∀ c ∈ digits, c.isDigit = true) :
      digits.count '.' = 0 := by
    refine List.count_eq_zero.mpr fun hmem => ?_
    exact absurd (h '.' hmem) (by decide)
  obtain ⟨others, rest, rfl, hothers, hrest, hdot⟩ := exists_digits_append hcs
  cases rest with
  | nil => exact .inl ⟨others, none, hothers, nofun, rfl, by simp [hpoint hothers]⟩
  | cons d rest =>
    obtain rfl := hdot d rfl
    obtain ⟨fraction, more, rfl, hfraction, -, hdot'⟩ :=
      exists_digits_append (List.forall_mem_cons.mp hrest).2
    cases more with
    | nil =>
      refine .inl ⟨others, some fraction, hothers, ?_, by simp [Spelling.fractionChars], ?_⟩
      · simpa using hfraction
      · simp [hpoint hothers, hpoint hfraction]
    | cons d more =>
      obtain rfl := hdot' d rfl
      refine .inr ⟨by simp [hpoint hothers, hpoint hfraction], ?_⟩
      exact Decimal.ofText?_points hfirst hothers hfraction more

/-! ## What is read at a place -/

/-- A spelling begins a text and ends before what follows it there. -/
def Spelling.Begins (s : Spelling) (cs rest : List Char) : Prop :=
  cs = s.chars ++ rest ∧ s.EndsBefore rest

/-- Why no token is read at a place outside of white space: a literal is opened there and not
closed, or digits and points begin there with more than one point among them, or no lexeme begins
there. -/
inductive Stuck (expression : String) : List Char → SyntaxFault → Prop
  | unterminated {quote : Char} {cs : List Char} :
      quote = '\x27' ∨ quote = '\x22' →
      (∀ inside content rest, Inside quote inside content → cs ≠ inside ++ quote :: rest) →
      Stuck expression (quote :: cs) (.unterminatedString expression)
  | points {first : Char} {cs : List Char} :
      first.isDigit = true → 1 < (cs.takeWhile isNumberChar).count '.' →
      Stuck expression (first :: cs)
        (.invalidNumber (String.ofList (first :: cs.takeWhile isNumberChar)))
  | noLexeme {c : Char} {cs : List Char} :
      Text.isWhiteSpace c = false → ¬(c = '\x27' ∨ c = '\x22') →
      (∀ s : Spelling, ¬s.chars <+: c :: cs) →
      Stuck expression (c :: cs) (.unexpectedCharacter c expression)

theorem head_dropWhile (p : Char → Bool) (cs : List Char) :
    ∀ c ∈ (cs.dropWhile p).head?, p c = false := by
  intro c hc
  have hhead := List.head?_dropWhile_not p cs
  rw [Option.mem_def.mp hc] at hhead
  simpa using hhead

section

variable {c : Char} {cs : List Char}

/-- At a digit a numeral begins, or there are too many points. -/
theorem number_cases (hdigit : c.isDigit = true) (expression : String) :
    (cs.takeWhile isNumberChar).count '.' ≤ 1 ∧
      (∃ (s : Spelling) (rest : List Char), s.Begins (c :: cs) rest) ∨
    1 < (cs.takeWhile isNumberChar).count '.' ∧
      readToken expression c cs =
        .error (.invalidNumber (String.ofList (c :: cs.takeWhile isNumberChar))) := by
  have hnumber := Spelling.isNumberChar_of_isDigit hdigit
  rcases numeral_cases hdigit fun d (hd : d ∈ cs.takeWhile isNumberChar) =>
    List.mem_takeWhile_imp hd with ⟨others, fraction, hothers, hfraction, hrun, hcount⟩ | hpoints
  · refine .inl ⟨hcount, .numeral c others fraction hdigit hothers hfraction,
      cs.dropWhile isNumberChar, ?_, head_dropWhile isNumberChar cs⟩
    rw [Spelling.chars, ← hrun, List.cons_append, List.takeWhile_append_dropWhile]
  · refine .inr ⟨hpoints.1, ?_⟩
    rw [readToken_of_isDigit hdigit, List.takeWhile_cons_of_pos hnumber, hpoints.2]

/-- What begins no other token begins an operator if and only if a lexeme begins there at all. -/
theorem noLexeme_iff (hquote : ¬(c = '\x27' ∨ c = '\x22')) :
    (∀ s : Spelling, ¬s.chars <+: c :: cs) ↔
      c.isDigit = false ∧ Text.isWordStart c = false ∧ Operator.read? (c :: cs) = none := by
  constructor
  · intro h
    refine ⟨?_, ?_, Operator.read?_eq_none_iff.mpr fun o => h (.operator o)⟩
    · rw [Bool.eq_false_iff]
      exact fun hdigit => h (.numeral c [] none hdigit nofun nofun) ⟨cs, rfl⟩
    · rw [Bool.eq_false_iff]
      exact fun hstart => h (.word c [] hstart nofun) ⟨cs, rfl⟩
  · rintro ⟨hdigit, hstart, hnone⟩ s ⟨rest, hs⟩
    cases s with
    | word first others hfirst hothers =>
      rw [(List.cons.inj hs).1, hstart] at hfirst
      cases hfirst
    | literal quote inside content hquote' hinside =>
      rw [(List.cons.inj hs).1] at hquote'
      exact hquote hquote'
    | numeral first others fraction hfirst hothers hfraction =>
      rw [(List.cons.inj hs).1, hdigit] at hfirst
      cases hfirst
    | operator o => exact Operator.read?_eq_none_iff.mp hnone o ⟨rest, hs⟩

/-- At every place outside of white space a spelling begins, or the scanner is stuck. -/
theorem begins_or_stuck (hc : Text.isWhiteSpace c = false) (cs : List Char) (expression : String) :
    (∃ (s : Spelling) (rest : List Char), s.Begins (c :: cs) rest) ∨
    ∃ fault, Stuck expression (c :: cs) fault := by
  by_cases hquote : c = '\x27' ∨ c = '\x22'
  · have hescape := quote_ne_backslash hquote
    cases hread : readQuoted c cs with
    | none => exact .inr ⟨_, .unterminated hquote ((readQuoted_eq_none_iff hescape).mp hread)⟩
    | some r =>
      obtain ⟨inside, hinside, rfl⟩ := (readQuoted_eq_some_iff hescape).mp hread
      exact .inl ⟨.literal c inside r.1 hquote hinside, r.2, by simp [Spelling.chars], trivial⟩
  by_cases hdigit : c.isDigit = true
  · rcases number_cases hdigit expression with h | h
    · exact .inl h.2
    · exact .inr ⟨_, .points hdigit h.1⟩
  by_cases hstart : Text.isWordStart c = true
  · refine .inl ⟨.word c (cs.takeWhile Text.isWordChar) hstart fun d => List.mem_takeWhile_imp,
      cs.dropWhile Text.isWordChar, ?_, head_dropWhile Text.isWordChar cs⟩
    rw [Spelling.chars, List.cons_append, List.takeWhile_append_dropWhile]
  rw [Bool.not_eq_true] at hdigit hstart
  cases hread : Operator.read? (c :: cs) with
  | none =>
    exact .inr ⟨_, .noLexeme hc hquote ((noLexeme_iff hquote).mpr ⟨hdigit, hstart, hread⟩)⟩
  | some r =>
    obtain ⟨hcs, hlongest⟩ := Operator.read?_eq_some_iff.mp hread
    rw [hcs] at hlongest
    exact .inl ⟨.operator r.1, r.2, hcs, hlongest⟩

/-- Where the scanner is stuck, no token is read. -/
theorem Stuck.readToken_eq {expression : String} {fault : SyntaxFault}
    (h : Stuck expression (c :: cs) fault) : readToken expression c cs = .error fault := by
  cases h with
  | unterminated hquote hnone =>
    rw [readToken_of_quote hquote,
      (readQuoted_eq_none_iff (quote_ne_backslash hquote)).mpr hnone]
  | points hdigit hpoints =>
    rcases number_cases hdigit expression with h | h
    · exact absurd hpoints (Nat.not_lt.mpr h.1)
    · exact h.2
  | noLexeme _ hquote hnone =>
    obtain ⟨hdigit, hstart, hread⟩ := (noLexeme_iff hquote).mp hnone
    rw [readToken_of_others hquote hdigit hstart, hread]

end

end Token

end LivePage
