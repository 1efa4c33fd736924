import LivePage.Proofs.Expr.Spelling

/-!
# Where names stand in a text

The names that are found in a text without parsing it stand there outside of literals, end where a
word ends, and follow no point, also where the text has no tokens. They are whole words, but for one
case: the reader takes a number as far as letters, digits and points go, and where a word has begun
among these, it finds what is left of it.

* `Outside`: texts that end outside of literals.
* `Whole`, `BehindNumber`: where a word begins, and where a number may have taken its beginning.
* `Occurs`, `CutOff`: names as whole words of a text, and as what is left of one.
* `occurs_or_cutOff_of_mem`: the names that are found are one or the other.
-/

namespace LivePage

namespace Names

/-- Texts that end outside of literals: all literals that they open are closed. -/
inductive Outside : List Char → Prop
  | nil : Outside []
  | char {c : Char} {cs : List Char} : isQuote c = false → Outside cs → Outside (c :: cs)
  | literal {quote : Char} {inside content cs : List Char} :
      isQuote quote = true → Token.Inside quote inside content → Outside cs →
      Outside (quote :: (inside ++ quote :: cs))

/-- No word that begins before a place goes on with the word there. -/
def Whole (before word : List Char) : Prop :=
  ∀ part, part <:+ before → part ≠ [] → ¬Text.IsWord (part ++ word)

/-- A number has begun before a place, and since then there was nothing but points and characters
of words. -/
def BehindNumber (before : List Char) : Prop :=
  ∃ text digit others, before = text ++ digit :: others ∧ digit.isDigit = true ∧
    (∀ c ∈ others, c = '.' ∨ Text.isWordChar c = true) ∧ Whole text [digit]

/-- A point that belongs to no number stands before a place, with nothing but white space
between. -/
def AfterPoint (before : List Char) : Prop :=
  ∃ text blanks, before = text ++ '.' :: blanks ∧
    (∀ b ∈ blanks, Text.isWhiteSpace b = true) ∧ ¬BehindNumber text

/-- A word that ends in a text where it stands, outside of literals and not after a point. -/
structure Stands (before word after : List Char) : Prop where
  isWord : Text.IsWord word
  ends : ∀ c ∈ after.head?, Text.isWordChar c = false
  outside : Outside before
  free : ¬AfterPoint before

/-- A name is an identifier in a text: it is a whole word there. -/
def Occurs (word cs : List Char) : Prop :=
  ∃ before after, cs = before ++ (word ++ after) ∧ Stands before word after ∧ Whole before word

/-- A name is what is left of a word of which the beginning was taken for a part of a number. -/
def CutOff (word cs : List Char) : Prop :=
  ∃ before after, cs = before ++ (word ++ after) ∧ Stands before word after ∧
    ¬Whole before word ∧ BehindNumber before

/-! ## Literals -/

section

variable {cs ds : List Char}

theorem Outside.append (h : Outside cs) (h' : Outside ds) : Outside (cs ++ ds) := by
  induction h with
  | nil => exact h'
  | char hc _ ih => exact .char hc ih
  | literal hquote hinside _ ih =>
    rw [List.cons_append, List.append_assoc, List.cons_append]
    exact .literal hquote hinside ih

theorem outside_of_forall (h : ∀ c ∈ cs, isQuote c = false) : Outside cs := by
  induction cs with
  | nil => exact .nil
  | cons c cs ih =>
    obtain ⟨hc, hcs⟩ := List.forall_mem_cons.mp h
    exact .char hc (ih hcs)

end

/-! ## Words and numbers -/

section

variable {c d : Char} {before word cs : List Char}

/-- A character that no word goes on with is no part of a longer word. -/
theorem whole_singleton (hc : Text.isWordChar c = false) : Whole before [c] := by
  intro part _ _ hword
  have hchar := hword.isWordChar c (by simp)
  rw [hc] at hchar
  cases hchar

theorem Whole.of_append (hne : cs ≠ []) (h : Whole before cs) (ds : List Char) :
    Whole before (cs ++ ds) := by
  intro part hpart hne' hword
  rw [← List.append_assoc] at hword
  exact h part hpart hne' (hword.of_append (by simp [hne]))

/-- No word reaches over a character that begins none and is not a part of one. -/
theorem Whole.append_singleton (hc : Text.isWordStart c = false) (h : Whole before [c])
    (word : List Char) : Whole (before ++ [c]) word := by
  intro part hpart hne hword
  rcases List.suffix_concat_iff.mp hpart with rfl | ⟨part, rfl, hbefore⟩
  · exact hne rfl
  · cases part with
    | nil =>
      rw [hword.1] at hc
      cases hc
    | cons d part =>
      rw [List.append_assoc] at hword
      exact h.of_append (by simp) word _ hbefore (by simp) hword

theorem BehindNumber.append (h : BehindNumber before)
    (hcs : ∀ c ∈ cs, c = '.' ∨ Text.isWordChar c = true) : BehindNumber (before ++ cs) := by
  obtain ⟨text, digit, others, rfl, hdigit, hothers, hwhole⟩ := h
  exact ⟨text, digit, others ++ cs, by simp, hdigit,
    List.forall_mem_append.mpr ⟨hothers, hcs⟩, hwhole⟩

theorem AfterPoint.of_append_singleton (h : AfterPoint (before ++ [c])) :
    c = '.' ∧ ¬BehindNumber before ∨ Text.isWhiteSpace c = true ∧ AfterPoint before := by
  obtain ⟨text, blanks, hsplit, hblanks, hnumber⟩ := h
  rcases List.eq_nil_or_concat blanks with rfl | ⟨blanks, b, rfl⟩
  · obtain ⟨rfl, hlast⟩ := List.append_inj' hsplit rfl
    exact .inl ⟨(List.cons.inj hlast).1, hnumber⟩
  · rw [List.concat_eq_append, ← List.cons_append, ← List.append_assoc] at hsplit
    obtain ⟨rfl, hlast⟩ := List.append_inj' hsplit rfl
    rw [List.concat_eq_append, List.forall_mem_append] at hblanks
    obtain rfl := (List.cons.inj hlast).1
    exact .inr ⟨hblanks.2 _ List.mem_cons_self, text, blanks, rfl, hblanks.1, hnumber⟩

theorem not_afterPoint_append (hne : cs ≠ [])
    (hlast : ∀ c ∈ cs.getLast?, c ≠ '.' ∧ Text.isWhiteSpace c = false) :
    ¬AfterPoint (before ++ cs) := by
  rcases List.eq_nil_or_concat cs with rfl | ⟨cs, c, rfl⟩
  · exact absurd rfl hne
  rw [List.concat_eq_append, ← List.append_assoc]
  obtain ⟨hpoint, hspace⟩ := hlast c (by simp)
  intro hafter
  rcases hafter.of_append_singleton with ⟨hc, -⟩ | ⟨hc, -⟩
  · exact hpoint hc
  · rw [hspace] at hc
    cases hc

theorem quote_class (hc : isQuote c = true) :
    c ≠ '.' ∧ Text.isWhiteSpace c = false ∧ Text.isWordChar c = false := by
  simp only [isQuote, Bool.or_eq_true, beq_iff_eq] at hc
  rcases hc with (rfl | rfl) | rfl <;> decide +kernel

theorem isQuote_of_isWordChar (hc : Text.isWordChar c = true) : isQuote c = false :=
  isQuote_eq_false (p := Text.isWordChar) rfl rfl rfl hc

theorem ne_point_of_isWordChar (hc : Text.isWordChar c = true) : c ≠ '.' := by
  rintro rfl
  exact absurd hc (by decide)

theorem point_or_isWordChar (hc : isNumberChar c = true) :
    c = '.' ∨ Text.isWordChar c = true := by
  rw [isNumberChar, Bool.or_eq_true, beq_iff_eq] at hc
  exact hc.symm.imp_right Text.isWordChar_of_isAlphanum

end

/-! ## Through a text -/

/-- Where a reader of names stands after some text: outside of literals; not after a point, unless
it knows; and where a word may begin, unless a number has begun before. -/
structure Passed (member : Bool) (passed rest : List Char) : Prop where
  outside : Outside passed
  free : member = false → ¬AfterPoint passed
  fresh : (∀ c ∈ rest.head?, Whole passed [c]) ∨ BehindNumber passed

namespace Passed

variable {member : Bool} {c : Char} {passed cs rest : List Char}

theorem whiteSpace (hc : Text.isWhiteSpace c = true) (h : Passed member passed (c :: rest)) :
    Passed member (passed ++ [c]) rest where
  outside := h.outside.append
    (.char (isQuote_eq_false (p := Text.isWhiteSpace) rfl rfl rfl hc) .nil)
  free hmember hafter := by
    rcases hafter.of_append_singleton with ⟨rfl, -⟩ | ⟨-, hafter⟩
    · exact absurd hc (by decide)
    · exact h.free hmember hafter
  fresh := .inl fun d _ => (whole_singleton (Text.isWordChar_of_isWhiteSpace hc)).append_singleton
    (Text.isWordStart_of_isWhiteSpace hc) [d]

/-- A mark is no part of what comes after it. -/
theorem mark (hquote : isQuote c = false) (hstart : Text.isWordStart c = false)
    (hspace : Text.isWhiteSpace c = false) (h : Passed member passed (c :: rest)) :
    Passed (c == '.') (passed ++ [c]) rest where
  outside := h.outside.append (.char hquote .nil)
  free hmember := by
    refine not_afterPoint_append (by simp) fun d hd => ?_
    obtain rfl : c = d := by simpa using hd
    exact ⟨by simpa using hmember, hspace⟩
  fresh := by
    rcases h.fresh with hwhole | hnumber
    · exact .inl fun d _ => (hwhole c rfl).append_singleton hstart [d]
    by_cases hc : c = '.' ∨ Text.isWordChar c = true
    · exact .inr (hnumber.append (by simpa using hc))
    · rw [not_or, Bool.not_eq_true] at hc
      exact .inl fun d _ => (whole_singleton hc.2).append_singleton hstart [d]

theorem word (hword : Text.IsWord cs) (hrest : ∀ c ∈ rest.head?, Text.isWordChar c = false)
    (h : Passed member passed (cs ++ rest)) : Passed false (passed ++ cs) rest where
  outside := h.outside.append
    (outside_of_forall fun c hc => isQuote_of_isWordChar (hword.isWordChar c hc))
  free _ := by
    refine not_afterPoint_append ?_ fun c hc => ?_
    · rintro rfl
      exact hword
    · have hchar := hword.isWordChar c (List.mem_of_getLast? hc)
      exact ⟨ne_point_of_isWordChar hchar, Text.isWhiteSpace_of_isWordChar hchar⟩
  fresh := .inl fun c hc => whole_singleton (hrest c hc)

/-- A number has begun, here or before. -/
theorem behindNumber (hc : c.isDigit = true) (hcs : ∀ d ∈ cs, isNumberChar d = true)
    (h : Passed member passed (c :: rest)) : BehindNumber (passed ++ c :: cs) := by
  have hchars : ∀ d ∈ cs, d = '.' ∨ Text.isWordChar d = true :=
    fun d hd => point_or_isWordChar (hcs d hd)
  rcases h.fresh with hwhole | hnumber
  · exact ⟨passed, c, cs, rfl, hc, hchars, hwhole c rfl⟩
  · exact hnumber.append (List.forall_mem_cons.mpr ⟨.inr (Text.isWordChar_of_isDigit hc), hchars⟩)

theorem number (hc : c.isDigit = true) (hcs : ∀ d ∈ cs, isNumberChar d = true)
    (h : Passed member passed (c :: (cs ++ rest))) :
    Passed false (passed ++ c :: cs) rest where
  outside := by
    have hdigit := isQuote_of_isWordChar (Text.isWordChar_of_isDigit hc)
    refine h.outside.append (outside_of_forall (List.forall_mem_cons.mpr ⟨hdigit, fun d hd => ?_⟩))
    exact isQuote_eq_false (p := isNumberChar) rfl rfl rfl (hcs d hd)
  free _ := by
    rcases List.eq_nil_or_concat cs with rfl | ⟨cs, d, rfl⟩
    · refine not_afterPoint_append (by simp) fun d hd => ?_
      obtain rfl : c = d := by simpa using hd
      have hchar := Text.isWordChar_of_isDigit hc
      exact ⟨ne_point_of_isWordChar hchar, Text.isWhiteSpace_of_isWordChar hchar⟩
    · rw [List.concat_eq_append] at hcs ⊢
      rw [List.forall_mem_append] at hcs
      rw [← List.cons_append, ← List.append_assoc]
      intro hafter
      rcases hafter.of_append_singleton with ⟨-, hnumber⟩ | ⟨hspace, -⟩
      · exact hnumber (h.behindNumber hc hcs.1)
      · rcases point_or_isWordChar (hcs.2 d List.mem_cons_self) with rfl | hchar
        · exact absurd hspace (by decide)
        · rw [Text.isWhiteSpace_of_isWordChar hchar] at hspace
          cases hspace
  fresh := .inr (h.behindNumber hc hcs)

theorem literal {quote : Char} {inside content : List Char} (hquote : isQuote quote = true)
    (hinside : Token.Inside quote inside content)
    (h : Passed member passed (quote :: (inside ++ quote :: rest))) :
    Passed false (passed ++ quote :: (inside ++ [quote])) rest where
  outside := h.outside.append (.literal hquote hinside .nil)
  free _ := by
    refine not_afterPoint_append (by simp) fun d hd => ?_
    obtain rfl : quote = d := by simpa [List.getLast?_cons] using hd
    obtain ⟨hpoint, hspace, -⟩ := quote_class hquote
    exact ⟨hpoint, hspace⟩
  fresh := by
    obtain ⟨-, -, hchar⟩ := quote_class hquote
    have hstart : Text.isWordStart quote = false := by
      rw [Bool.eq_false_iff]
      intro hstart
      rw [Text.isWordChar_of_isWordStart hstart] at hchar
      cases hchar
    rw [← List.cons_append, ← List.append_assoc]
    exact .inl fun d _ => (whole_singleton hchar).append_singleton hstart [d]

end Passed

section

variable {member : Bool} {passed cs : List Char} {name : String}

/-- One step of the reader: a word that it finds stands at its place, or is found after it has gone
on. -/
theorem step_of_mem {c : Char} (h : Passed member passed (c :: cs))
    (hname : name ∈ words member 0 (c :: cs)) :
    (∃ after, c :: cs = name.toList ++ after ∧ Stands passed name.toList after ∧
      (Whole passed name.toList ∨ BehindNumber passed)) ∨
    ∃ member' used rest, c :: cs = used ++ rest ∧ used ≠ [] ∧
      Passed member' (passed ++ used) rest ∧ name ∈ words member' 0 rest := by
  by_cases hquote : isQuote c = true
  · cases hread : Token.readQuoted c cs with
    | none =>
      rw [words_unclosed hquote hread] at hname
      cases hname
    | some r =>
      have hescape : c ≠ '\\' := by
        rintro rfl
        exact absurd hquote (by decide)
      obtain ⟨inside, hinside, rfl⟩ := (Token.readQuoted_eq_some_iff hescape).mp hread
      rw [words_str hquote hread] at hname
      exact .inr ⟨_, c :: (inside ++ [c]), r.2, by simp, by simp, h.literal hquote hinside, hname⟩
  by_cases hstart : Text.isWordStart c = true
  · have hsplit : c :: cs.takeWhile Text.isWordChar ++ cs.dropWhile Text.isWordChar = c :: cs := by
      rw [List.cons_append, List.takeWhile_append_dropWhile]
    have hword : Text.IsWord (c :: cs.takeWhile Text.isWordChar) :=
      ⟨hstart, fun d => List.mem_takeWhile_imp⟩
    have hends := Token.head_dropWhile Text.isWordChar cs
    rw [words_word hstart, List.mem_append] at hname
    rcases hname with hname | hname
    · -- the word itself, which is found unless it follows a point
      cases member with
      | true => cases hname
      | false =>
        obtain rfl := List.mem_singleton.mp hname
        rw [String.toList_ofList]
        refine .inl ⟨_, hsplit.symm, ⟨hword, hends, h.outside, h.free rfl⟩,
          h.fresh.imp_left fun hwhole => ?_⟩
        exact (hwhole c rfl).of_append (List.cons_ne_nil c []) (cs.takeWhile Text.isWordChar)
    · rw [← hsplit] at h
      exact .inr ⟨_, _, _, hsplit.symm, List.cons_ne_nil _ _, h.word hword hends, hname⟩
  by_cases hdigit : c.isDigit = true
  · have hsplit : cs.takeWhile isNumberChar ++ cs.dropWhile isNumberChar = cs :=
      List.takeWhile_append_dropWhile
    rw [words_digit hdigit] at hname
    rw [← hsplit] at h
    refine .inr ⟨_, c :: cs.takeWhile isNumberChar, _, ?_, List.cons_ne_nil _ _,
      h.number hdigit fun d => List.mem_takeWhile_imp, hname⟩
    rw [List.cons_append, hsplit]
  rw [Bool.not_eq_true] at hquote hstart hdigit
  by_cases hspace : Text.isWhiteSpace c = true
  · rw [words_whiteSpace hspace] at hname
    exact .inr ⟨_, [c], cs, rfl, List.cons_ne_nil _ _, h.whiteSpace hspace, hname⟩
  · rw [Bool.not_eq_true] at hspace
    have hmark : words member 0 ([c] ++ cs) = words (c == '.') 0 cs :=
      words_chars (by simp [hquote, hdigit, hstart, hspace]) cs
    rw [← List.singleton_append, hmark] at hname
    exact .inr ⟨_, [c], cs, rfl, List.cons_ne_nil _ _, h.mark hquote hstart hspace, hname⟩

/-- A word that is found stands in the text, and is whole there or has a number before it. -/
theorem exists_stands_of_mem (h : Passed member passed cs) (hname : name ∈ words member 0 cs) :
    ∃ before after, passed ++ cs = before ++ (name.toList ++ after) ∧
      Stands before name.toList after ∧ (Whole before name.toList ∨ BehindNumber before) := by
  -- on the length, as the reader passes over several characters at once
  induction hn : cs.length using Nat.strongRecOn generalizing member passed cs with
  | ind n ih =>
  cases cs with
  | nil => cases hname
  | cons c cs =>
    rcases step_of_mem h hname with ⟨after, hsplit, hstands⟩ |
      ⟨member', used, rest, hsplit, hused, hpassed, hname⟩
    · exact ⟨passed, after, by rw [hsplit], hstands⟩
    · have hlt : rest.length < n := by
        have hpos := List.length_pos_iff.mpr hused
        rw [← hn, hsplit, List.length_append]
        omega
      rw [hsplit, ← List.append_assoc]
      exact ih _ hlt hpassed hname rfl

/-- A name that is found in a text occurs in it, or is what is left of a word there. -/
theorem occurs_or_cutOff_of_mem {expression : String} (h : name ∈ freeIdentifiers expression) :
    Occurs name.toList expression.toList ∨ CutOff name.toList expression.toList := by
  rw [freeIdentifiers, List.mem_eraseDups, List.mem_filter] at h
  have hstart : Passed false [] expression.toList := by
    refine ⟨.nil, fun _ hafter => ?_, .inl fun c _ part hpart hne => ?_⟩
    · obtain ⟨text, blanks, hsplit, -⟩ := hafter
      simp at hsplit
    · exact absurd (List.suffix_nil.mp hpart) hne
  obtain ⟨before, after, hsplit, hstands, hplace⟩ := exists_stands_of_mem hstart h.1
  rw [List.nil_append] at hsplit
  by_cases hwhole : Whole before name.toList
  · exact .inl ⟨before, after, hsplit, hstands, hwhole⟩
  · exact .inr ⟨before, after, hsplit, hstands, hwhole, hplace.resolve_left hwhole⟩

end

end Names

end LivePage
