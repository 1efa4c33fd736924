import LivePage.Text.Character
import Mathlib.Data.List.TakeWhile

/-!
# Character classes and trimming

No character is of two of the classes white space, digit and beginning of a word, and none that
goes on a word is white space; the letters of ASCII begin words.

* `isWordStart_of_isWhiteSpace`, `isWordChar_of_isWhiteSpace`, `isDigit_of_isWhiteSpace`,
  `isWordStart_of_isDigit`: the classes are disjoint.
* `isWordStart_of_isAlpha`, `isWordChar_of_isAlphanum`: ASCII letters and digits.
* `IsWord`: identifier words.
* `exists_trimEnd_append`, `trim_eq_nil_iff`, `trim_eq_self`: what is trimmed off, and when nothing
  or everything is left.
-/

namespace LivePage

namespace Text

variable {c : Char}

theorem isDigit_iff : c.isDigit = true ↔ 48 ≤ c.toNat ∧ c.toNat ≤ 57 := by
  simp [Char.isDigit, UInt32.le_iff_toNat_le, ← Char.toNat_val]

theorem isAlpha_iff :
    c.isAlpha = true ↔ (65 ≤ c.toNat ∧ c.toNat ≤ 90) ∨ (97 ≤ c.toNat ∧ c.toNat ≤ 122) := by
  show (decide (65 ≤ c.val ∧ c.val ≤ 90) ||
    (decide (97 ≤ c.val) && decide (c.val ≤ 122))) = true ↔ _
  simp [UInt32.le_iff_toNat_le, ← Char.toNat_val]

theorem isWordStart_of_isAlpha (h : c.isAlpha = true) : isWordStart c = true := by
  have hlt : c.toNat < 0x80 := by
    rw [isAlpha_iff] at h
    omega
  simp [isWordStart, isAlphabetic, hlt, h]

theorem isWordStart_of_isDigit (h : c.isDigit = true) : isWordStart c = false := by
  rw [isDigit_iff] at h
  have hlt : c.toNat < 0x80 := by omega
  have halpha : c.isAlpha = false := by
    rw [Bool.eq_false_iff, Ne, isAlpha_iff]
    omega
  have hunderscore : c ≠ '_' := by
    rintro rfl
    exact absurd h (by decide)
  have hdollar : c ≠ '$' := by
    rintro rfl
    exact absurd h (by decide)
  simp [isWordStart, isAlphabetic, hlt, halpha, hunderscore, hdollar]

/-! ## White space -/

/-- Whether no code point is in two tables of ranges. -/
def disjoint (rs ss : List (Nat × Nat)) : Bool :=
  rs.all fun r => ss.all fun s => decide (r.2 < s.1) || decide (s.2 < r.1)

theorem inRanges_of_disjoint {rs ss : List (Nat × Nat)} (h : disjoint rs ss = true) {n : Nat}
    (hn : inRanges rs n = true) : inRanges ss n = false := by
  obtain ⟨r, hr, hrn⟩ := List.any_eq_true.mp hn
  rw [inRanges, List.any_eq_false]
  intro s hs hsn
  have hrs := List.all_eq_true.mp (List.all_eq_true.mp h r hr) s hs
  simp only [Bool.or_eq_true, Bool.and_eq_true, decide_eq_true_eq] at hrs hrn hsn
  omega

theorem disjoint_whiteSpace_alphabetic : disjoint whiteSpaceRanges alphabeticRanges = true := by
  decide +kernel

theorem isWhiteSpace_cases (h : isWhiteSpace c = true) :
    c.toNat ≤ 13 ∨ c.toNat = 32 ∨ 0x80 ≤ c.toNat := by
  simp only [isWhiteSpace, inRanges, whiteSpaceRanges, List.any_cons, List.any_nil, Bool.or_false,
    Bool.or_eq_true, Bool.and_eq_true, decide_eq_true_eq] at h
  omega

theorem isDigit_of_isWhiteSpace (h : isWhiteSpace c = true) : c.isDigit = false := by
  have hcases := isWhiteSpace_cases h
  rw [Bool.eq_false_iff, Ne, isDigit_iff]
  omega

theorem isWordStart_of_isWhiteSpace (h : isWhiteSpace c = true) : isWordStart c = false := by
  have halphabetic : isAlphabetic c = false := by
    unfold isAlphabetic
    split
    · have hcases := isWhiteSpace_cases h
      rw [Bool.eq_false_iff, Ne, isAlpha_iff]
      omega
    · exact inRanges_of_disjoint disjoint_whiteSpace_alphabetic h
  have hunderscore : c ≠ '_' := by
    rintro rfl
    exact absurd h (by decide)
  have hdollar : c ≠ '$' := by
    rintro rfl
    exact absurd h (by decide)
  simp [isWordStart, halphabetic, hunderscore, hdollar]

theorem disjoint_whiteSpace_numeral : disjoint whiteSpaceRanges numeralRanges = true := by
  decide +kernel

theorem isWordChar_of_isWhiteSpace (h : isWhiteSpace c = true) : isWordChar c = false := by
  have hstart := isWordStart_of_isWhiteSpace h
  simp only [isWordStart, Bool.or_eq_false_iff] at hstart
  obtain ⟨⟨halphabetic, hunderscore⟩, hdollar⟩ := hstart
  have halphanumeric : isAlphanumeric c = false := by
    unfold isAlphabetic at halphabetic
    unfold isAlphanumeric
    split
    · rename_i hlt
      rw [if_pos hlt] at halphabetic
      rw [Char.isAlphanum, halphabetic, isDigit_of_isWhiteSpace h, Bool.false_or]
    · rename_i hge
      rw [if_neg hge] at halphabetic
      rw [halphabetic, inRanges_of_disjoint disjoint_whiteSpace_numeral h, Bool.false_or]
  simp [isWordChar, halphanumeric, hunderscore, hdollar]

theorem isWhiteSpace_of_isWordChar (h : isWordChar c = true) : isWhiteSpace c = false := by
  rw [Bool.eq_false_iff]
  intro hspace
  rw [isWordChar_of_isWhiteSpace hspace] at h
  cases h

/-! ## Words -/

theorem isWordChar_of_isAlphanum (h : c.isAlphanum = true) : isWordChar c = true := by
  have hlt : c.toNat < 0x80 := by
    rw [Char.isAlphanum, Bool.or_eq_true, isAlpha_iff, isDigit_iff] at h
    omega
  simp [isWordChar, isAlphanumeric, hlt, h]

theorem isWordChar_of_isDigit (h : c.isDigit = true) : isWordChar c = true :=
  isWordChar_of_isAlphanum (by simp [Char.isAlphanum, h])

/-- A text that is an identifier word. -/
def IsWord : List Char → Prop
  | [] => False
  | c :: cs => isWordStart c = true ∧ ∀ d ∈ cs, isWordChar d = true

instance : DecidablePred IsWord
  | [] => inferInstanceAs (Decidable False)
  | c :: cs =>
    have : Decidable (∀ d ∈ cs, isWordChar d = true) := List.decidableBAll _ cs
    inferInstanceAs (Decidable (isWordStart c = true ∧ ∀ d ∈ cs, isWordChar d = true))

theorem IsWord.isWordChar {cs : List Char} (h : IsWord cs) : ∀ c ∈ cs, isWordChar c = true := by
  cases cs with
  | nil => exact nofun
  | cons c cs => exact List.forall_mem_cons.mpr ⟨isWordChar_of_isWordStart h.1, h.2⟩

/-- What a word begins with is a word. -/
theorem IsWord.of_append {cs ds : List Char} (hne : cs ≠ []) (h : IsWord (cs ++ ds)) :
    IsWord cs := by
  cases cs with
  | nil => exact absurd rfl hne
  | cons c cs => exact ⟨h.1, fun d hd => h.2 d (List.mem_append_left ds hd)⟩

/-! ## Trimming -/

theorem exists_trimEnd_append (cs : List Char) :
    ∃ blanks, (∀ b ∈ blanks, isWhiteSpace b = true) ∧ cs = trimEnd cs ++ blanks := by
  refine ⟨(cs.reverse.takeWhile isWhiteSpace).reverse, ?_, ?_⟩
  · intro b hb
    exact List.mem_takeWhile_imp (List.mem_reverse.mp hb)
  · rw [trimEnd, trimStart, ← List.reverse_append, List.takeWhile_append_dropWhile,
      List.reverse_reverse]

theorem trim_eq_nil_iff {cs : List Char} :
    trim cs = [] ↔ ∀ c ∈ cs, isWhiteSpace c = true := by
  unfold trim trimEnd trimStart
  rw [List.reverse_eq_nil_iff, List.dropWhile_eq_nil_iff]
  constructor
  · intro h c hc
    by_cases hmem : c ∈ cs.dropWhile isWhiteSpace
    · exact h c (List.mem_reverse.mpr hmem)
    · rw [← List.takeWhile_append_dropWhile (p := isWhiteSpace) (l := cs),
        List.mem_append] at hc
      exact List.mem_takeWhile_imp (hc.resolve_right hmem)
  · intro h c hc
    exact h c (List.dropWhile_subset _ (List.mem_reverse.mp hc))

/-- A text that neither begins nor ends with white space is trimmed already. -/
theorem trim_eq_self {c d : Char} (hc : isWhiteSpace c = false) (hd : isWhiteSpace d = false)
    (cs : List Char) : trim (c :: (cs ++ [d])) = c :: (cs ++ [d]) := by
  have hstart : trimStart (c :: (cs ++ [d])) = c :: (cs ++ [d]) :=
    List.dropWhile_cons_of_neg (by simp [hc])
  have hend : trimStart (d :: (c :: cs).reverse) = d :: (c :: cs).reverse :=
    List.dropWhile_cons_of_neg (by simp [hd])
  rw [trim, hstart, trimEnd, ← List.cons_append, List.reverse_append, List.reverse_singleton,
    List.singleton_append, hend, List.reverse_cons, List.reverse_reverse]

end Text

end LivePage
