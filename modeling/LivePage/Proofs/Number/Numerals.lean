import LivePage.Number.Decimal
import LivePage.Proofs.Text.Classes
import Mathlib.Data.List.Induction
import Mathlib.Data.List.TakeDrop

/-!
# Decimal numerals

Which texts are read as numerals, and with which value.

* `natural?_eq_some_iff`: the numerals of a natural are its digits, with zeros and a plus sign
  before them or without.
* `ofText?_append`: a numeral begins with the digits before its point.
* `ofText?_digits`, `ofText?_point`, `ofText?_points`: digits without a point, with one, and with
  more than one.
-/

namespace LivePage

namespace Decimal

/-! ## Naturals -/

theorem exists_digitChar {c : Char} (h : c.isDigit = true) :
    ∃ d, d < 10 ∧ c = Nat.digitChar d := by
  have hrange := Text.isDigit_iff.mp h
  refine ⟨c.toNat - 48, by omega, Char.toNat_inj.mp ?_⟩
  rw [Nat.toNat_digitChar_of_lt_ten (by omega)]
  omega

theorem value_append_digitChar (cs : List Char) {d : Nat} (h : d < 10) :
    value (cs ++ [Nat.digitChar d]) = 10 * value cs + d := by
  show Nat.ofDigitChars 10 (cs ++ [Nat.digitChar d]) 0 = _
  rw [Nat.ofDigitChars_append, Nat.ofDigitChars_cons_digitChar_of_lt_ten h, Nat.ofDigitChars_nil]
  rfl

/-- Zeros before the digits of a natural do not change its value. -/
theorem value_zeros_append (zeros n : Nat) :
    value (List.replicate zeros '0' ++ digitsOf n) = n := by
  show Nat.ofDigitChars 10 (List.replicate zeros '0' ++ Nat.toDigits 10 n) 0 = n
  rw [Nat.ofDigitChars_append, Nat.ofDigitChars_replicate_zero, Nat.mul_zero,
    Nat.ofDigitChars_ten_toDigits]

theorem isDigit_of_mem_digitsOf {c : Char} {n : Nat} (h : c ∈ digitsOf n) : c.isDigit = true :=
  Nat.isDigit_of_mem_toDigits (by decide) (by decide) h

/-- A text of digits is the digits of its value after zeros. -/
theorem exists_zeros {cs : List Char} (hne : cs ≠ []) (h : ∀ c ∈ cs, c.isDigit = true) :
    ∃ zeros, cs = List.replicate zeros '0' ++ digitsOf (value cs) := by
  induction cs using List.reverseRecOn with
  | nil => exact absurd rfl hne
  | append_singleton cs c ih =>
    obtain ⟨d, hd, rfl⟩ := exists_digitChar (h c (by simp))
    have hlast : digitsOf d = [Nat.digitChar d] := Nat.toDigits_of_lt_base hd
    rw [value_append_digitChar cs hd]
    by_cases hcs : cs = []
    · subst hcs
      exact ⟨0, by simp [value, hlast]⟩
    obtain ⟨zeros, hzeros⟩ := ih hcs fun c hc => h c (by simp [hc])
    by_cases hvalue : value cs = 0
    · -- then the digits before the last are all zero
      have hnull : cs = List.replicate (zeros + 1) '0' := by
        rw [hvalue] at hzeros
        rw [hzeros, List.replicate_succ']
        rfl
      exact ⟨zeros + 1, by rw [hvalue, hnull, Nat.mul_zero, Nat.zero_add, hlast]⟩
    · have happend : digitsOf (value cs) ++ digitsOf d = digitsOf (10 * value cs + d) :=
        Nat.toDigits_append_toDigits (by decide) (Nat.pos_of_ne_zero hvalue) hd
      refine ⟨zeros, ?_⟩
      rw [← happend, hlast, ← List.append_assoc, ← hzeros]

/-- How a natural may be written: its digits, with zeros before them and a plus sign before these
or without. -/
def Writes (n : Nat) (cs : List Char) : Prop :=
  ∃ sign zeros, sign ∈ [[], ['+']] ∧ cs = sign ++ (List.replicate zeros '0' ++ digitsOf n)

/-- Digits are read with or without a plus sign before them. -/
theorem natural?_sign {sign digits : List Char} (hsign : sign ∈ [[], ['+']]) (hne : digits ≠ [])
    (h : ∀ c ∈ digits, c.isDigit = true) : natural? (sign ++ digits) = some (value digits) := by
  have hall : digits.all Char.isDigit = true := List.all_eq_true.mpr h
  simp only [List.mem_cons, List.not_mem_nil, or_false] at hsign
  rcases hsign with rfl | rfl
  · cases digits with
    | nil => exact absurd rfl hne
    | cons c cs =>
      have hplus : c ≠ '+' := by
        rintro rfl
        exact absurd (h '+' List.mem_cons_self) (by decide)
      rw [List.nil_append, natural?.eq_def]
      simp [hplus, hall]
  · simp [natural?, hne, hall]

theorem exists_sign_of_natural? {cs : List Char} {n : Nat} (h : natural? cs = some n) :
    ∃ sign digits, sign ∈ [[], ['+']] ∧ cs = sign ++ digits ∧ digits ≠ [] ∧
      (∀ c ∈ digits, c.isDigit = true) ∧ value digits = n := by
  have hread {digits : List Char}
      (h : (if digits.isEmpty || !digits.all Char.isDigit then none else some (value digits)) =
        some n) :
      digits ≠ [] ∧ (∀ c ∈ digits, c.isDigit = true) ∧ value digits = n := by
    split at h
    · cases h
    · rename_i hdigits
      simp only [Bool.or_eq_true, not_or, List.isEmpty_iff, Bool.not_eq_true', Bool.not_eq_false,
        List.all_eq_true] at hdigits
      exact ⟨hdigits.1, hdigits.2, Option.some.inj h⟩
  by_cases hplus : ∃ ds, cs = '+' :: ds
  · obtain ⟨ds, rfl⟩ := hplus
    exact ⟨['+'], ds, by simp, rfl, hread h⟩
  · rw [natural?.eq_def] at h
    dsimp only at h
    split at h
    · exact absurd ⟨_, rfl⟩ hplus
    · exact ⟨[], cs, by simp, rfl, hread h⟩

/-- The texts that are read as a natural are those that write it. -/
theorem natural?_eq_some_iff {cs : List Char} {n : Nat} : natural? cs = some n ↔ Writes n cs := by
  constructor
  · intro h
    obtain ⟨sign, digits, hsign, rfl, hne, hdigits, rfl⟩ := exists_sign_of_natural? h
    obtain ⟨zeros, hzeros⟩ := exists_zeros hne hdigits
    exact ⟨sign, zeros, hsign, by rw [← hzeros]⟩
  · rintro ⟨sign, zeros, hsign, rfl⟩
    have hdigits : ∀ c ∈ List.replicate zeros '0' ++ digitsOf n, c.isDigit = true := by
      intro c hc
      rcases List.mem_append.mp hc with hzero | hdigit
      · rw [(List.mem_replicate.mp hzero).2]
        decide
      · exact isDigit_of_mem_digitsOf hdigit
    rw [natural?_sign hsign (by simp [digitsOf]) hdigits, value_zeros_append]

/-! ## Numerals with a point -/

theorem takeSign_of_isDigit {c : Char} (h : c.isDigit = true) (cs : List Char) :
    takeSign (c :: cs) = (false, c :: cs) := by
  unfold takeSign
  split
  · rename_i heq
    cases heq
    exact absurd h (by decide)
  · rename_i heq
    cases heq
    exact absurd h (by decide)
  · rfl

theorem takeDigits_append {digits rest : List Char} (h : ∀ c ∈ digits, c.isDigit = true)
    (hrest : ∀ c ∈ rest.head?, c.isDigit = false) :
    takeDigits (digits ++ rest) = (digits, rest) := by
  have hnone : rest.takeWhile Char.isDigit = [] ∧ rest.dropWhile Char.isDigit = rest := by
    cases rest with
    | nil => exact ⟨rfl, rfl⟩
    | cons c rest =>
      have hc : ¬c.isDigit = true := by simp [hrest c rfl]
      exact ⟨List.takeWhile_cons_of_neg hc, List.dropWhile_cons_of_neg hc⟩
  rw [takeDigits, List.span_eq_takeWhile_dropWhile, List.takeWhile_append_of_pos h,
    List.dropWhile_append_of_pos h, hnone.1, hnone.2, List.append_nil]

/-- A numeral begins with the digits before its point. -/
theorem ofText?_append {c : Char} {cs rest : List Char} (hc : c.isDigit = true)
    (hcs : ∀ d ∈ cs, d.isDigit = true) (hrest : ∀ d ∈ rest.head?, d.isDigit = false) :
    ofText? (c :: cs ++ rest) =
      match takeExponent (takeFraction rest).2 with
      | some (exponent, []) =>
        some (ofParts false (c :: cs) (takeFraction rest).1 exponent)
      | _ => none := by
  have hdigits : takeDigits (c :: cs ++ rest) = (c :: cs, rest) :=
    takeDigits_append (List.forall_mem_cons.mpr ⟨hc, hcs⟩) hrest
  rw [ofText?, List.cons_append, takeSign_of_isDigit hc, ← List.cons_append]
  dsimp only
  rw [hdigits]
  rfl

section

variable {c : Char} {cs fraction : List Char}

theorem ofText?_digits (hc : c.isDigit = true) (hcs : ∀ d ∈ cs, d.isDigit = true) :
    ofText? (c :: cs) = some (ofParts false (c :: cs) [] 0) := by
  have h : ofText? (c :: cs ++ []) = some (ofParts false (c :: cs) [] 0) :=
    ofText?_append hc hcs nofun
  rwa [List.append_nil] at h

theorem ofText?_point (hc : c.isDigit = true) (hcs : ∀ d ∈ cs, d.isDigit = true)
    (hfraction : ∀ d ∈ fraction, d.isDigit = true) :
    ofText? (c :: cs ++ '.' :: fraction) = some (ofParts false (c :: cs) fraction 0) := by
  have htake : takeDigits (fraction ++ []) = (fraction, []) := takeDigits_append hfraction nofun
  rw [List.append_nil] at htake
  rw [ofText?_append hc hcs (by simp), takeFraction, htake]
  rfl

/-- Digits with more than one point are no numeral. -/
theorem ofText?_points (hc : c.isDigit = true) (hcs : ∀ d ∈ cs, d.isDigit = true)
    (hfraction : ∀ d ∈ fraction, d.isDigit = true) (rest : List Char) :
    ofText? (c :: cs ++ '.' :: (fraction ++ '.' :: rest)) = none := by
  rw [ofText?_append hc hcs (by simp), takeFraction, takeDigits_append hfraction (by simp)]
  rfl

end

end Decimal

end LivePage
