import LivePage.Output.Html
import LivePage.Proofs.Style.Reader
import LivePage.Proofs.Text.Classes

/-!
# Names of style properties

A style property may be spelled with hyphens or with capital letters, and several spellings are
written as the same property.

* `Html.isProperty_kebab`: a name that passes the check of names is written as one that a reader
  takes for a name.
* `Html.spellings`: the names that are written as a given property. `Html.kebab_eq_iff`.
-/

namespace LivePage

namespace Text

variable {c d : Char}

theorem isUpper_iff : c.isUpper = true ↔ 65 ≤ c.toNat ∧ c.toNat ≤ 90 := by
  show decide (65 ≤ c.val ∧ c.val ≤ 90) = true ↔ _
  simp [UInt32.le_iff_toNat_le, ← Char.toNat_val]

theorem isLower_iff : c.isLower = true ↔ 97 ≤ c.toNat ∧ c.toNat ≤ 122 := by
  show (decide (97 ≤ c.val) && decide (c.val ≤ 122)) = true ↔ _
  simp [UInt32.le_iff_toNat_le, ← Char.toNat_val]

theorem toNat_toLower (h : c.isUpper = true) : c.toLower.toNat = c.toNat + 32 := by
  have hbound := (isUpper_iff.mp h).2
  have hval : c.toLower.val = c.val + 32 := by
    have hcapital : 'A'.val ≤ c.val ∧ c.val ≤ 'Z'.val := of_decide_eq_true h
    unfold Char.toLower
    rw [dif_pos hcapital]
    rfl
  have hadd : (c.val + 32).toNat = (c.val.toNat + 32) % 2 ^ 32 := UInt32.toNat_add ..
  rw [← Char.toNat_val] at hbound
  rw [← Char.toNat_val, ← Char.toNat_val, hval, hadd]
  omega

theorem toNat_toUpper (h : c.isLower = true) : c.toUpper.toNat + 32 = c.toNat := by
  have hbounds := isLower_iff.mp h
  have hval : c.toUpper.val = c.val + 4294967264 := by
    have hsmall : 'a'.val ≤ c.val ∧ c.val ≤ 'z'.val :=
      (Bool.and_eq_true_iff.mp h).imp of_decide_eq_true of_decide_eq_true
    unfold Char.toUpper
    rw [dif_pos hsmall]
    rfl
  have hadd : (c.val + 4294967264).toNat = (c.val.toNat + 4294967264) % 2 ^ 32 :=
    UInt32.toNat_add ..
  rw [← Char.toNat_val] at hbounds
  rw [← Char.toNat_val, ← Char.toNat_val, hval, hadd]
  omega

theorem isAlpha_toLower (h : c.isUpper = true) : c.toLower.isAlpha = true := by
  have hbounds := isUpper_iff.mp h
  rw [isAlpha_iff, toNat_toLower h]
  omega

/-- Capital and small letters stand for each other. -/
theorem isUpper_and_eq_toLower_iff :
    c.isUpper = true ∧ d = c.toLower ↔ d.isLower = true ∧ c = d.toUpper := by
  constructor
  · rintro ⟨hc, rfl⟩
    have hnat := toNat_toLower hc
    have hbounds := isUpper_iff.mp hc
    have hd : c.toLower.isLower = true := by rw [isLower_iff]; omega
    refine ⟨hd, Char.toNat_inj.mp ?_⟩
    have hback := toNat_toUpper hd
    omega
  · rintro ⟨hd, rfl⟩
    have hnat := toNat_toUpper hd
    have hbounds := isLower_iff.mp hd
    have hc : d.toUpper.isUpper = true := by rw [isUpper_iff]; omega
    refine ⟨hc, Char.toNat_inj.mp ?_⟩
    have hback := toNat_toLower hc
    omega

end Text

namespace Html

/-- A name is written as a name. -/
theorem isProperty_kebab {name : String} (h : isStyleProperty name = true) :
    Style.IsProperty (kebab name) := by
  simp only [isStyleProperty, Bool.and_eq_true, Bool.not_eq_true', List.isEmpty_eq_false_iff,
    List.all_eq_true, Bool.or_eq_true, beq_iff_eq] at h
  obtain ⟨hne, hall⟩ := h
  refine ⟨fun hempty => ?_, fun c hc => ?_⟩
  · obtain ⟨c, cs, hname⟩ := List.exists_cons_of_ne_nil hne
    have hlist := congrArg String.toList hempty
    rw [kebab, String.toList_ofList, hname, List.flatMap_cons] at hlist
    have hchar := (List.append_eq_nil_iff.mp hlist).1
    unfold kebabChar at hchar
    split at hchar <;> cases hchar
  · rw [kebab, String.toList_ofList, List.mem_flatMap] at hc
    obtain ⟨d, hd, hc⟩ := hc
    unfold kebabChar at hc
    split at hc
    next hupper =>
      simp only [List.mem_cons, List.not_mem_nil, or_false] at hc
      rcases hc with rfl | rfl
      · exact .inr rfl
      · exact .inl (Text.isAlpha_toLower hupper)
    next =>
      rw [List.mem_singleton.mp hc]
      exact hall d hd

/-- The names that are written as a property: a hyphen and a small letter may stand for the capital
letter. -/
def spellings : List Char → List (List Char)
  | [] => [[]]
  | [c] => if c.isUpper then [] else [[c]]
  | c :: d :: cs =>
    (if c.isUpper then [] else (spellings (d :: cs)).map (c :: ·)) ++
      if c = '-' ∧ d.isLower = true then (spellings cs).map (d.toUpper :: ·) else []

theorem flatMap_kebabChar_eq_nil_iff {name : List Char} :
    name.flatMap kebabChar = [] ↔ name = [] := by
  have hne (c : Char) : kebabChar c ≠ [] := by
    unfold kebabChar
    split <;> exact List.cons_ne_nil _ _
  cases name <;> simp [hne]

/-- A property begins with the first character of its name, or with the hyphen and the small letter
of a capital one. -/
theorem flatMap_kebabChar_cons_eq_iff {a c : Char} {name cs : List Char} :
    (a :: name).flatMap kebabChar = c :: cs ↔
      (a.isUpper = false ∧ a = c ∧ name.flatMap kebabChar = cs) ∨
        (a.isUpper = true ∧ c = '-' ∧ cs = a.toLower :: name.flatMap kebabChar) := by
  rw [List.flatMap_cons, kebabChar]
  cases a.isUpper <;> simp [eq_comm]

theorem mem_spellings_iff {property name : List Char} :
    name ∈ spellings property ↔ name.flatMap kebabChar = property := by
  induction property using spellings.induct generalizing name with
  | case1 => rw [flatMap_kebabChar_eq_nil_iff, spellings, List.mem_singleton]
  | case2 c hc | case3 c hc =>
    cases name with
    | nil => simp [spellings, hc]
    | cons a name =>
      rw [flatMap_kebabChar_cons_eq_iff, flatMap_kebabChar_eq_nil_iff]
      simp only [spellings, hc, reduceCtorEq, and_false, or_false, Bool.false_eq_true, ↓reduceIte]
      grind
  | case4 c d cs ih ih' =>
    cases name with
    | nil => simp [spellings]
    | cons a name =>
      have hcapital : a.isUpper = true ∧ d = a.toLower ↔ d.isLower = true ∧ a = d.toUpper :=
        Text.isUpper_and_eq_toLower_iff
      rw [flatMap_kebabChar_cons_eq_iff, spellings, List.mem_append]
      refine or_congr ?_ ?_
      · split <;> simp only [List.mem_map, List.not_mem_nil, ih, List.cons.injEq] <;> grind
      · split <;> simp only [List.mem_map, List.not_mem_nil, ih', List.cons.injEq] <;> grind

/-- The spellings of a property. -/
theorem kebab_eq_iff {property name : String} :
    kebab name = property ↔ name.toList ∈ spellings property.toList := by
  rw [mem_spellings_iff, kebab]
  constructor
  · rintro rfl
    rw [String.toList_ofList]
  · intro h
    rw [h, String.ofList_toList]

end Html

end LivePage
