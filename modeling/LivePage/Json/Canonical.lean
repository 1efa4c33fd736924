import LivePage.Json.Basic

/-!
# Canonical values

A value is canonical if the fields of every object in it stand in strictly ascending key order.
Every value that a document denotes is canonical, so the values that reach the library from outside
are.

* `Json.Canonical`: the property.
* `RawJson.canonical_of_value?`: documents denote canonical values only.
* `Json.value?_raw`: a canonical value is the value of its own document.
-/

namespace LivePage

namespace Json

mutual

/-- Whether the fields of every object in a value are in strictly ascending key order. -/
def Canonical : Json → Prop
  | .arr items => CanonicalItems items
  | .obj fields => (fields.Pairwise fun a b => a.1 < b.1) ∧ CanonicalFields fields
  | _ => True

/-- Whether all items of an array are canonical. -/
def CanonicalItems : List Json → Prop
  | [] => True
  | x :: xs => x.Canonical ∧ CanonicalItems xs

/-- Whether the values of all fields are canonical. -/
def CanonicalFields : List (String × Json) → Prop
  | [] => True
  | (_, x) :: fs => x.Canonical ∧ CanonicalFields fs

end

theorem canonicalFields_iff {fields : List (String × Json)} :
    CanonicalFields fields ↔ ∀ f ∈ fields, f.2.Canonical := by
  induction fields with
  | nil => simp [CanonicalFields]
  | cons f fs ih => simp [CanonicalFields, ih]

/-! ## From values to documents and back -/

mutual

/-- A canonical value is the value of its own document. -/
theorem value?_raw : ∀ {j : Json}, j.Canonical → j.raw.value? = some j
  | .null, _ => rfl
  | .bool _, _ => rfl
  | .num _, _ => rfl
  | .str _, _ => rfl
  | .arr items, h => by
    rw [Canonical] at h
    simp [Json.raw, RawJson.value?, itemValues?_rawItems h]
  | .obj fields, h => by
    rw [Canonical] at h
    simp [Json.raw, RawJson.value?, fieldValues?_rawFields h.2, ofMap,
      KeyMap.ofList_eq_of_ascending h.1]

/-- Canonical items are the values of their own documents. -/
theorem itemValues?_rawItems : ∀ {items : List Json}, CanonicalItems items →
    RawJson.itemValues? (rawItems items) = some items
  | [], _ => rfl
  | x :: xs, h => by
    rw [CanonicalItems] at h
    simp [rawItems, RawJson.itemValues?, value?_raw h.1, itemValues?_rawItems h.2]

/-- Canonical fields are the values of their own documents. -/
theorem fieldValues?_rawFields : ∀ {fields : List (String × Json)}, CanonicalFields fields →
    RawJson.fieldValues? (rawFields fields) = some fields
  | [], _ => rfl
  | (k, x) :: fs, h => by
    rw [CanonicalFields] at h
    simp [rawFields, RawJson.fieldValues?, value?_raw h.1, fieldValues?_rawFields h.2]

end

end Json

namespace RawJson

mutual

/-- Documents denote canonical values only. -/
theorem canonical_of_value? : ∀ {d : RawJson} {j : Json}, d.value? = some j → j.Canonical
  | .null, j, h => by
    obtain rfl : Json.null = j := by simpa [value?] using h
    trivial
  | .bool b, j, h => by
    obtain rfl : Json.bool b = j := by simpa [value?] using h
    trivial
  | .num n, j, h => by
    obtain rfl : Json.num n = j := by simpa [value?] using h
    trivial
  | .str s, j, h => by
    obtain rfl : Json.str s = j := by simpa [value?] using h
    trivial
  | .arr items, j, h => by
    rw [value?, Option.map_eq_some_iff] at h
    obtain ⟨vs, hvs, rfl⟩ := h
    exact canonical_of_itemValues? hvs
  | .obj fields, j, h => by
    rw [value?, Option.map_eq_some_iff] at h
    obtain ⟨fs, hfs, rfl⟩ := h
    refine ⟨(KeyMap.ofList fs).ascending, Json.canonicalFields_iff.2 fun f hf => ?_⟩
    exact Json.canonicalFields_iff.1 (canonical_of_fieldValues? hfs) f (KeyMap.mem_of_mem_ofList hf)
  | .valueless, j, h => by simp [value?] at h

/-- The values of items are canonical. -/
theorem canonical_of_itemValues? : ∀ {items : List RawJson} {vs : List Json},
    itemValues? items = some vs → Json.CanonicalItems vs
  | [], vs, h => by
    obtain rfl : [] = vs := by simpa [itemValues?] using h
    trivial
  | x :: xs, vs, h => by
    rw [itemValues?] at h
    split at h
    · rename_i v ws hv hws
      obtain rfl : v :: ws = vs := by simpa using h
      exact ⟨canonical_of_value? hv, canonical_of_itemValues? hws⟩
    · simp at h

/-- The values of fields are canonical. -/
theorem canonical_of_fieldValues? : ∀ {fields : List (String × RawJson)}
    {fs : List (String × Json)}, fieldValues? fields = some fs → Json.CanonicalFields fs
  | [], fs, h => by
    obtain rfl : [] = fs := by simpa [fieldValues?] using h
    trivial
  | (k, x) :: rest, fs, h => by
    rw [fieldValues?] at h
    split at h
    · rename_i v ws hv hws
      obtain rfl : (k, v) :: ws = fs := by simpa using h
      exact ⟨canonical_of_value? hv, canonical_of_fieldValues? hws⟩
    · simp at h

end

end RawJson

end LivePage
