import LivePage.Collection.Keyed

/-!
# Putting many members

Members are put into a keyed list one after the other. Of several with one key the last stays, so
putting the same members again changes nothing.

* `Keyed.putAll`: the members of a list are put.
* `Keyed.get?_putAll`: what look-up sees: the last one put, or else what was there.
* `Keyed.putAll_putAll`: putting the same members twice is putting them once, for any list.
-/

namespace LivePage

namespace Keyed

variable {κ α : Type} [DecidableEq κ]

/-- Puts the members of a list, one after the other. -/
def putAll (key : α → κ) (ds xs : List α) : List α := ds.foldl (fun xs d => put key d xs) xs

variable {key : α → κ} {d x y : α} {ds xs : List α}

theorem putAll_cons (key : α → κ) (d : α) (ds xs : List α) :
    putAll key (d :: ds) xs = putAll key ds (put key d xs) := rfl

/-! ## Look-up -/

theorem get?_append (key : α → κ) (k : κ) (xs ys : List α) :
    get? key k (xs ++ ys) = (get? key k xs).or (get? key k ys) :=
  List.find?_append

/-- A key has the last member put under it, or else what it had. -/
theorem get?_putAll (key : α → κ) (k : κ) (ds xs : List α) :
    get? key k (putAll key ds xs) = (get? key k ds.reverse).or (get? key k xs) := by
  induction ds generalizing xs with
  | nil => rfl
  | cons d ds ih =>
    rw [putAll_cons, ih, get?_put, List.reverse_cons, get?_append]
    by_cases h : key d = k
    · simp [get?, h]
    · simp [get?, h]

/-- Where no key stands twice, every member is found by its key. -/
theorem get?_of_mem (hnodup : (xs.map key).Nodup) (h : x ∈ xs) : get? key (key x) xs = some x := by
  induction xs with
  | nil => cases h
  | cons y ys ih =>
    obtain ⟨hy, hys⟩ := List.nodup_cons.mp hnodup
    rw [get?, List.find?_cons]
    rcases List.mem_cons.mp h with rfl | h
    · simp
    · have hne : key y ≠ key x := fun heq => hy (heq ▸ List.mem_map_of_mem h)
      rw [beq_false_of_ne hne]
      exact ih hys h

theorem isSome_get?_reverse_iff {k : κ} :
    (get? key k ds.reverse).isSome = true ↔ k ∈ ds.map key := by
  rw [isSome_get?_iff, List.map_reverse, List.mem_reverse]

theorem mem_map_key_put (h : key x ∈ xs.map key) (y : α) : key x ∈ (put key y xs).map key := by
  rw [map_key_put]
  split
  · exact h
  · exact List.mem_append_left _ h

/-! ## Two members -/

/-- What is there already is put by doing nothing. -/
theorem put_eq_self (h : get? key (key x) xs = some x) : put key x xs = xs := by
  induction xs with
  | nil => cases h
  | cons z zs ih =>
    rw [put]
    by_cases hz : key z = key x
    · simp only [get?, List.find?_cons, hz, beq_self_eq_true, Option.some.injEq] at h
      rw [if_pos hz, h]
    · simp only [get?, List.find?_cons, beq_false_of_ne hz] at h
      rw [if_neg hz, ih h]

/-- Of two members of one key the first is lost. -/
theorem put_put_of_eq (h : key x = key y) (xs : List α) :
    put key y (put key x xs) = put key y xs := by
  induction xs with
  | nil => simp [put, h]
  | cons z zs ih =>
    by_cases hz : key z = key x
    · simp [put, hz, h]
    · have hz' : key z ≠ key y := h ▸ hz
      simp [put, hz, hz', ih]

/-- Members of different keys can be put in either order, if one of the keys is there; else they
would stand in the order in which they are put. -/
theorem put_put_comm (hne : key x ≠ key y) (h : key x ∈ xs.map key) :
    put key y (put key x xs) = put key x (put key y xs) := by
  induction xs with
  | nil => cases h
  | cons z zs ih =>
    by_cases hx : key z = key x
    · simp [put, hx, hne]
    · by_cases hy : key z = key y
      · simp [put, hy, Ne.symm hne]
      · have hzs : key x ∈ zs.map key := (List.mem_cons.mp h).resolve_left (Ne.symm hx)
        simp [put, hx, hy, ih hzs]

/-! ## Many members -/

/-- A member is lost to a later one of its key. -/
theorem putAll_put (hds : key d ∈ ds.map key) (hxs : key d ∈ xs.map key) :
    putAll key ds (put key d xs) = putAll key ds xs := by
  induction ds generalizing xs with
  | nil => cases hds
  | cons e ds ih =>
    rw [putAll_cons, putAll_cons]
    by_cases he : key d = key e
    · rw [put_put_of_eq he]
    · rw [put_put_comm he hxs]
      exact ih ((List.mem_cons.mp hds).resolve_left he) (mem_map_key_put hxs e)

/-- Where every key has already what is put last under it, putting changes nothing. -/
theorem putAll_eq_self
    (h : ∀ k ∈ ds.map key, get? key k xs = get? key k ds.reverse) : putAll key ds xs = xs := by
  induction ds with
  | nil => rfl
  | cons d ds ih =>
    -- The last member of a key in the tail is its last member in the whole list.
    have htail : ∀ k ∈ ds.map key, get? key k (d :: ds).reverse = get? key k ds.reverse := by
      intro k hk
      rw [List.reverse_cons, get?_append, Option.or_of_isSome (isSome_get?_reverse_iff.mpr hk)]
    have hds : putAll key ds xs = xs := ih fun k hk => by
      rw [h k (List.mem_cons_of_mem _ hk), htail k hk]
    have hd := h (key d) List.mem_cons_self
    rw [putAll_cons]
    by_cases hlast : key d ∈ ds.map key
    · have hxs : key d ∈ xs.map key := by
        rw [← isSome_get?_iff, hd, isSome_get?_reverse_iff]
        exact List.mem_cons_self
      rw [putAll_put hlast hxs, hds]
    · have hnone : get? key (key d) ds.reverse = none := by
        rw [← Option.not_isSome_iff_eq_none, isSome_get?_reverse_iff]
        exact hlast
      rw [List.reverse_cons, get?_append, hnone, Option.none_or] at hd
      rw [put_eq_self (hd.trans (by simp [get?])), hds]

/-- Putting the same members twice is putting them once. -/
theorem putAll_putAll (key : α → κ) (ds xs : List α) :
    putAll key ds (putAll key ds xs) = putAll key ds xs := by
  refine putAll_eq_self fun k hk => ?_
  rw [get?_putAll, Option.or_of_isSome (isSome_get?_reverse_iff.mpr hk)]

end Keyed

end LivePage
