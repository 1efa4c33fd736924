/-!
# Lists with keys, in order of arrival

A list whose members are told apart by a key. `put` keeps the position of a member that it replaces
and adds a new one at the end, so the list stays in the order in which its keys first came.

* `get?_put`: what look-up sees after `put`.
* `get?_filter`: what look-up sees after members are dropped by their keys.
* `map_key_put`: `put` leaves the sequence of keys as it was, or adds one key at its end.
* `get?_remove_self`, `get?_remove_of_ne`: what look-up sees after `remove`.
* `eraseP_eq_remove`: where no key stands twice, `remove` takes away one member.
-/

namespace LivePage

namespace Keyed

variable {κ α : Type} [DecidableEq κ]

/-- The first member with a key. -/
def get? (key : α → κ) (k : κ) (xs : List α) : Option α := xs.find? fun x => key x == k

/-- Puts a member in place of the first one with its key, or at the end. -/
def put (key : α → κ) (x : α) : List α → List α
  | [] => [x]
  | y :: ys => if key y = key x then x :: ys else y :: put key x ys

/-- The list without the members of a key. -/
def remove (key : α → κ) (k : κ) (xs : List α) : List α := xs.filter fun x => key x != k

theorem isSome_get?_iff {key : α → κ} {k : κ} {xs : List α} :
    (get? key k xs).isSome = true ↔ k ∈ xs.map key := by
  rw [get?, List.find?_isSome, List.mem_map]
  simp only [beq_iff_eq]

/-- After `put` the key has the new member, and every other key what it had. -/
theorem get?_put (key : α → κ) (x : α) (k : κ) (xs : List α) :
    get? key k (put key x xs) = if key x = k then some x else get? key k xs := by
  unfold get?
  induction xs with
  | nil => by_cases h : key x = k <;> simp [put, h]
  | cons y ys ih =>
    unfold put
    split
    · rename_i hyx
      by_cases h : key x = k <;> simp [hyx, h]
    · rename_i hyx
      by_cases h : key y = k
      · have : key x ≠ k := fun hx => hyx (h.trans hx.symm)
        simp [h, this]
      · simp [h, ih]

/-- `put` keeps the keys and their order; a key that was not there comes last. -/
theorem map_key_put (key : α → κ) (x : α) (xs : List α) :
    (put key x xs).map key =
      if key x ∈ xs.map key then xs.map key else xs.map key ++ [key x] := by
  induction xs with
  | nil => simp [put]
  | cons y ys ih =>
    unfold put
    split
    · rename_i h
      simp [h]
    · rename_i h
      have h' : key x ≠ key y := fun e => h e.symm
      rw [List.map_cons, ih]
      by_cases hm : key x ∈ ys.map key
      · rw [if_pos hm, if_pos (by simp only [List.map_cons, List.mem_cons]; exact .inr hm)]
        rfl
      · rw [if_neg hm, if_neg (by simp only [List.map_cons, List.mem_cons, not_or]; exact ⟨h', hm⟩)]
        rfl

/-- Keeping the members whose keys pass a test keeps the first member of such a key. -/
theorem get?_filter (key : α → κ) (p : κ → Bool) (k : κ) (xs : List α) :
    get? key k (xs.filter fun x => p (key x)) = if p k then get? key k xs else none := by
  unfold get?
  induction xs with
  | nil => simp
  | cons y ys ih =>
    rw [List.filter_cons]
    by_cases hk : key y = k
    · subst hk
      cases hp : p (key y)
      · simpa [hp] using ih
      · simp
    · have hk' : (key y == k) = false := beq_false_of_ne hk
      rw [List.find?_cons, hk', ← ih]
      cases p (key y)
      · simp
      · simp [hk']

/-- A removed key has no member. -/
theorem get?_remove_self (key : α → κ) (k : κ) (xs : List α) :
    get? key k (remove key k xs) = none := by
  simp [get?, remove]

/-- Removing one key leaves the members of every other. -/
theorem get?_remove_of_ne (key : α → κ) {j k : κ} (h : k ≠ j) (xs : List α) :
    get? key k (remove key j xs) = get? key k xs := by
  have hfilter := get?_filter key (fun i => i != j) k xs
  rwa [if_pos (bne_iff_ne.mpr h)] at hfilter

theorem remove_sublist (key : α → κ) (k : κ) (xs : List α) : (remove key k xs).Sublist xs :=
  List.filter_sublist

/-- A key that is not there is removed by doing nothing. -/
theorem remove_eq_self {key : α → κ} {k : κ} {xs : List α} (h : k ∉ xs.map key) :
    remove key k xs = xs := by
  refine List.filter_eq_self.mpr fun x hx => bne_iff_ne.mpr ?_
  rintro rfl
  exact h (List.mem_map_of_mem hx)

/-- Where no key stands twice, the first member with a key is all that is to be removed. -/
theorem eraseP_eq_remove {key : α → κ} {xs : List α} (h : (xs.map key).Nodup) (k : κ) :
    (xs.eraseP fun x => key x == k) = remove key k xs := by
  induction xs with
  | nil => rfl
  | cons y ys ih =>
    obtain ⟨hy, hys⟩ := List.nodup_cons.mp h
    by_cases hk : key y = k
    · subst hk
      rw [List.eraseP_cons_of_pos (by simp)]
      simpa [remove] using (remove_eq_self hy).symm
    · rw [List.eraseP_cons_of_neg (by simpa using hk), ih hys]
      simp [remove, hk]

end Keyed

end LivePage
