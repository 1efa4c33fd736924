import Mathlib.Data.List.DropRight
import Mathlib.Data.List.Nodup
import LivePage.Collection.Keyed

/-!
# Keyed lists and how they came about

A keyed list is the outcome of a log of changes: members put under their keys, and keys removed.
What the list holds and in which order can be read off the log, key by key, from the part after the
last removal of the key.

* `Keyed.Change`, `Keyed.replay`: a log, and the list to which it leads.
* `Keyed.putsSince`, `Keyed.firstPut`: what was put under a key since it was last removed, and where
  in the log this began.
* `Keyed.Lists`: a list shows a log: for every key that is there what was put last, in the order in
  which the keys were first put.
* `Keyed.lists_replay`: the outcome of a log shows it. `Lists.get?_eq`: what look-up finds in it.
-/

namespace LivePage

namespace Keyed

/-- What happens to a keyed list: a member is put, a key is removed, or nothing changes. -/
inductive Change (κ α : Type)
  | put (x : α)
  | remove (k : κ)
  | keep

variable {κ α : Type} [DecidableEq κ]

namespace Change

/-- A list after a change. -/
def apply (key : α → κ) : Change κ α → List α → List α
  | .put x, xs => Keyed.put key x xs
  | .remove k, xs => Keyed.remove key k xs
  | .keep, xs => xs

/-- Whether a change removes a key. -/
def removes (k : κ) : Change κ α → Bool
  | .put _ => false
  | .remove j => j == k
  | .keep => false

/-- What a change puts under a key. -/
def put? (key : α → κ) (k : κ) : Change κ α → Option α
  | .put x => if key x = k then some x else none
  | .remove _ => none
  | .keep => none

end Change

/-- The outcome of a log. -/
def replay (key : α → κ) (log : List (Change κ α)) : List α :=
  log.foldl (fun xs change => change.apply key xs) []

theorem replay_concat (key : α → κ) (log : List (Change κ α)) (change : Change κ α) :
    replay key (log ++ [change]) = change.apply key (replay key log) := by
  rw [replay, List.foldl_append]
  rfl

/-- The part of a log after the last removal of a key. -/
def sinceRemoval (k : κ) (log : List (Change κ α)) : List (Change κ α) :=
  log.rtakeWhile fun change => !change.removes k

/-- What has been put under a key since it was last removed, the latest last. -/
def putsSince (key : α → κ) (k : κ) (log : List (Change κ α)) : List α :=
  (sinceRemoval k log).filterMap (Change.put? key k)

/-- Where in a log a key was first put since it was last removed; the end of the log if it was
not. -/
def firstPut (key : α → κ) (k : κ) (log : List (Change κ α)) : Nat :=
  (log.length - (sinceRemoval k log).length) +
    (sinceRemoval k log).findIdx fun change => (change.put? key k).isSome

/-- A list shows a log: each key stands in it at most once, a member is in it if it is what was last
put under its key since this was last removed, and the keys stand in the order in which they were
first put since then. -/
structure Lists (key : α → κ) (log : List (Change κ α)) (xs : List α) : Prop where
  nodup : (xs.map key).Nodup
  mem_iff : ∀ x, x ∈ xs ↔ (putsSince key (key x) log).getLast? = some x
  ordered : (xs.map key).Pairwise fun j k => firstPut key j log < firstPut key k log

variable {key : α → κ} {log : List (Change κ α)} {k : κ} {change : Change κ α}

/-! ## One change more -/

theorem sinceRemoval_concat_of_removes (h : change.removes k = true) :
    sinceRemoval k (log ++ [change]) = [] := by
  rw [sinceRemoval, List.rtakeWhile_concat_neg]
  simp [h]

theorem sinceRemoval_concat (h : change.removes k = false) :
    sinceRemoval k (log ++ [change]) = sinceRemoval k log ++ [change] := by
  rw [sinceRemoval, sinceRemoval, List.rtakeWhile_concat_pos]
  simp [h]

theorem length_sinceRemoval_le (k : κ) (log : List (Change κ α)) :
    (sinceRemoval k log).length ≤ log.length :=
  (List.rtakeWhile_suffix _ _).length_le

theorem putsSince_concat_of_removes (h : change.removes k = true) :
    putsSince key k (log ++ [change]) = [] := by
  rw [putsSince, sinceRemoval_concat_of_removes h]
  rfl

theorem putsSince_concat (h : change.removes k = false) :
    putsSince key k (log ++ [change]) = putsSince key k log ++ (change.put? key k).toList := by
  rw [putsSince, putsSince, sinceRemoval_concat h, List.filterMap_append]
  cases hput : change.put? key k <;> simp [hput]

theorem putsSince_eq_nil_iff :
    putsSince key k log = [] ↔ ∀ c ∈ sinceRemoval k log, (c.put? key k).isSome = false := by
  rw [putsSince, List.filterMap_eq_nil_iff]
  simp

/-- What is there was first put somewhere in the log. -/
theorem findIdx_lt_of_putsSince (h : putsSince key k log ≠ []) :
    (sinceRemoval k log).findIdx (fun change => (change.put? key k).isSome) <
      (sinceRemoval k log).length := by
  rw [List.findIdx_lt_length]
  by_contra hnone
  push Not at hnone
  exact h (putsSince_eq_nil_iff.mpr fun c hc => by simpa using hnone c hc)

theorem firstPut_lt (h : putsSince key k log ≠ []) : firstPut key k log < log.length := by
  have hidx := findIdx_lt_of_putsSince h
  have hle := length_sinceRemoval_le k log
  rw [firstPut]
  omega

/-- As long as a key is there, the place where it was first put stays. -/
theorem firstPut_concat (hremoves : change.removes k = false) (h : putsSince key k log ≠ []) :
    firstPut key k (log ++ [change]) = firstPut key k log := by
  have hidx := findIdx_lt_of_putsSince h
  rw [firstPut, firstPut, sinceRemoval_concat hremoves, List.findIdx_append, if_pos hidx,
    List.length_append, List.length_append, List.length_singleton]
  omega

/-- A key that was not there is first put at the end. -/
theorem firstPut_concat_new (hremoves : change.removes k = false)
    (h : putsSince key k log = []) (hput : (change.put? key k).isSome = true) :
    firstPut key k (log ++ [change]) = log.length := by
  have hidx : (sinceRemoval k log).findIdx (fun change => (change.put? key k).isSome) =
      (sinceRemoval k log).length :=
    List.findIdx_eq_length.mpr (putsSince_eq_nil_iff.mp h)
  have hlast : [change].findIdx (fun change => (change.put? key k).isSome) = 0 := by
    simp [List.findIdx_cons, hput]
  have hle := length_sinceRemoval_le k log
  rw [firstPut, sinceRemoval_concat hremoves, List.findIdx_append, hidx, if_neg (lt_irrefl _),
    hlast, List.length_append, List.length_append, List.length_singleton]
  omega

/-! ## Lists that show a log -/

/-- Where no key stands twice, none does after `put`. -/
theorem nodup_map_put {xs : List α} (h : (xs.map key).Nodup) (x : α) :
    ((put key x xs).map key).Nodup := by
  rw [map_key_put]
  split
  · exact h
  · rename_i hx
    rw [← List.concat_eq_append]
    exact List.Nodup.concat hx h

theorem mem_put {key : α → κ} {x y : α} {xs : List α} (hnodup : (xs.map key).Nodup) :
    y ∈ put key x xs ↔ y = x ∨ y ∈ xs ∧ key y ≠ key x := by
  induction xs with
  | nil => simp [put]
  | cons z zs ih =>
    obtain ⟨hz, hzs⟩ := List.nodup_cons.mp hnodup
    unfold put
    split
    · rename_i hzx
      have hne : ∀ w ∈ zs, key w ≠ key x := by
        intro w hw hwx
        exact hz (List.mem_map.mpr ⟨w, hw, hwx.trans hzx.symm⟩)
      constructor
      · intro hy
        rcases List.mem_cons.mp hy with rfl | hy
        · exact .inl rfl
        · exact .inr ⟨List.mem_cons_of_mem _ hy, hne y hy⟩
      · rintro (rfl | ⟨hy, hyx⟩)
        · exact List.mem_cons_self
        · rcases List.mem_cons.mp hy with rfl | hy
          · exact absurd hzx hyx
          · exact List.mem_cons_of_mem _ hy
    · rename_i hzx
      rw [List.mem_cons, ih hzs, List.mem_cons]
      constructor
      · rintro (rfl | rfl | ⟨hy, hyx⟩)
        · exact .inr ⟨.inl rfl, hzx⟩
        · exact .inl rfl
        · exact .inr ⟨.inr hy, hyx⟩
      · rintro (rfl | ⟨rfl | hy, hyx⟩)
        · exact .inr (.inl rfl)
        · exact .inl rfl
        · exact .inr (.inr ⟨hy, hyx⟩)

namespace Lists

variable {xs : List α}

theorem putsSince_ne_nil (h : Lists key log xs) (hk : k ∈ xs.map key) :
    putsSince key k log ≠ [] := by
  obtain ⟨x, hx, rfl⟩ := List.mem_map.mp hk
  intro hnil
  have hlast := (h.mem_iff x).mp hx
  rw [hnil] at hlast
  cases hlast

theorem mem_of_putsSince_ne_nil (h : Lists key log xs) (hputs : putsSince key k log ≠ []) :
    k ∈ xs.map key := by
  have hlast := List.getLast?_eq_some_getLast hputs
  obtain ⟨change, -, hput⟩ := List.mem_filterMap.mp (List.getLast_mem hputs)
  have hkey : key ((putsSince key k log).getLast hputs) = k := by
    cases change with
    | remove j => cases hput
    | keep => cases hput
    | put x =>
      rw [Change.put?] at hput
      split at hput
      · rename_i hx
        cases hput
        exact hx
      · cases hput
  refine List.mem_map.mpr ⟨_, (h.mem_iff _).mpr ?_, hkey⟩
  rw [hkey]
  exact hlast

/-- Under every key there is what was put under it last. -/
theorem get?_eq (h : Lists key log xs) (k : κ) :
    get? key k xs = (putsSince key k log).getLast? := by
  cases hget : get? key k xs with
  | some x =>
    have hkey : key x = k := by simpa using List.find?_some hget
    rw [← hkey]
    exact ((h.mem_iff x).mp (List.mem_of_find?_eq_some hget)).symm
  | none =>
    have hnil : putsSince key k log = [] := by
      by_contra hputs
      have hfound := isSome_get?_iff.mpr (h.mem_of_putsSince_ne_nil hputs)
      rw [hget] at hfound
      cases hfound
    rw [hnil]
    rfl

/-- Keys that stay keep their order. -/
theorem ordered_concat (h : Lists key log xs) {ks : List κ} (hsub : ks.Sublist (xs.map key))
    (hkeep : ∀ k ∈ ks, change.removes k = false) :
    ks.Pairwise fun j k =>
      firstPut key j (log ++ [change]) < firstPut key k (log ++ [change]) := by
  refine (h.ordered.sublist hsub).imp_of_mem fun {j k} hj hk hjk => ?_
  rw [firstPut_concat (hkeep j hj) (h.putsSince_ne_nil (hsub.subset hj)),
    firstPut_concat (hkeep k hk) (h.putsSince_ne_nil (hsub.subset hk))]
  exact hjk

theorem put (h : Lists key log xs) (x : α) :
    Lists key (log ++ [.put x]) (Keyed.put key x xs) := by
  have hkeys := map_key_put key x xs
  have hmem : ∀ y, y ∈ Keyed.put key x xs ↔
      (putsSince key (key y) (log ++ [.put x])).getLast? = some y := by
    intro y
    rw [mem_put h.nodup, h.mem_iff y, putsSince_concat rfl, Change.put?]
    by_cases hxy : key x = key y
    · simp [hxy, eq_comm]
    · have hne : y ≠ x := by
        rintro rfl
        exact hxy rfl
      simp [hxy, hne, Ne.symm hxy]
  by_cases hx : key x ∈ xs.map key
  case pos =>
    rw [if_pos hx] at hkeys
    refine ⟨nodup_map_put h.nodup x, hmem, ?_⟩
    rw [hkeys]
    exact h.ordered_concat (List.Sublist.refl _) fun _ _ => rfl
  case neg =>
    rw [if_neg hx] at hkeys
    have hnew : putsSince key (key x) log = [] := by
      by_contra hputs
      exact hx (h.mem_of_putsSince_ne_nil hputs)
    refine ⟨nodup_map_put h.nodup x, hmem, ?_⟩
    rw [hkeys, List.pairwise_append]
    refine ⟨h.ordered_concat (List.Sublist.refl _) fun _ _ => rfl, List.pairwise_singleton _ _,
      fun j hj k hk => ?_⟩
    obtain rfl := List.mem_singleton.mp hk
    rw [firstPut_concat rfl (h.putsSince_ne_nil hj),
      firstPut_concat_new rfl hnew (by simp [Change.put?])]
    exact firstPut_lt (h.putsSince_ne_nil hj)

theorem remove (h : Lists key log xs) (j : κ) :
    Lists key (log ++ [.remove j]) (Keyed.remove key j xs) := by
  have hsub : ((Keyed.remove key j xs).map key).Sublist (xs.map key) :=
    (remove_sublist key j xs).map key
  refine ⟨h.nodup.sublist hsub, fun y => ?_, ?_⟩
  · rw [Keyed.remove, List.mem_filter, h.mem_iff y]
    by_cases hj : key y = j
    · rw [putsSince_concat_of_removes (by simp [Change.removes, hj])]
      simp [hj]
    · rw [putsSince_concat (by simp [Change.removes, Ne.symm hj])]
      simp [Change.put?, hj]
  · refine h.ordered_concat hsub fun k hk => ?_
    obtain ⟨y, hy, rfl⟩ := List.mem_map.mp hk
    have hne := (List.mem_filter.mp hy).2
    simp only [bne_iff_ne, ne_eq] at hne
    simp [Change.removes, Ne.symm hne]

theorem keep (h : Lists key log xs) : Lists key (log ++ [.keep]) xs := by
  refine ⟨h.nodup, fun y => ?_, h.ordered_concat (List.Sublist.refl _) fun _ _ => rfl⟩
  rw [h.mem_iff y, putsSince_concat rfl]
  simp [Change.put?]

end Lists

/-- The outcome of a log shows it. -/
theorem lists_replay (key : α → κ) (log : List (Change κ α)) : Lists key log (replay key log) := by
  induction log using List.reverseRecOn with
  | nil => exact ⟨.nil, fun x => by simp [replay, putsSince, sinceRemoval], .nil⟩
  | append_singleton log change ih =>
    rw [replay_concat]
    cases change with
    | put x => exact ih.put x
    | remove j => exact ih.remove j
    | keep => exact ih.keep

end Keyed

end LivePage
