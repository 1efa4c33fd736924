/-!
# Maps in key order

A finite map from strings, kept as its entries in ascending key order. The order of strings is that
of their code points. One map has one list of entries, so equality of maps is equality of what they
hold (`KeyMap.ext_get?`), and a traversal always runs in key order.

* `get?`, `insert`, `erase`, `ofList`: look-up and change; of two entries of one key the later wins.
* `mapValues`, `filterMap`, `filter`: entry by entry, the keys and their order kept.
* `get?_insert`, `get?_erase`, `get?_union`, `get?_ofList`: what look-up sees after a change.
* `erase_insert`, `insert_eq_self`, `erase_eq_self`: changes that cancel.
* `KeySet`: a set of strings, as the map that holds nothing beside its keys.
-/

namespace LivePage

/-- A finite map from strings, its entries in ascending key order. -/
structure KeyMap (α : Type) where
  /-- The entries in key order. -/
  entries : List (String × α)
  /-- Every key is below all later keys. -/
  ascending : entries.Pairwise fun a b => a.1 < b.1
deriving DecidableEq

namespace KeyMap

variable {α β : Type}

/-- The map without entries. -/
def empty : KeyMap α := ⟨[], .nil⟩

instance : Inhabited (KeyMap α) := ⟨empty⟩

/-- Maps are compared entry by entry, with the equality of the values. -/
instance [BEq α] : BEq (KeyMap α) := ⟨fun a b => a.entries == b.entries⟩

theorem eq_of_entries {m n : KeyMap α} (h : m.entries = n.entries) : m = n := by
  cases m; cases n; simp_all

/-- The value of the first entry with a key. -/
def lookup (key : String) : List (String × α) → Option α
  | [] => none
  | (k, v) :: rest => if key = k then some v else lookup key rest

/-- The value stored under a key. -/
def get? (m : KeyMap α) (key : String) : Option α := lookup key m.entries

/-- Whether a key has a value. -/
def contains (m : KeyMap α) (key : String) : Bool := (m.get? key).isSome

/-- The keys in ascending order. -/
def keys (m : KeyMap α) : List String := m.entries.map Prod.fst

/-- The values in the order of their keys. -/
def values (m : KeyMap α) : List α := m.entries.map Prod.snd

/-- How many keys have a value. -/
def size (m : KeyMap α) : Nat := m.entries.length

/-- Whether no key has a value. -/
def isEmpty (m : KeyMap α) : Bool := m.entries.isEmpty

/-! ## Insertion -/

/-- Puts an entry at its place in an ascending list; an entry of the same key is replaced. -/
def insertEntry (key : String) (value : α) : List (String × α) → List (String × α)
  | [] => [(key, value)]
  | (k, v) :: rest =>
    if key < k then (key, value) :: (k, v) :: rest
    else if key = k then (key, value) :: rest
    else (k, v) :: insertEntry key value rest

theorem fst_mem_insertEntry {key k : String} {value v : α} {entries : List (String × α)}
    (h : (k, v) ∈ insertEntry key value entries) : k = key ∨ (k, v) ∈ entries := by
  induction entries with
  | nil => simp_all [insertEntry]
  | cons e rest ih =>
    unfold insertEntry at h
    split at h
    · rcases List.mem_cons.1 h with h | h
      · exact .inl (Prod.mk.inj h).1
      · exact .inr h
    · split at h
      · rcases List.mem_cons.1 h with h | h
        · exact .inl (Prod.mk.inj h).1
        · exact .inr (List.mem_cons_of_mem _ h)
      · rcases List.mem_cons.1 h with h | h
        · exact .inr (h ▸ List.mem_cons_self)
        · exact (ih h).imp_right (List.mem_cons_of_mem _)

theorem ascending_insertEntry (key : String) (value : α) {entries : List (String × α)}
    (h : entries.Pairwise fun a b => a.1 < b.1) :
    (insertEntry key value entries).Pairwise fun a b => a.1 < b.1 := by
  induction entries with
  | nil => simp [insertEntry]
  | cons e rest ih =>
    obtain ⟨k, v⟩ := e
    obtain ⟨hk, hr⟩ := List.pairwise_cons.1 h
    unfold insertEntry
    split
    · rename_i hlt
      refine List.pairwise_cons.2 ⟨fun b hb => ?_, h⟩
      rcases List.mem_cons.1 hb with rfl | hb
      · exact hlt
      · exact String.lt_trans hlt (hk b hb)
    · rename_i hge
      split
      · rename_i heq
        exact List.pairwise_cons.2 ⟨fun b hb => by rw [heq]; exact hk b hb, hr⟩
      · rename_i hne
        refine List.pairwise_cons.2 ⟨fun b hb => ?_, ih hr⟩
        rcases fst_mem_insertEntry (k := b.1) (v := b.2) hb with hb | hb
        · have : k < key := by grind
          rw [hb]
          exact this
        · exact hk _ hb

/-- The map with one key set to a value. -/
def insert (m : KeyMap α) (key : String) (value : α) : KeyMap α :=
  ⟨insertEntry key value m.entries, ascending_insertEntry key value m.ascending⟩

/-- The map of a list of entries; of two entries of one key the later wins. -/
def ofList (entries : List (String × α)) : KeyMap α :=
  entries.foldl (fun m e => m.insert e.1 e.2) empty

/-! ## Entry by entry -/

/-- The entries whose key and value pass a test. -/
def filter (p : String → α → Bool) (m : KeyMap α) : KeyMap α :=
  ⟨m.entries.filter fun e => p e.1 e.2, m.ascending.filter _⟩

/-- The map without one key. -/
def erase (m : KeyMap α) (key : String) : KeyMap α := m.filter fun k _ => k != key

/-- Every value replaced by its image, where it has one. -/
def filterMap (f : String → α → Option β) (m : KeyMap α) : KeyMap β :=
  ⟨m.entries.filterMap fun e => (f e.1 e.2).map (e.1, ·), by
    refine List.Pairwise.filterMap _ (fun a b hab x hx y hy => ?_) m.ascending
    simp only [Option.map_eq_some_iff] at hx hy
    obtain ⟨_, _, rfl⟩ := hx
    obtain ⟨_, _, rfl⟩ := hy
    exact hab⟩

/-- Every value replaced by its image. -/
def mapValues (f : α → β) (m : KeyMap α) : KeyMap β :=
  ⟨m.entries.map fun e => (e.1, f e.2), m.ascending.map _ fun _ _ h => h⟩

/-- The entries of both maps, those of the second where both have one. -/
def union (m n : KeyMap α) : KeyMap α :=
  n.entries.foldl (fun acc e => acc.insert e.1 e.2) m

/-! ## What look-up sees -/

@[simp] theorem get?_empty (key : String) : (empty : KeyMap α).get? key = none := rfl

@[simp] theorem contains_empty (key : String) : (empty : KeyMap α).contains key = false := rfl

theorem lookup_insertEntry (key k : String) (value : α) (entries : List (String × α)) :
    lookup k (insertEntry key value entries) =
      if k = key then some value else lookup k entries := by
  induction entries with
  | nil => simp [insertEntry, lookup]
  | cons e rest ih =>
    obtain ⟨k', v'⟩ := e
    unfold insertEntry
    split
    · simp [lookup]
    · split
      · rename_i heq
        subst heq
        by_cases hk : k = key <;> simp [lookup, hk]
      · rename_i hne
        simp only [lookup, ih]
        by_cases hk : k = key
        · simp [hk, hne]
        · simp [hk]

/-- After an insertion the key has the new value, and every other key what it had. -/
theorem get?_insert (m : KeyMap α) (key k : String) (value : α) :
    (m.insert key value).get? k = if k = key then some value else m.get? k :=
  lookup_insertEntry key k value m.entries

/-- Where no key stands twice, a key has a value exactly when the entry is there. -/
theorem lookup_eq_some_iff_mem {entries : List (String × α)} {k : String} {v : α}
    (h : entries.Pairwise fun a b => a.1 ≠ b.1) :
    lookup k entries = some v ↔ (k, v) ∈ entries := by
  induction entries with
  | nil => simp [lookup]
  | cons e rest ih =>
    obtain ⟨k', v'⟩ := e
    obtain ⟨hk, hr⟩ := List.pairwise_cons.1 h
    rw [lookup]
    by_cases hkk : k = k'
    · subst hkk
      have hm : (k, v) ∉ rest := fun hm => hk (k, v) hm rfl
      simp [hm, eq_comm]
    · simp [hkk, ih hr]

/-- A key has a value exactly when the entry is there. -/
theorem get?_eq_some_iff {m : KeyMap α} {k : String} {v : α} :
    m.get? k = some v ↔ (k, v) ∈ m.entries :=
  lookup_eq_some_iff_mem (m.ascending.imp fun hlt => String.ne_of_lt hlt)

/-- Look-up in a filtered map. -/
theorem get?_filter (p : String → α → Bool) (m : KeyMap α) (k : String) :
    (m.filter p).get? k = (m.get? k).filter (p k) := by
  apply Option.ext
  intro v
  simp only [get?_eq_some_iff, Option.filter_eq_some_iff]
  simp [filter]

/-- After an erasure the key has no value, and every other key what it had. -/
theorem get?_erase (m : KeyMap α) (key k : String) :
    (m.erase key).get? k = if k = key then none else m.get? k := by
  unfold erase
  rw [get?_filter]
  by_cases h : k = key
  · cases m.get? k <;> simp [h, Option.filter]
  · cases m.get? k <;> simp [h, Option.filter]

/-- Look-up in the image of a map. -/
theorem get?_filterMap (f : String → α → Option β) (m : KeyMap α) (k : String) :
    (m.filterMap f).get? k = (m.get? k).bind (f k) := by
  apply Option.ext
  intro v
  simp only [get?_eq_some_iff, Option.bind_eq_some_iff]
  simp only [filterMap, List.mem_filterMap, Option.map_eq_some_iff, Prod.mk.injEq, Prod.exists]
  constructor
  · rintro ⟨a, b, hm, w, hw, rfl, rfl⟩
    exact ⟨b, hm, hw⟩
  · rintro ⟨b, hm, hw⟩
    exact ⟨k, b, hm, v, hw, rfl, rfl⟩

/-- Look-up in a map whose values were replaced. -/
theorem get?_mapValues (f : α → β) (m : KeyMap α) (k : String) :
    (m.mapValues f).get? k = (m.get? k).map f := by
  apply Option.ext
  intro v
  simp only [get?_eq_some_iff, Option.map_eq_some_iff]
  simp only [mapValues, List.mem_map, Prod.mk.injEq, Prod.exists]
  constructor
  · rintro ⟨a, b, hm, rfl, rfl⟩
    exact ⟨b, hm, rfl⟩
  · rintro ⟨b, hm, rfl⟩
    exact ⟨k, b, hm, rfl, rfl⟩

/-- Two maps in which every key has the same value are equal. -/
theorem ext_get? {m n : KeyMap α} (h : ∀ k, m.get? k = n.get? k) : m = n := by
  apply eq_of_entries
  have hmem : ∀ e, e ∈ m.entries ↔ e ∈ n.entries := fun ⟨k, v⟩ => by
    rw [← get?_eq_some_iff, ← get?_eq_some_iff, h]
  obtain ⟨xs, hx⟩ := m
  obtain ⟨ys, hy⟩ := n
  change ∀ e, e ∈ xs ↔ e ∈ ys at hmem
  change xs = ys
  clear h
  induction xs generalizing ys with
  | nil =>
    cases ys with
    | nil => rfl
    | cons y ys => exact absurd ((hmem y).2 (by simp)) (by simp)
  | cons x xs ih =>
    cases ys with
    | nil => exact absurd ((hmem x).1 (by simp)) (by simp)
    | cons y ys =>
      obtain ⟨hx₁, hx₂⟩ := List.pairwise_cons.1 hx
      obtain ⟨hy₁, hy₂⟩ := List.pairwise_cons.1 hy
      have hxy : x = y := by
        rcases List.mem_cons.1 ((hmem x).1 (by simp)) with h | h
        · exact h
        · rcases List.mem_cons.1 ((hmem y).2 (by simp)) with h' | h'
          · exact h'.symm
          · exact absurd (String.lt_trans (hx₁ _ h') (hy₁ _ h)) (String.lt_irrefl _)
      subst hxy
      rw [ih hx₂ ys hy₂ fun e => ?_]
      have := hmem e
      simp only [List.mem_cons] at this
      constructor
      · intro he
        rcases this.1 (.inr he) with rfl | h
        · exact absurd (hx₁ _ he) (String.lt_irrefl _)
        · exact h
      · intro he
        rcases this.2 (.inr he) with rfl | h
        · exact absurd (hy₁ _ he) (String.lt_irrefl _)
        · exact h

/-! ## Many entries at once -/

/-- A key that is below all keys of a list has no value in it. -/
theorem lookup_eq_none_of_lt {entries : List (String × α)} {k : String}
    (h : ∀ e ∈ entries, k < e.1) : lookup k entries = none := by
  induction entries with
  | nil => rfl
  | cons e rest ih =>
    have hk : k ≠ e.1 := fun hk => String.lt_irrefl k (hk ▸ h e List.mem_cons_self)
    rw [lookup, if_neg hk]
    exact ih fun e he => h e (List.mem_cons_of_mem _ he)

/-- After ascending entries are inserted a key has its value among them, or else what it had. -/
theorem get?_foldl_insert {entries : List (String × α)}
    (h : entries.Pairwise fun a b => a.1 < b.1) (m : KeyMap α) (k : String) :
    (entries.foldl (fun m e => m.insert e.1 e.2) m).get? k =
      (lookup k entries).or (m.get? k) := by
  induction entries generalizing m with
  | nil => rfl
  | cons e rest ih =>
    obtain ⟨hlt, hr⟩ := List.pairwise_cons.1 h
    rw [List.foldl_cons, ih hr, get?_insert, lookup]
    by_cases hk : k = e.1
    · subst hk
      simp [lookup_eq_none_of_lt hlt]
    · simp [hk]

/-- In the union of two maps a key has its value in the second, or else its value in the first. -/
theorem get?_union (m n : KeyMap α) (k : String) :
    (m.union n).get? k = (n.get? k).or (m.get? k) :=
  get?_foldl_insert n.ascending m k

/-- Every entry of a map that entries were inserted into was in the map or among them. -/
theorem mem_of_mem_foldl_insert {entries : List (String × α)} {m : KeyMap α} {e : String × α}
    (h : e ∈ (entries.foldl (fun m e => m.insert e.1 e.2) m).entries) :
    e ∈ m.entries ∨ e ∈ entries := by
  induction entries generalizing m with
  | nil => exact .inl h
  | cons f rest ih =>
    rcases ih h with h | h
    · obtain ⟨k, v⟩ := e
      rw [← get?_eq_some_iff, get?_insert] at h
      split at h
      · rename_i hk
        obtain rfl : f.2 = v := by simpa using h
        exact .inr (by rw [hk]; exact List.mem_cons_self)
      · exact .inl (get?_eq_some_iff.1 h)
    · exact .inr (List.mem_cons_of_mem _ h)

/-- The entries of the map of a list are among the members of the list. -/
theorem mem_of_mem_ofList {entries : List (String × α)} {e : String × α}
    (h : e ∈ (ofList entries).entries) : e ∈ entries :=
  (mem_of_mem_foldl_insert h).elim (fun h => absurd h (by simp [empty])) id

theorem lookup_append (key : String) (xs ys : List (String × α)) :
    lookup key (xs ++ ys) = (lookup key xs).or (lookup key ys) := by
  induction xs with
  | nil => rfl
  | cons e rest ih =>
    obtain ⟨k, v⟩ := e
    rw [List.cons_append, lookup, lookup, ih]
    split <;> rfl

theorem lookup_eq_none_iff {entries : List (String × α)} {k : String} :
    lookup k entries = none ↔ k ∉ entries.map Prod.fst := by
  induction entries with
  | nil => simp [lookup]
  | cons e rest ih =>
    obtain ⟨k', v'⟩ := e
    rw [lookup, List.map_cons, List.mem_cons, not_or]
    split
    · rename_i hk
      simp [hk]
    · rename_i hk
      rw [ih]
      simp [hk]

/-- In the map of a list a key has the value of the last entry that has it. -/
theorem get?_ofList (entries : List (String × α)) (k : String) :
    (ofList entries).get? k = lookup k entries.reverse := by
  have hfold (m : KeyMap α) : (entries.foldl (fun m e => m.insert e.1 e.2) m).get? k =
      (lookup k entries.reverse).or (m.get? k) := by
    induction entries generalizing m with
    | nil => rfl
    | cons e rest ih =>
      rw [List.foldl_cons, ih, get?_insert, List.reverse_cons, lookup_append, lookup, lookup]
      cases lookup k rest.reverse with
      | some v => rfl
      | none => split <;> rfl
  rw [ofList, hfold empty, get?_empty, Option.or_none]

/-- Where no key stands twice, the map of a list has just the entries of the list. -/
theorem get?_ofList_eq_some_iff {entries : List (String × α)} {k : String} {v : α}
    (h : entries.Pairwise fun a b => a.1 ≠ b.1) :
    (ofList entries).get? k = some v ↔ (k, v) ∈ entries := by
  have hreverse : entries.reverse.Pairwise fun a b => a.1 ≠ b.1 :=
    List.pairwise_reverse.mpr (h.imp fun hne => Ne.symm hne)
  rw [get?_ofList, lookup_eq_some_iff_mem hreverse, List.mem_reverse]

theorem get?_ofList_eq_none_iff {entries : List (String × α)} {k : String} :
    (ofList entries).get? k = none ↔ k ∉ entries.map Prod.fst := by
  rw [get?_ofList, lookup_eq_none_iff, List.map_reverse, List.mem_reverse]

/-- The map of a list in which the key of an entry determines its value. -/
theorem get?_ofList_map (keys : List String) (f : String → α) (k : String) :
    (ofList (keys.map fun key => (key, f key))).get? k =
      if k ∈ keys then some (f k) else none := by
  have hlookup (ks : List String) : lookup k (ks.map fun key => (key, f key)) =
      if k ∈ ks then some (f k) else none := by
    induction ks with
    | nil => rfl
    | cons key ks ih =>
      rw [List.map_cons, lookup, ih]
      by_cases hk : k = key
      · simp [hk]
      · simp [hk]
  rw [get?_ofList, ← List.map_reverse, hlookup]
  simp only [List.mem_reverse]

/-- The map of ascending entries has just these entries. -/
theorem ofList_eq_of_ascending {entries : List (String × α)}
    (h : entries.Pairwise fun a b => a.1 < b.1) : ofList entries = ⟨entries, h⟩ := by
  apply ext_get?
  intro k
  unfold ofList
  rw [get?_foldl_insert h, get?_empty, Option.or_none]
  rfl

/-! ## Changes that cancel -/

/-- A key is erased whatever its value was. -/
theorem erase_insert (m : KeyMap α) (key : String) (value : α) :
    (m.insert key value).erase key = m.erase key := by
  apply ext_get?
  intro k
  rw [get?_erase, get?_erase, get?_insert]
  split <;> rfl

theorem insert_eq_self {m : KeyMap α} {key : String} {value : α} (h : m.get? key = some value) :
    m.insert key value = m := by
  apply ext_get?
  intro k
  rw [get?_insert]
  split
  · rename_i hk
    rw [hk, h]
  · rfl

theorem erase_eq_self {m : KeyMap α} {key : String} (h : m.get? key = none) :
    m.erase key = m := by
  apply ext_get?
  intro k
  rw [get?_erase]
  split
  · rename_i hk
    rw [hk, h]
  · rfl

/-! ## Keys -/

theorem mem_keys_iff {m : KeyMap α} {k : String} : k ∈ m.keys ↔ ∃ v, m.get? k = some v := by
  unfold keys
  rw [List.mem_map]
  constructor
  · rintro ⟨e, he, rfl⟩
    exact ⟨e.2, get?_eq_some_iff.mpr he⟩
  · rintro ⟨v, hv⟩
    exact ⟨(k, v), get?_eq_some_iff.mp hv, rfl⟩

theorem nodup_keys (m : KeyMap α) : m.keys.Nodup := by
  refine List.Pairwise.map _ (fun a b (hab : a.1 < b.1) => ?_) m.ascending
  intro h
  rw [h] at hab
  exact String.lt_irrefl _ hab

theorem isEmpty_iff {m : KeyMap α} : m.isEmpty = true ↔ m = empty := by
  unfold isEmpty
  rw [List.isEmpty_iff]
  exact ⟨fun h => eq_of_entries h, fun h => by rw [h]; rfl⟩

end KeyMap

/-! ## Sets of strings -/

/-- A finite set of strings, in ascending order. -/
abbrev KeySet := KeyMap Unit

namespace KeySet

/-- The set with one member more. -/
def add (s : KeySet) (key : String) : KeySet := KeyMap.insert s key ()

/-- The set of the members of a list. -/
def ofMembers (members : List String) : KeySet := members.foldl add KeyMap.empty

theorem contains_add (s : KeySet) (key k : String) :
    (s.add key).contains k = (k == key || s.contains k) := by
  unfold add KeyMap.contains
  rw [KeyMap.get?_insert]
  by_cases h : k = key <;> simp [h]

theorem contains_erase (s : KeySet) (key k : String) :
    KeyMap.contains (s.erase key) k = (k != key && s.contains k) := by
  unfold KeyMap.contains
  rw [KeyMap.get?_erase]
  by_cases h : k = key <;> simp [h]

/-- Sets with the same members are equal. -/
theorem ext_contains {s t : KeySet} (h : ∀ k, s.contains k = t.contains k) : s = t := by
  apply KeyMap.ext_get?
  intro k
  have hk := h k
  unfold KeyMap.contains at hk
  cases hs : s.get? k <;> cases ht : t.get? k <;> simp_all

theorem contains_iff_mem_keys {s : KeySet} {k : String} : s.contains k = true ↔ k ∈ s.keys := by
  rw [KeyMap.contains, Option.isSome_iff_exists, KeyMap.mem_keys_iff]

theorem contains_ofMembers (members : List String) (k : String) :
    (ofMembers members).contains k = decide (k ∈ members) := by
  have hfold (s : KeySet) : (members.foldl add s).contains k =
      (s.contains k || decide (k ∈ members)) := by
    induction members generalizing s with
    | nil => simp
    | cons key members ih =>
      rw [List.foldl_cons, ih, contains_add]
      by_cases hk : k = key <;> simp [hk, Bool.or_assoc]
  rw [ofMembers, hfold]
  rfl

/-- A set is that of its members. -/
theorem ofMembers_keys (s : KeySet) : ofMembers s.keys = s := by
  apply ext_contains
  intro k
  rw [contains_ofMembers, Bool.eq_iff_iff, decide_eq_true_eq, contains_iff_mem_keys]

/-- A set in which nothing is to be erased stays as it is. -/
theorem erase_of_not_contains {s : KeySet} {key : String} (h : s.contains key = false) :
    KeyMap.erase s key = s := by
  refine KeyMap.erase_eq_self (Option.not_isSome_iff_eq_none.mp ?_)
  rw [← KeyMap.contains, h]
  exact Bool.false_ne_true

end KeySet

end LivePage
