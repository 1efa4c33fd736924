import LivePage.Json.Basic

/-!
# Reading records

What the types of the library have in common when they are read from JSON.

* `Record.ofRaw?`: a record is an object, whose unknown keys are ignored and whose known keys stand
  at most once, or an array of the fields in their declared order, from which trailing ones may be
  left out.
* `Record.required`, `Record.optional`, `Record.nullable`: one field of a record.
* `string?`, `bool?`, `natural?`, `list?`, `map?`: the shapes of fields.
* `choice?`: one of several names, alone or as the only key of an object that holds null.
* `list?_write_eq_some_iff`, `map?_write_eq_some_iff`: the lists and maps that are read back as they
  were written.
-/

namespace LivePage

/-- The fields that were given of a record, by name. -/
structure Record where
  fields : List (String × RawJson)

namespace Record

/-- The known fields of an object; none of them may be given twice. -/
def ofFields? (names : List String) (fields : List (String × RawJson)) : Option Record :=
  let known := fields.filter fun f => names.contains f.1
  if (known.map Prod.fst).Nodup then some ⟨known⟩ else none

/-- The fields of an array; there may be no more than the record has. -/
def ofItems? (names : List String) (items : List RawJson) : Option Record :=
  if items.length ≤ names.length then some ⟨names.zip items⟩ else none

/-- A record with the given field names, in declared order. -/
def ofRaw? (names : List String) : RawJson → Option Record
  | .obj fields => ofFields? names fields
  | .arr items => ofItems? names items
  | _ => none

variable {α : Type}

/-- A field as it was given. -/
def get? (r : Record) (name : String) : Option RawJson := KeyMap.lookup name r.fields

/-- A field that must be given. -/
def required (r : Record) (name : String) (read : RawJson → Option α) : Option α :=
  (r.get? name).bind read

/-- A field that has a default. -/
def optional (r : Record) (name : String) (default : α) (read : RawJson → Option α) : Option α :=
  match r.get? name with
  | some j => read j
  | none => some default

/-- What a field with a default gives was read or is the default. -/
theorem exists_read_of_optional {r : Record} {name : String} {default a : α}
    {read : RawJson → Option α} (h : r.optional name default read = some a) :
    (∃ j, read j = some a) ∨ a = default := by
  unfold optional at h
  split at h
  · exact .inl ⟨_, h⟩
  · exact .inr (Option.some.inj h).symm

/-- A field that may be left out or null. -/
def nullable (r : Record) (name : String) (read : RawJson → Option α) : Option (Option α) :=
  match r.get? name with
  | none => some none
  | some .null => some none
  | some j => (read j).map some

end Record

namespace RawJson

variable {α : Type}

/-- A string. -/
def string? : RawJson → Option String
  | .str s => some s
  | _ => none

/-- A truth value. -/
def bool? : RawJson → Option Bool
  | .bool b => some b
  | _ => none

/-- An integer that is not negative; a double never is one. -/
def natural? : RawJson → Option Nat
  | .num (.int i) => if 0 ≤ i then some i.toNat else none
  | _ => none

/-- An array of things that can be read. -/
def list? (read : RawJson → Option α) : RawJson → Option (List α)
  | .arr items => items.mapM read
  | _ => none

/-- An object that maps its keys to things that can be read; of a repeated key the last counts, but
all must be readable. -/
def map? (read : RawJson → Option α) : RawJson → Option (KeyMap α)
  | .obj fields =>
    (fields.mapM fun f => (read f.2).map fun value => (f.1, value)).map KeyMap.ofList
  | _ => none

/-- One of several named choices: its name, or an object that has the name as its only key and null
under it. -/
def choice? (choices : List (String × α)) : RawJson → Option α
  | .str name => KeyMap.lookup name choices
  | .obj [(name, .null)] => KeyMap.lookup name choices
  | _ => none

/-! ## Lists and maps -/

/-- A list is read to the end when every member can be read. -/
theorem mapM_eq_some_iff {β : Type} {f : α → Option β} {xs : List α} {ys : List β} :
    xs.mapM f = some ys ↔ xs.map f = ys.map some := by
  induction xs generalizing ys with
  | nil => cases ys <;> simp
  | cons x xs ih =>
    rw [List.mapM_cons, List.map_cons]
    cases hx : f x with
    | none => cases ys <;> simp
    | some y => cases ys <;> simp [Option.bind_eq_some_iff, ← ih, and_comm, and_assoc]

/-- A list that is written item by item is read back exactly when each of its items is. -/
theorem list?_write_eq_some_iff (read : RawJson → Option α) (write : α → RawJson) {xs : List α} :
    list? read (.arr (xs.map write)) = some xs ↔ ∀ x ∈ xs, read (write x) = some x := by
  rw [list?, mapM_eq_some_iff, List.map_map, List.map_inj_left]
  rfl

theorem exists_read_of_list? {read : RawJson → Option α} {d : RawJson} {xs : List α}
    (h : list? read d = some xs) {x : α} (hx : x ∈ xs) : ∃ d', read d' = some x := by
  cases d with
  | arr items =>
    rw [list?, mapM_eq_some_iff] at h
    have hmem : some x ∈ xs.map some := List.mem_map_of_mem hx
    rw [← h, List.mem_map] at hmem
    obtain ⟨d', -, hread⟩ := hmem
    exact ⟨d', hread⟩
  | _ => exact absurd h (by simp [list?])

/-- A map is that of the values which are read under the keys of an object. -/
theorem map?_obj_eq_some_iff {read : RawJson → Option α} {fields : List (String × RawJson)}
    {m : KeyMap α} :
    map? read (.obj fields) = some m ↔
      ∃ entries : List (String × α), KeyMap.ofList entries = m ∧
        (fields.map fun f => (read f.2).map (f.1, ·)) = entries.map some := by
  rw [map?, Option.map_eq_some_iff]
  simp only [mapM_eq_some_iff]
  exact exists_congr fun entries => and_comm

/-- Every value of a map that is read is read from a field with its key. -/
theorem exists_field_of_map? {read : RawJson → Option α} {fields : List (String × RawJson)}
    {m : KeyMap α} (h : map? read (.obj fields) = some m) {e : String × α} (he : e ∈ m.entries) :
    ∃ f ∈ fields, f.1 = e.1 ∧ read f.2 = some e.2 := by
  obtain ⟨entries, rfl, hentries⟩ := map?_obj_eq_some_iff.mp h
  have hmem : some e ∈ entries.map some := List.mem_map_of_mem (KeyMap.mem_of_mem_ofList he)
  rw [← hentries, List.mem_map] at hmem
  obtain ⟨f, hf, hread⟩ := hmem
  obtain ⟨value, hvalue, rfl⟩ := Option.map_eq_some_iff.mp hread
  exact ⟨f, hf, rfl, hvalue⟩

theorem exists_read_of_map? {read : RawJson → Option α} {d : RawJson} {m : KeyMap α}
    (h : map? read d = some m) {e : String × α} (he : e ∈ m.entries) :
    ∃ d', read d' = some e.2 := by
  cases d with
  | obj fields =>
    obtain ⟨f, -, -, hread⟩ := exists_field_of_map? h he
    exact ⟨f.2, hread⟩
  | _ => exact absurd h (by simp [map?])

/-- The keys of what is read are those of the object. -/
theorem keys_eq_of_map_eq {read : RawJson → Option α} {fields : List (String × RawJson)}
    {entries : List (String × α)}
    (h : (fields.map fun f => (read f.2).map (f.1, ·)) = entries.map some) :
    entries.map Prod.fst = fields.map Prod.fst := by
  induction fields generalizing entries with
  | nil => simpa using h.symm
  | cons f fields ih =>
    cases entries with
    | nil => simp at h
    | cons e entries =>
      obtain ⟨hf, hfields⟩ := List.cons.inj h
      obtain ⟨value, -, rfl⟩ := Option.map_eq_some_iff.mp hf
      rw [List.map_cons, List.map_cons, ih hfields]

/-- A map that is written entry by entry is read back exactly when each of its values is. -/
theorem map?_write_eq_some_iff (read : RawJson → Option α) (write : α → RawJson) {m : KeyMap α} :
    map? read (.obj (m.entries.map fun e => (e.1, write e.2))) = some m ↔
      ∀ e ∈ m.entries, read (write e.2) = some e.2 := by
  have hread : (∀ e ∈ m.entries, read (write e.2) = some e.2) ↔
      (m.entries.map fun e => (read (write e.2)).map (e.1, ·)) = m.entries.map some := by
    rw [List.map_inj_left]
    refine forall₂_congr fun e _ => ?_
    cases read (write e.2) <;> simp [Prod.ext_iff]
  rw [map?_obj_eq_some_iff, hread, List.map_map]
  constructor
  · rintro ⟨entries, hm, hentries⟩
    -- What was read has the keys of the map in their order, so it is all that the map holds.
    have hkeys : entries.map Prod.fst = m.entries.map Prod.fst := by
      rw [← List.map_map] at hentries
      rw [keys_eq_of_map_eq hentries, List.map_map]
      rfl
    have hascending : entries.Pairwise fun a b => a.1 < b.1 := by
      rw [← List.pairwise_map (R := (· < ·)), hkeys, List.pairwise_map]
      exact m.ascending
    rw [KeyMap.ofList_eq_of_ascending hascending] at hm
    rw [← hm]
    rw [← hm] at hentries
    exact hentries
  · intro h
    exact ⟨m.entries, KeyMap.ofList_eq_of_ascending m.ascending, h⟩

end RawJson

end LivePage
