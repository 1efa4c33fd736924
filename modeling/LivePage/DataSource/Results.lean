import LivePage.Collection.Keyed
import LivePage.DataSource.Basic
import LivePage.Expr.Context

/-!
# Results of data sources

The latest result of every source that has been loaded. Sources live in scopes, so two pages may
have sources of one id with results of their own; a source without a stored result counts as
loading.
-/

namespace LivePage

/-- The state of a source: loading, loaded, or failed. -/
inductive Resolution
  | pending
  | value (value : Json)
  | error (message : String)

/-- What a name bound to a source stands for. -/
def Resolution.toBinding : Resolution → Binding
  | .pending => .pending
  | .value v => .value v
  | .error message => .error message

/-- Where a source is defined: for all pages, or for one. -/
inductive Scope
  | global
  | page (name : String)
deriving DecidableEq

/-- The result of a source. -/
structure StoredResult where
  scope : Scope
  id : String
  resolution : Resolution

/-- What tells stored results apart. -/
def StoredResult.key (r : StoredResult) : Scope × String := (r.scope, r.id)

/-- The results of sources, one for each scope and id. -/
structure ResultStore where
  entries : List StoredResult

namespace ResultStore

/-- The store without results. -/
def empty : ResultStore := ⟨[]⟩

/-- The stored result of a source. -/
def get? (s : ResultStore) (scope : Scope) (id : String) : Option Resolution :=
  (Keyed.get? StoredResult.key (scope, id) s.entries).map StoredResult.resolution

/-- Stores a result in place of the one before. -/
def apply (s : ResultStore) (scope : Scope) (id : String) (r : Resolution) : ResultStore :=
  ⟨Keyed.put StoredResult.key ⟨scope, id, r⟩ s.entries⟩

/-- Stores a value. -/
def applyValue (s : ResultStore) (scope : Scope) (id : String) (v : Json) : ResultStore :=
  s.apply scope id (.value v)

/-- The store without the result of a source. -/
def forget (s : ResultStore) (scope : Scope) (id : String) : ResultStore :=
  ⟨Keyed.remove StoredResult.key (scope, id) s.entries⟩

/-- The store without the results of a scope. -/
def forgetScope (s : ResultStore) (scope : Scope) : ResultStore :=
  ⟨s.entries.filter fun r => r.scope != scope⟩

/-- How many results of a scope are stored. -/
def scopeSize (s : ResultStore) (scope : Scope) : Nat :=
  (s.entries.filter fun r => r.scope == scope).length

/-- How many results are stored. -/
def size (s : ResultStore) : Nat := s.entries.length

/-- Whether no result is stored. -/
def isEmpty (s : ResultStore) : Bool := s.entries.isEmpty

/-- The state of a source. -/
def resolve (s : ResultStore) (scope : Scope) (d : DataSource) : Resolution :=
  (s.get? scope d.id).getD .pending

/-- After a result is stored, its source has it and every other source what it had. -/
theorem get?_apply (s : ResultStore) (scope sc : Scope) (id i : String) (r : Resolution) :
    (s.apply scope id r).get? sc i = if scope = sc ∧ id = i then some r else s.get? sc i := by
  unfold apply get?
  rw [Keyed.get?_put]
  by_cases h : scope = sc ∧ id = i
  · obtain ⟨rfl, rfl⟩ := h
    simp [StoredResult.key]
  · have h' : StoredResult.key ⟨scope, id, r⟩ ≠ (sc, i) := by
      simpa [StoredResult.key] using h
    rw [if_neg h, if_neg h']

/-- A forgotten result is not there, and every other source has what it had. -/
theorem get?_forget (s : ResultStore) (scope sc : Scope) (id i : String) :
    (s.forget scope id).get? sc i = if scope = sc ∧ id = i then none else s.get? sc i := by
  unfold forget get?
  by_cases h : scope = sc ∧ id = i
  · rw [if_pos h, h.1, h.2, Keyed.get?_remove_self]
    rfl
  · have hne : (sc, i) ≠ (scope, id) := fun heq => h (Prod.mk.inj heq.symm)
    rw [if_neg h, Keyed.get?_remove_of_ne _ hne]

/-- A forgotten scope has no results, and every other one what it had. -/
theorem get?_forgetScope (s : ResultStore) (scope sc : Scope) (i : String) :
    (s.forgetScope scope).get? sc i = if scope = sc then none else s.get? sc i := by
  have hfilter : (s.forgetScope scope).get? sc i = (if sc != scope then
      Keyed.get? StoredResult.key (sc, i) s.entries else none).map StoredResult.resolution :=
    congrArg _ (Keyed.get?_filter StoredResult.key (fun k => k.1 != scope) (sc, i) s.entries)
  rw [hfilter, get?]
  by_cases h : scope = sc
  · simp [h]
  · simp [h, Ne.symm h]

end ResultStore

end LivePage
