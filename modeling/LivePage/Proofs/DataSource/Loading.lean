import Mathlib.Data.List.Nodup
import LivePage.DataSource.Loading
import LivePage.Proofs.Collection.KeyedOverwrite

/-!
# What loading stores

Loading sources puts one result for each of them, in their order.

* `Catalog.refreshEach_fst`, `Catalog.refreshEach_snd`: the failures, and the stored results.
* `Catalog.get?_refreshEach_of_mem`: what is loaded, and what it has then.
* `Catalog.get?_refreshEach_of_not_mem`: what is not loaded has what it had.
* `Catalog.get?_refreshEach_congr`: what is loaded does not depend on the results before.
* `Catalog.refreshEach_refreshEach`: loading the same sources again changes nothing.
-/

namespace LivePage

/-- Whether a source failed. -/
def Resolution.isError : Resolution → Bool
  | .error _ => true
  | _ => false

/-- A source that is loaded has a value or has failed. -/
theorem DataSource.fetch_ne_pending (network : Network) (d : DataSource) :
    d.fetch network ≠ .pending := by
  rw [fetch]
  split
  · nofun
  · split
    · nofun
    · split <;> nofun

/-- The result of a source as it is stored. -/
def Network.load (network : Network) (s : Scope × DataSource) : StoredResult :=
  ⟨s.1, s.2.id, s.2.fetch network⟩

namespace Catalog

variable {network : Network} {sources : List (Scope × DataSource)} {store store' : ResultStore}
  {scope : Scope} {id : String}

theorem refreshEach_snd (network : Network) (sources : List (Scope × DataSource))
    (store : ResultStore) :
    (refreshEach network sources store).2 =
      ⟨Keyed.putAll StoredResult.key (sources.map network.load) store.entries⟩ := by
  induction sources generalizing store with
  | nil => rfl
  | cons s sources ih =>
    obtain ⟨scope, d⟩ := s
    -- Whether the source failed changes the count alone.
    have hstore : (refreshEach network ((scope, d) :: sources) store).2 =
        (refreshEach network sources (store.apply scope d.id (d.fetch network))).2 := by
      rw [refreshEach]
      cases d.fetch network <;> rfl
    rw [hstore, ih]
    rfl

/-- The failures are counted. -/
theorem refreshEach_fst (network : Network) (sources : List (Scope × DataSource))
    (store : ResultStore) :
    (refreshEach network sources store).1 =
      sources.countP fun s => (s.2.fetch network).isError := by
  induction sources generalizing store with
  | nil => rfl
  | cons s sources ih =>
    obtain ⟨scope, d⟩ := s
    rw [refreshEach, List.countP_cons, ← ih (store.apply scope d.id (d.fetch network))]
    cases d.fetch network <;> rfl

theorem get?_refreshEach (network : Network) (sources : List (Scope × DataSource))
    (store : ResultStore) (scope : Scope) (id : String) :
    (refreshEach network sources store).2.get? scope id =
      ((Keyed.get? StoredResult.key (scope, id) (sources.map network.load).reverse).map
        StoredResult.resolution).or (store.get? scope id) := by
  rw [refreshEach_snd, ResultStore.get?, Keyed.get?_putAll, Option.map_or]
  rfl

/-- Where no source stands twice, each one that is loaded has its result. -/
theorem get?_refreshEach_of_mem {d : DataSource}
    (hnodup : (sources.map fun s => (s.1, s.2.id)).Nodup) (h : (scope, d) ∈ sources) :
    (refreshEach network sources store).2.get? scope d.id = some (d.fetch network) := by
  have hkeys : ((sources.map network.load).reverse.map StoredResult.key).Nodup := by
    rw [List.map_reverse, List.nodup_reverse, List.map_map]
    exact hnodup
  have hmem : network.load (scope, d) ∈ (sources.map network.load).reverse :=
    List.mem_reverse.mpr (List.mem_map_of_mem h)
  have hfound : Keyed.get? StoredResult.key (scope, d.id) (sources.map network.load).reverse =
      some (network.load (scope, d)) := Keyed.get?_of_mem hkeys hmem
  rw [get?_refreshEach, hfound]
  rfl

/-- What is not loaded has what it had. -/
theorem get?_refreshEach_of_not_mem (h : ∀ d, (scope, d) ∈ sources → d.id ≠ id) :
    (refreshEach network sources store).2.get? scope id = store.get? scope id := by
  have hnone : Keyed.get? StoredResult.key (scope, id) (sources.map network.load).reverse =
      none := by
    rw [← Option.not_isSome_iff_eq_none, Keyed.isSome_get?_reverse_iff, List.map_map, List.mem_map]
    rintro ⟨⟨sc, d⟩, hd, heq⟩
    obtain ⟨rfl, rfl⟩ := Prod.mk.inj heq
    exact h d hd rfl
  rw [get?_refreshEach, hnone]
  rfl

/-- What is loaded does not depend on the results before. -/
theorem get?_refreshEach_congr (h : store.get? scope id = store'.get? scope id) :
    (refreshEach network sources store).2.get? scope id =
      (refreshEach network sources store').2.get? scope id := by
  rw [get?_refreshEach, get?_refreshEach, h]

/-- Loading the same sources again gives the same results and the same failures. -/
theorem refreshEach_refreshEach (network : Network) (sources : List (Scope × DataSource))
    (store : ResultStore) :
    refreshEach network sources (refreshEach network sources store).2 =
      refreshEach network sources store := by
  refine Prod.ext ?_ ?_
  · rw [refreshEach_fst, refreshEach_fst]
  · rw [refreshEach_snd, refreshEach_snd, Keyed.putAll_putAll]

end Catalog

end LivePage
