import LivePage.Proofs.DataSource.Loading
import LivePage.Proofs.DataSource.Visibility

/-!
# What a page sees after loading

Loading for a page stores a result for each source in force on it, in the scope in which the page
then looks for it, and changes no other result.

* `Catalog.get?_refresh_of_mem`: what is stored for a source in force.
* `Catalog.lookup_refresh`: what its id stands for on the page.
* `Catalog.refresh_settles`: the page, the rest of the store, the failures, and loading again.
-/

namespace LivePage

/-- Whether a name is bound to a source that failed. -/
def Binding.isError : Binding → Bool
  | .error _ => true
  | _ => false

theorem Resolution.isError_toBinding (r : Resolution) : r.toBinding.isError = r.isError := by
  cases r <;> rfl

namespace Catalog

variable {c : Catalog} {page : String} {network : Network} {store : ResultStore} {scope : Scope}
  {d : DataSource}

theorem get?_refresh_of_mem (hc : c.DistinctIds) (hd : (scope, d) ∈ c.scopedSources page) :
    (c.refresh network page store).2.get? scope d.id = some (d.fetch network) := by
  -- Ids are distinct among all sources in force, so they are within each scope.
  have hnodup : ((c.scopedSources page).map fun s => (s.1, s.2.id)).Nodup := by
    refine List.Nodup.of_map Prod.snd ?_
    rw [List.map_map]
    exact nodup_map_id_scopedSources hc page
  exact get?_refreshEach_of_mem hnodup hd

/-- After loading, the id of a source in force stands for what was loaded. -/
theorem lookup_refresh (hc : c.DistinctIds) (hd : (scope, d) ∈ c.scopedSources page) :
    (c.buildContext page (c.refresh network page store).2.resolve).lookup d.id =
      some (d.fetch network).toBinding := by
  rw [lookup_of_mem_scopedSources hc hd, ResultStore.resolve, get?_refresh_of_mem hc hd]
  rfl

/-- What is not in force on the page has the result that it had. -/
theorem get?_refresh_of_not_mem {id : String}
    (h : ∀ d, (scope, d) ∈ c.scopedSources page → d.id ≠ id) :
    (c.refresh network page store).2.get? scope id = store.get? scope id :=
  get?_refreshEach_of_not_mem h

/-- A global source that the page hides has the result that it had. -/
theorem get?_refresh_of_hidden {id : String} (h : id ∈ (c.pageSources page).map DataSource.id) :
    (c.refresh network page store).2.get? .global id = store.get? .global id := by
  refine get?_refresh_of_not_mem fun d hd => ?_
  rintro rfl
  rcases mem_scopedSources_iff.mp hd with ⟨-, hvisible⟩ | ⟨hscope, -⟩
  · exact (mem_visibleGlobals_iff.mp hvisible).2.2 h
  · cases hscope

/-- As many sources failed as ids in force stand for a failure. -/
theorem refresh_fst (hc : c.DistinctIds) :
    (c.refresh network page store).1 = (c.activeSources page).countP fun d =>
      ((c.buildContext page (c.refresh network page store).2.resolve).lookup d.id).any
        Binding.isError := by
  have hcount : (c.refresh network page store).1 =
      (c.scopedSources page).countP fun s => (s.2.fetch network).isError :=
    refreshEach_fst network _ store
  rw [hcount, activeSources, List.countP_map]
  refine List.countP_congr fun s hs => ?_
  rw [Function.comp_apply, lookup_refresh hc hs, Option.any_some, Resolution.isError_toBinding]

/-- **After loading, a page sees what was loaded, and nothing else has changed.** Where ids are
distinct within scopes, every source in force on the page has a value or has failed, and its id
stands for that. Every other result is what it was, also that of a global source which the page
hides. The failures that are counted are the sources in force whose ids stand for one. Loading again
gives the same results and the same number of failures. -/
theorem refresh_settles (network : Network) (c : Catalog) (hc : c.DistinctIds) (page : String)
    (store : ResultStore) :
    (∀ scope d, (scope, d) ∈ c.scopedSources page →
      d.fetch network ≠ .pending ∧
      (c.buildContext page (c.refresh network page store).2.resolve).lookup d.id =
        some (d.fetch network).toBinding) ∧
    (∀ scope id, (∀ d, (scope, d) ∈ c.scopedSources page → d.id ≠ id) →
      (c.refresh network page store).2.get? scope id = store.get? scope id) ∧
    (∀ id ∈ (c.pageSources page).map DataSource.id,
      (c.refresh network page store).2.get? .global id = store.get? .global id) ∧
    (c.refresh network page store).1 = ((c.activeSources page).countP fun d =>
      ((c.buildContext page (c.refresh network page store).2.resolve).lookup d.id).any
        Binding.isError) ∧
    c.refresh network page (c.refresh network page store).2 = c.refresh network page store :=
  ⟨fun _ d hd => ⟨d.fetch_ne_pending network, lookup_refresh hc hd⟩,
    fun _ _ h => get?_refresh_of_not_mem h, fun _ h => get?_refresh_of_hidden h, refresh_fst hc,
    refreshEach_refreshEach network (c.scopedSources page) store⟩

/-- A network that knows one address. -/
def usersNetwork : Network := fun d =>
  if d.options.url == "/users" then .ok (.str "Ada") else .error "HTTP 404"

/-- The orders that all pages may refer to have been loaded before. -/
def ordersStore : ResultStore := ResultStore.empty.applyValue .global "orders" (.str "42")

theorem refresh_settles_home :
    (History.ofEdits ordersEdits).catalog.DistinctIds ∧
      (Scope.page "home", ownOrders) ∈ (History.ofEdits ordersEdits).catalog.scopedSources "home" ∧
      ((History.ofEdits ordersEdits).catalog.refresh usersNetwork "home" ordersStore).1 = 1 ∧
      ((History.ofEdits ordersEdits).catalog.buildContext "home"
        ((History.ofEdits ordersEdits).catalog.refresh usersNetwork "home"
          ordersStore).2.resolve).lookup "orders" = some (.error "HTTP 404") ∧
      ((History.ofEdits ordersEdits).catalog.refresh usersNetwork "home" ordersStore).2.get?
        .global "orders" = some (.value (.str "42")) := by
  have hdistinct : (History.ofEdits ordersEdits).catalog.DistinctIds :=
    (obtained_of_edits ordersEdits).soundSources.distinctIds
  have hown : (Scope.page "home", ownOrders) ∈
      (History.ofEdits ordersEdits).catalog.scopedSources "home" := by
    have hscoped : (History.ofEdits ordersEdits).catalog.scopedSources "home" =
        [(.global, DataSource.new "users" (RequestOptions.get "/users")),
          (.page "home", ownOrders)] := rfl
    simp [hscoped]
  obtain ⟨hfresh, -, hhidden, -, -⟩ :=
    refresh_settles usersNetwork _ hdistinct "home" ordersStore
  refine ⟨hdistinct, hown, rfl, (hfresh _ _ hown).2, ?_⟩
  exact hhidden "orders" (List.mem_singleton.mpr rfl)

end Catalog

end LivePage
