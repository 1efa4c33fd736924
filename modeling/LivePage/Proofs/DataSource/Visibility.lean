import LivePage.Proofs.DataSource.Integrity

/-!
# What a page fetches and what it sees

A page fetches the sources in force on it, and its expressions see the bindings of its context. The
one is a filtered list, the other layers of bindings; in both a source of the page hides a global
one of its id.

* `DistinctIds`: no id is given twice within a scope; `Obtained.distinctIds` says that it is so in
  every catalog that is read or edited.
* `mem_scopedSources_iff`: the sources in force on a page.
* `lookup_buildContext`: what a name stands for on a page, one layer after the other.
* `scopedSources_visible`: the names that are bound are the ids of the sources in force, each to the
  state of its source.
-/

namespace LivePage

namespace Catalog

variable {c c' : Catalog} {page : String}

/-! ## Distinct ids -/

/-- No two global sources have the same id, and no two sources of a page. -/
structure DistinctIds (c : Catalog) : Prop where
  globals : (c.globals.map DataSource.id).Nodup
  pages : ∀ page, ((c.pageSources page).map DataSource.id).Nodup

theorem SoundSources.distinctIds (h : c.SoundSources) : c.DistinctIds :=
  ⟨h.globals.nodup, fun page => (h.pages page).nodup⟩

/-- The catalogs that there are: the empty one, those read from texts, and what operations on stored
catalogs leave. -/
inductive Obtained : Catalog → Prop
  | empty : Obtained empty
  | read {text : String} {c : Catalog} (h : ofText text = .ok c) : Obtained c
  | edited {c : Catalog} (h : Obtained c) (e : Edit) : Obtained (e.run c).2

theorem obtained_of_edits (edits : List Edit) : Obtained (History.ofEdits edits).catalog := by
  induction edits using List.reverseRecOn with
  | nil => exact .empty
  | append_singleton edits e ih =>
    rw [History.ofEdits_concat]
    exact ih.edited e

theorem soundIds_of_checkPages {pages : List (String × List DataSource)}
    (h : checkPages pages = .ok ()) : ∀ entry ∈ pages, SoundIds entry.2 := by
  induction pages with
  | nil => simp
  | cons entry pages ih =>
    obtain ⟨page, ds⟩ := entry
    rw [checkPages] at h
    split at h
    · cases h
    · rename_i hids
      exact List.forall_mem_cons.mpr ⟨checkIds_eq_ok_iff.mp hids, ih h⟩

/-- What passes the check of a read catalog. -/
theorem soundSources_of_checkAll (h : c.checkAll = .ok c') : c'.SoundSources := by
  rw [checkAll] at h
  split at h
  · cases h
  · rename_i hglobals
    split at h
    · cases h
    · rename_i hpages
      cases h
      refine ⟨checkIds_eq_ok_iff.mp hglobals, fun page => ?_⟩
      rw [pageSources]
      cases hpage : c.pageSourceMap.get? page with
      | none => exact .nil
      | some ds => exact soundIds_of_checkPages hpages _ (KeyMap.get?_eq_some_iff.mp hpage)

theorem soundSources_of_ofText {text : String} (h : ofText text = .ok c) : c.SoundSources := by
  rw [ofText] at h
  split at h
  · cases h
  · rw [ofDocument] at h
    split at h
    · cases h
    · exact soundSources_of_checkAll h

theorem Obtained.soundSources (h : Obtained c) : c.SoundSources := by
  induction h with
  | empty => exact soundSources_empty
  | read hread => exact soundSources_of_ofText hread
  | @edited c _ e ih =>
    rcases e.run_cases c with ⟨answer, c', hrun, heffect⟩ | ⟨error, hrun⟩
    · rw [hrun]
      exact ih.effect heffect
    · rw [hrun]
      exact ih

/-! ## The sources in force -/

/-- Whether a page has a source of an id. -/
def hides (c : Catalog) (page id : String) : Bool := (c.pageSources page).any fun d => d.id == id

theorem hides_iff {id : String} :
    c.hides page id = true ↔ id ∈ (c.pageSources page).map DataSource.id := by
  rw [hides, List.any_eq_true, List.mem_map]
  simp only [beq_iff_eq]

/-- The global sources in force on a page. -/
def visibleGlobals (c : Catalog) (page : String) : List DataSource :=
  c.globals.filter fun d => c.isReferenced page d.id && !c.hides page d.id

theorem mem_visibleGlobals_iff {d : DataSource} :
    d ∈ c.visibleGlobals page ↔
      d ∈ c.globals ∧ c.isReferenced page d.id = true ∧
        d.id ∉ (c.pageSources page).map DataSource.id := by
  rw [visibleGlobals, List.mem_filter, ← hides_iff]
  simp

theorem scopedSources_eq (c : Catalog) (page : String) :
    c.scopedSources page = (c.visibleGlobals page).map (fun d => (.global, d)) ++
      (c.pageSources page).map fun d => (.page page, d) := by
  have hvisible : (c.referencedGlobals page).filter
      (fun d => !(c.pageSources page).any fun l => l.id == d.id) = c.visibleGlobals page := by
    rw [referencedGlobals, List.filter_filter, visibleGlobals]
    refine List.filter_congr fun d _ => ?_
    rw [Bool.and_comm]
    rfl
  rw [scopedSources, hvisible]

theorem mem_scopedSources_iff {scope : Scope} {d : DataSource} :
    (scope, d) ∈ c.scopedSources page ↔
      scope = .global ∧ d ∈ c.visibleGlobals page ∨
        scope = .page page ∧ d ∈ c.pageSources page := by
  rw [scopedSources_eq, List.mem_append]
  simp [and_comm, eq_comm]

/-- The ids of the sources in force. -/
theorem map_id_scopedSources (c : Catalog) (page : String) :
    (c.scopedSources page).map (fun s => s.2.id) =
      (c.visibleGlobals page).map DataSource.id ++ (c.pageSources page).map DataSource.id := by
  rw [scopedSources_eq, List.map_append, List.map_map, List.map_map]
  rfl

theorem nodup_map_id_scopedSources (h : c.DistinctIds) (page : String) :
    ((c.scopedSources page).map fun s => s.2.id).Nodup := by
  rw [map_id_scopedSources, List.nodup_append]
  refine ⟨h.globals.sublist (List.filter_sublist.map _), h.pages page, ?_⟩
  rintro _ hid _ hlocal rfl
  obtain ⟨d, hd, rfl⟩ := List.mem_map.mp hid
  exact (mem_visibleGlobals_iff.mp hd).2.2 hlocal

/-! ## The layers of a context -/

/-- The bindings of sources of one scope. -/
def bindings (resolve : Scope → DataSource → Resolution) (scope : Scope) (ds : List DataSource) :
    List (String × Binding) :=
  ds.map fun d => (d.id, (resolve scope d).toBinding)

variable {resolve : Scope → DataSource → Resolution} {scope : Scope} {ds : List DataSource}

theorem get?_bindings {d : DataSource} (h : (ds.map DataSource.id).Nodup) (hd : d ∈ ds) :
    (KeyMap.ofList (bindings resolve scope ds)).get? d.id = some (resolve scope d).toBinding := by
  have hkeys : (bindings resolve scope ds).Pairwise fun a b => a.1 ≠ b.1 :=
    List.pairwise_map.mpr (List.pairwise_map.mp h)
  rw [KeyMap.get?_ofList_eq_some_iff hkeys]
  exact List.mem_map.mpr ⟨d, hd, rfl⟩

theorem get?_bindings_eq_none {name : String} (h : name ∉ ds.map DataSource.id) :
    (KeyMap.ofList (bindings resolve scope ds)).get? name = none := by
  rw [KeyMap.get?_ofList_eq_none_iff, bindings, List.map_map]
  exact h

/-- A name stands for what the page's own layer has, or else for what the layer of the global
sources has that the page refers to. -/
theorem lookup_buildContext (c : Catalog) (page : String)
    (resolve : Scope → DataSource → Resolution) (name : String) :
    (c.buildContext page resolve).lookup name =
      ((KeyMap.ofList (bindings resolve (.page page) (c.pageSources page))).get? name).or
        ((KeyMap.ofList (bindings resolve .global (c.referencedGlobals page))).get? name) := by
  change ((Context.empty.child (bindings resolve .global (c.referencedGlobals page))).child
    (bindings resolve (.page page) (c.pageSources page))).lookup name = _
  rw [Context.lookup_child, Context.lookup_child, Context.lookup_empty, Option.or_none]

/-- The id of a source in force stands for the state of the source. -/
theorem lookup_of_mem_scopedSources (h : c.DistinctIds) {d : DataSource}
    (hd : (scope, d) ∈ c.scopedSources page) :
    (c.buildContext page resolve).lookup d.id = some (resolve scope d).toBinding := by
  rw [lookup_buildContext]
  rcases mem_scopedSources_iff.mp hd with ⟨rfl, hglobal⟩ | ⟨rfl, hlocal⟩
  · obtain ⟨hmem, href, hshown⟩ := mem_visibleGlobals_iff.mp hglobal
    have hreferenced : d ∈ c.referencedGlobals page := List.mem_filter.mpr ⟨hmem, href⟩
    have hnodup : ((c.referencedGlobals page).map DataSource.id).Nodup :=
      h.globals.sublist (List.filter_sublist.map _)
    rw [get?_bindings_eq_none hshown, get?_bindings hnodup hreferenced, Option.none_or]
  · rw [get?_bindings (h.pages page) hlocal, Option.some_or]

/-- A name that is no id of a source in force stands for nothing. -/
theorem lookup_eq_none_of_not_mem {name : String}
    (h : name ∉ (c.scopedSources page).map fun s => s.2.id) :
    (c.buildContext page resolve).lookup name = none := by
  rw [map_id_scopedSources, List.mem_append, not_or] at h
  obtain ⟨hglobal, hlocal⟩ := h
  have hreferenced : name ∉ (c.referencedGlobals page).map DataSource.id := by
    intro hname
    obtain ⟨d, hd, rfl⟩ := List.mem_map.mp hname
    obtain ⟨hmem, href⟩ := List.mem_filter.mp hd
    -- A global source that is referenced but not in force is hidden, so the name is a local id.
    exact hglobal (List.mem_map_of_mem (mem_visibleGlobals_iff.mpr ⟨hmem, href, hlocal⟩))
  rw [lookup_buildContext, get?_bindings_eq_none hlocal, get?_bindings_eq_none hreferenced,
    Option.none_or]

/-- **A page sees what it fetches.** Ids are distinct within scopes in every catalog that there is.
Where they are, the sources in force on a page have distinct ids, each of these stands for the state
of its source in the context of the page, and no other name stands for anything. In force are the
global sources that the page refers to and does not hide, in their order, and then its own, in
theirs. -/
theorem scopedSources_visible :
    (∀ c : Catalog, Obtained c → c.DistinctIds) ∧
    ∀ c : Catalog, c.DistinctIds → ∀ (page : String) (resolve : Scope → DataSource → Resolution),
      ((c.scopedSources page).map fun s => s.2.id).Nodup ∧
      (∀ scope d, (scope, d) ∈ c.scopedSources page →
        (c.buildContext page resolve).lookup d.id = some (resolve scope d).toBinding) ∧
      (∀ name, name ∉ (c.scopedSources page).map (fun s => s.2.id) →
        (c.buildContext page resolve).lookup name = none) ∧
      ∃ visible : List DataSource, visible.Sublist c.globals ∧
        (∀ d, d ∈ visible ↔ d ∈ c.globals ∧ c.isReferenced page d.id = true ∧
          d.id ∉ (c.pageSources page).map DataSource.id) ∧
        c.scopedSources page = visible.map (fun d => (.global, d)) ++
          (c.pageSources page).map fun d => (.page page, d) := by
  refine ⟨fun c hc => hc.soundSources.distinctIds, fun c hc page resolve => ?_⟩
  exact ⟨nodup_map_id_scopedSources hc page, fun scope d hd => lookup_of_mem_scopedSources hc hd,
    fun name hname => lookup_eq_none_of_not_mem hname,
    c.visibleGlobals page, List.filter_sublist, fun d => mem_visibleGlobals_iff,
    scopedSources_eq c page⟩

/-- The orders that all pages may refer to. -/
def allOrders : DataSource := DataSource.new "orders" (RequestOptions.get "/orders")

/-- The orders of one page, under the same id. -/
def ownOrders : DataSource := DataSource.new "orders" (RequestOptions.get "/users/1/orders")

/-- A page that refers to two global sources, one of which it hides, and not to a third. -/
def ordersEdits : List Edit :=
  [.addGlobal (DataSource.new "news" (RequestOptions.get "/news")), .addGlobal allOrders,
    .addGlobal (DataSource.new "users" (RequestOptions.get "/users")),
    .toggleReference "home" "users", .toggleReference "home" "orders",
    .setPageSources "home" [ownOrders]]

/-- Global sources have been loaded, and those of pages are loading. -/
def loadedGlobals : Scope → DataSource → Resolution
  | .global, d => .value (.str d.options.url)
  | .page _, _ => .pending

theorem scopedSources_visible_home :
    (History.ofEdits ordersEdits).catalog.DistinctIds ∧
      (Scope.page "home", ownOrders) ∈ (History.ofEdits ordersEdits).catalog.scopedSources "home" ∧
      ((History.ofEdits ordersEdits).catalog.buildContext "home" loadedGlobals).lookup "orders" =
        some .pending ∧
      ((History.ofEdits ordersEdits).catalog.buildContext "home" loadedGlobals).lookup "news" =
        none := by
  have hdistinct : (History.ofEdits ordersEdits).catalog.DistinctIds :=
    scopedSources_visible.1 _ (obtained_of_edits ordersEdits)
  have hscoped : (History.ofEdits ordersEdits).catalog.scopedSources "home" =
      [(.global, DataSource.new "users" (RequestOptions.get "/users")),
        (.page "home", ownOrders)] := rfl
  have hown : (Scope.page "home", ownOrders) ∈
      (History.ofEdits ordersEdits).catalog.scopedSources "home" := by
    simp [hscoped]
  obtain ⟨-, hbound, hunbound, -⟩ := scopedSources_visible.2 _ hdistinct "home" loadedGlobals
  have hnews : "news" ∉ ((History.ofEdits ordersEdits).catalog.scopedSources "home").map
      fun s => s.2.id := by
    simp [hscoped, DataSource.new, ownOrders]
  exact ⟨hdistinct, hown, hbound _ _ hown, hunbound _ hnews⟩

end Catalog

end LivePage
