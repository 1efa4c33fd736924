import LivePage.App.Document
import LivePage.Proofs.Collection.KeyedOverwrite
import LivePage.Proofs.DataSource.Visibility

/-!
# Installing page documents

What an installation makes of an app: it puts global sources, replaces the sources of one page,
makes references that are not there, and stores each result in the scope in which the page sees its
source.

* `PageDocument.Extends`: all that an installation that succeeds does to the catalog.
* `PageDocument.get?_storeResults`: the results that are stored.
* `PageDocument.install_binds`: the context of the page after an installation into a new app, and
  what a second installation does.
-/

namespace LivePage

namespace PageDocument

open Catalog

variable {doc : PageDocument} {c c' : Catalog}

/-! ## Global sources -/

theorem addGlobals_eq_ok {ds : List DataSource} (h : ∀ d ∈ ds, d.id ≠ "") (c : Catalog) :
    addGlobals ds c = (none, { c with globals := Keyed.putAll DataSource.id ds c.globals }) := by
  induction ds generalizing c with
  | nil => rfl
  | cons d ds ih =>
    obtain ⟨hd, hds⟩ := List.forall_mem_cons.mp h
    have hput : c.addGlobal d = .ok { c with globals := Keyed.put DataSource.id d c.globals } := by
      simp [addGlobal, hd]
    rw [addGlobals, hput]
    exact ih hds _

/-- Global sources are put, unless one has an empty id. -/
theorem addGlobals_eq_none {ds : List DataSource} (h : addGlobals ds c = (none, c')) :
    (∀ d ∈ ds, d.id ≠ "") ∧
      c' = { c with globals := Keyed.putAll DataSource.id ds c.globals } := by
  have hids : ∀ d ∈ ds, d.id ≠ "" := by
    induction ds generalizing c with
    | nil => simp
    | cons d ds ih =>
      rw [addGlobals, addGlobal] at h
      by_cases hd : d.id.isEmpty = true
      · rw [if_pos hd] at h
        cases h
      · rw [if_neg hd] at h
        exact List.forall_mem_cons.mpr ⟨by simpa using hd, ih h⟩
  refine ⟨hids, ?_⟩
  rw [addGlobals_eq_ok hids] at h
  cases h
  rfl

/-! ## References -/

/-- References that are not there are made, to sources that exist. -/
theorem addReferences_eq_none {page : String} {ids : List String}
    (h : addReferences page ids c = (none, c')) :
    c'.globals = c.globals ∧ c'.pageSourceMap = c.pageSourceMap ∧
      (∀ q j, c'.isReferenced q j = true ↔
        c.isReferenced q j = true ∨ q = page ∧ j ∈ ids) ∧
      ∀ id ∈ ids, c.isReferenced page id = true ∨ (c.getGlobal? id).isSome = true := by
  induction ids generalizing c with
  | nil =>
    cases h
    simp
  | cons id ids ih =>
    rw [addReferences] at h
    by_cases href : c.isReferenced page id = true
    · rw [if_pos href] at h
      obtain ⟨hglobals, hsources, hrefs, hdefined⟩ := ih h
      refine ⟨hglobals, hsources, fun q j => ?_, List.forall_mem_cons.mpr ⟨.inl href, hdefined⟩⟩
      rw [hrefs, List.mem_cons]
      constructor
      · rintro (hq | ⟨hq, hj⟩)
        · exact .inl hq
        · exact .inr ⟨hq, .inr hj⟩
      · rintro (hq | ⟨rfl, rfl | hj⟩)
        · exact .inl hq
        · exact .inl href
        · exact .inr ⟨rfl, hj⟩
    · rw [if_neg href] at h
      cases htoggle : c.toggleReference page id with
      | error e =>
        rw [htoggle] at h
        cases h
      | ok answer =>
        obtain ⟨on, c₁⟩ := answer
        rw [htoggle] at h
        obtain ⟨hglobals, hsources, hrefs, hdefined⟩ := ih h
        have htoggled := toggled htoggle
        have hon : on = true := by
          rw [htoggled.on_eq, Bool.eq_false_iff.mpr href]
          rfl
        have hid := htoggled.defined hon
        refine ⟨hglobals.trans htoggled.globals_eq, hsources.trans htoggled.pageSourceMap_eq,
          fun q j => ?_, List.forall_mem_cons.mpr ⟨.inr hid, fun j hj => ?_⟩⟩
        · rw [hrefs, htoggled.isReferenced_eq, hon, List.mem_cons]
          by_cases hq : q = page <;> by_cases hj : j = id <;> simp [hq, hj]
        · have hdefined' := hdefined j hj
          rw [htoggled.isReferenced_eq, getGlobal?, htoggled.globals_eq] at hdefined'
          by_cases hjid : j = id
          · exact .inr (hjid ▸ hid)
          · rwa [if_neg fun h => hjid h.2] at hdefined'

theorem addReferences_eq_self {page : String} {ids : List String}
    (h : ∀ id ∈ ids, c.isReferenced page id = true) : addReferences page ids c = (none, c) := by
  induction ids with
  | nil => rfl
  | cons id ids ih =>
    obtain ⟨hid, hids⟩ := List.forall_mem_cons.mp h
    rw [addReferences, if_pos hid, ih hids]

/-! ## The catalog -/

/-- All that adding the sources and the references of a document does to a catalog. -/
structure Extends (doc : PageDocument) (c c' : Catalog) : Prop where
  nonempty : ∀ d ∈ doc.globals, d.id ≠ ""
  sound : SoundIds doc.pageSources
  globals_eq : c'.globals = Keyed.putAll DataSource.id doc.globals c.globals
  pageSourceMap_eq : c'.pageSourceMap =
    if doc.pageSources.isEmpty then c.pageSourceMap.erase doc.page
    else c.pageSourceMap.insert doc.page doc.pageSources
  isReferenced_iff : ∀ q j, c'.isReferenced q j = true ↔
    c.isReferenced q j = true ∨ q = doc.page ∧ j ∈ doc.references
  defined : ∀ id ∈ doc.references,
    c.isReferenced doc.page id = true ∨ (c'.getGlobal? id).isSome = true

theorem extends_of_extendCatalog (h : doc.extendCatalog c = (none, c')) : doc.Extends c c' := by
  rw [extendCatalog] at h
  cases hglobals : addGlobals doc.globals c with
  | mk failure c₁ =>
    cases failure with
    | some e =>
      rw [hglobals] at h
      cases h
    | none =>
      obtain ⟨hids, rfl⟩ := addGlobals_eq_none hglobals
      rw [hglobals] at h
      dsimp only at h
      rw [setPageSources] at h
      cases hcheck : checkIds doc.page doc.pageSources with
      | error e =>
        rw [hcheck] at h
        cases h
      | ok passed =>
        rw [hcheck] at h
        obtain ⟨hg, hp, hrefs, hdefined⟩ := addReferences_eq_none h
        refine ⟨hids, checkIds_eq_ok_iff.mp hcheck, hg, hp, hrefs, fun id hid => ?_⟩
        rw [getGlobal?, hg]
        exact hdefined id hid

/-- Where a document has been added, adding it again changes nothing. -/
theorem Extends.extendCatalog_eq (h : doc.Extends c c') : doc.extendCatalog c' = (none, c') := by
  have hglobals : addGlobals doc.globals c' = (none, c') := by
    have hput := addGlobals_eq_ok h.nonempty c'
    rwa [h.globals_eq, Keyed.putAll_putAll, ← h.globals_eq] at hput
  have hsources : c'.setPageSources doc.page doc.pageSources = .ok c' := by
    have hmap : (if doc.pageSources.isEmpty then c'.pageSourceMap.erase doc.page
        else c'.pageSourceMap.insert doc.page doc.pageSources) = c'.pageSourceMap := by
      rw [h.pageSourceMap_eq]
      split
      · exact KeyMap.erase_eq_self (by rw [KeyMap.get?_erase, if_pos rfl])
      · exact KeyMap.insert_eq_self (by rw [KeyMap.get?_insert, if_pos rfl])
    rw [setPageSources, checkIds_eq_ok_iff.mpr h.sound]
    dsimp only
    rw [hmap]
  have hreferences : addReferences doc.page doc.references c' = (none, c') :=
    addReferences_eq_self fun id hid => (h.isReferenced_iff doc.page id).mpr (.inr ⟨rfl, hid⟩)
  rw [extendCatalog, hglobals]
  dsimp only
  rw [hsources]
  exact hreferences

theorem Extends.pageSources_eq (h : doc.Extends c c') (q : String) :
    c'.pageSources q = if q = doc.page then doc.pageSources else c.pageSources q := by
  have hmap := h.pageSourceMap_eq
  split at hmap
  · rename_i hempty
    have hc' : c'.pageSources q = Catalog.pageSources
        { c with pageSourceMap := c.pageSourceMap.erase doc.page } q :=
      pageSources_congr hmap q
    rw [hc', pageSources_erase, List.isEmpty_iff.mp hempty]
  · have hc' : c'.pageSources q = Catalog.pageSources
        { c with pageSourceMap := c.pageSourceMap.insert doc.page doc.pageSources } q :=
      pageSources_congr hmap q
    rw [hc', pageSources_insert]

theorem soundIds_putAll {ds xs : List DataSource} (hds : ∀ d ∈ ds, d.id ≠ "") (hxs : SoundIds xs) :
    SoundIds (Keyed.putAll DataSource.id ds xs) := by
  induction ds generalizing xs with
  | nil => exact hxs
  | cons d ds ih =>
    obtain ⟨hd, hds⟩ := List.forall_mem_cons.mp hds
    exact ih hds (hxs.put hd)

/-- Adding a document keeps ids sound. -/
theorem Extends.soundSources (h : doc.Extends c c') (hc : c.SoundSources) : c'.SoundSources := by
  refine ⟨h.globals_eq ▸ soundIds_putAll h.nonempty hc.globals, fun q => ?_⟩
  rw [h.pageSources_eq]
  split
  · exact h.sound
  · exact hc.pages q

/-! ## Results -/

/-- The results of a document as they are stored. -/
def storedResults (doc : PageDocument) : List StoredResult :=
  doc.results.entries.map fun e => ⟨doc.scopeOf e.1, e.1, .value e.2⟩

theorem storeResults_eq (doc : PageDocument) (store : ResultStore) :
    doc.storeResults store =
      ⟨Keyed.putAll StoredResult.key doc.storedResults store.entries⟩ := by
  unfold storeResults storedResults
  induction doc.results.entries generalizing store with
  | nil => rfl
  | cons e entries ih => exact ih _

/-- Storing the results of a document again changes nothing. -/
theorem storeResults_storeResults (doc : PageDocument) (store : ResultStore) :
    doc.storeResults (doc.storeResults store) = doc.storeResults store := by
  rw [storeResults_eq, storeResults_eq, Keyed.putAll_putAll]

/-- An id for which the document has a result has it in the scope in which the page sees the id;
everything else has what it had. -/
theorem get?_storeResults (doc : PageDocument) (store : ResultStore) (scope : Scope) (id : String) :
    (doc.storeResults store).get? scope id =
      if doc.scopeOf id = scope then
        ((doc.results.get? id).map .value).or (store.get? scope id)
      else store.get? scope id := by
  have hascending := doc.results.ascending
  unfold storeResults KeyMap.get?
  generalize doc.results.entries = entries at hascending
  induction entries generalizing store with
  | nil => simp [KeyMap.lookup]
  | cons e entries ih =>
    obtain ⟨he, hentries⟩ := List.pairwise_cons.mp hascending
    rw [List.foldl_cons, ih _ hentries, ResultStore.applyValue, ResultStore.get?_apply,
      KeyMap.lookup]
    by_cases hid : id = e.1
    · -- The key stands nowhere else, so nothing overwrites what is stored here.
      subst hid
      rw [KeyMap.lookup_eq_none_of_lt he]
      by_cases hscope : doc.scopeOf e.1 = scope <;> simp [hscope]
    · simp [hid, Ne.symm hid]

theorem scopeOf_eq (doc : PageDocument) (id : String) :
    doc.scopeOf id =
      if id ∈ doc.pageSources.map DataSource.id then .page doc.page else .global := by
  unfold scopeOf
  simp only [List.any_eq_true, beq_iff_eq, List.mem_map]

/-! ## Installations -/

/-- An installation that succeeds extends the catalog and stores the results. -/
theorem install_eq_none {app app' : App} (h : doc.install app = (none, app')) :
    doc.Extends app.catalog app'.catalog ∧
      app' = { app with catalog := app'.catalog, store := doc.storeResults app.store } := by
  rw [install] at h
  cases hcatalog : doc.extendCatalog app.catalog with
  | mk failure c =>
    cases failure with
    | some e =>
      rw [hcatalog] at h
      cases h
    | none =>
      rw [hcatalog] at h
      cases h
      exact ⟨extends_of_extendCatalog hcatalog, rfl⟩

/-- What is installed already is installed by doing nothing. -/
theorem install_install {app app' : App} (h : doc.install app = (none, app')) :
    doc.install app' = (none, app') := by
  obtain ⟨hextends, heq⟩ := install_eq_none h
  have hstore : doc.storeResults app'.store = app'.store := by
    rw [heq]
    exact storeResults_storeResults doc app.store
  rw [install, hextends.extendCatalog_eq]
  dsimp only
  rw [hstore]

/-! ## New apps -/

/-- The ids that the page of a document sees. -/
def names (doc : PageDocument) : List String :=
  doc.references ++ doc.pageSources.map DataSource.id

/-- What an id stands for that the page of a document sees. -/
def binding (doc : PageDocument) (id : String) : Binding :=
  match doc.results.get? id with
  | some v => .value v
  | none => .pending

/-- In a catalog that was empty, the page has in force just the sources that the document names,
each in the scope in which its result is stored. -/
theorem Extends.exists_mem_scopedSources (h : doc.Extends Catalog.empty c') {id : String}
    (hid : id ∈ doc.names) :
    ∃ d, d.id = id ∧ (doc.scopeOf id, d) ∈ c'.scopedSources doc.page := by
  have hsources : c'.pageSources doc.page = doc.pageSources := by
    rw [h.pageSources_eq, if_pos rfl]
  rw [scopeOf_eq]
  by_cases hlocal : id ∈ doc.pageSources.map DataSource.id
  · rw [if_pos hlocal]
    obtain ⟨d, hd, rfl⟩ := List.mem_map.mp hlocal
    exact ⟨d, rfl, mem_scopedSources_iff.mpr (.inr ⟨rfl, hsources ▸ hd⟩)⟩
  · rw [if_neg hlocal]
    have hreferences : id ∈ doc.references := (List.mem_append.mp hid).resolve_right hlocal
    have href : c'.isReferenced doc.page id = true :=
      (h.isReferenced_iff doc.page id).mpr (.inr ⟨rfl, hreferences⟩)
    have hdefined : (c'.getGlobal? id).isSome = true :=
      (h.defined id hreferences).resolve_left Bool.false_ne_true
    obtain ⟨d, hd, rfl⟩ := List.mem_map.mp (Keyed.isSome_get?_iff.mp hdefined)
    have hshown : d.id ∉ (c'.pageSources doc.page).map DataSource.id := by rwa [hsources]
    exact ⟨d, rfl, mem_scopedSources_iff.mpr
      (.inl ⟨rfl, mem_visibleGlobals_iff.mpr ⟨hd, href, hshown⟩⟩)⟩

theorem Extends.mem_names (h : doc.Extends Catalog.empty c') {id : String}
    (hid : id ∈ (c'.scopedSources doc.page).map fun s => s.2.id) : id ∈ doc.names := by
  have hsources : c'.pageSources doc.page = doc.pageSources := by
    rw [h.pageSources_eq, if_pos rfl]
  rw [map_id_scopedSources, hsources, List.mem_append] at hid
  refine List.mem_append.mpr (hid.imp_left fun hvisible => ?_)
  obtain ⟨d, hd, rfl⟩ := List.mem_map.mp hvisible
  have href := (h.isReferenced_iff doc.page d.id).mp (mem_visibleGlobals_iff.mp hd).2.1
  exact (href.resolve_left Bool.false_ne_true).2

/-- Where nothing was stored, a source has its result in the document, or none. -/
theorem toBinding_resolve_storeResults (doc : PageDocument) (d : DataSource) :
    ((doc.storeResults .empty).resolve (doc.scopeOf d.id) d).toBinding = doc.binding d.id := by
  have hnone : ResultStore.empty.get? (doc.scopeOf d.id) d.id = none := rfl
  rw [ResultStore.resolve, get?_storeResults, if_pos rfl, hnone, Option.or_none, binding]
  cases doc.results.get? d.id <;> rfl

theorem lookup_context_of_install {config : Config} {evaluator : Evaluator} {app : App}
    (h : doc.install (App.fresh config evaluator) = (none, app)) (name : String) :
    (app.context doc.page).lookup name =
      if name ∈ doc.names then some (doc.binding name) else none := by
  obtain ⟨hextends, heq⟩ := install_eq_none h
  have hdistinct := (hextends.soundSources soundSources_empty).distinctIds
  have hcontext : app.context doc.page =
      app.catalog.buildContext doc.page (doc.storeResults .empty).resolve := by
    rw [heq]
    rfl
  rw [hcontext]
  split
  · rename_i hname
    obtain ⟨d, rfl, hd⟩ := hextends.exists_mem_scopedSources hname
    rw [lookup_of_mem_scopedSources hdistinct hd, toBinding_resolve_storeResults]
  · rename_i hname
    exact lookup_eq_none_of_not_mem fun hmem => hname (hextends.mem_names hmem)

/-- **Installation gives a page what its document says, and is idempotent.** After a document is
installed into a new app, its page sees the ids that the document refers to and those of its own
sources, once each: an id with a result stands for it, every other is loading. An installation into
any app that succeeds succeeds again, and then changes nothing. -/
theorem install_binds :
    (∀ (scripts : Except String ScriptEngine) (config : Config) (fresh : App),
      App.new scripts config = .ok fresh → ∀ (doc : PageDocument) (app : App),
        doc.install fresh = (none, app) →
        (∀ name, (app.context doc.page).lookup name =
          if name ∈ doc.names then some (doc.binding name) else none) ∧
        (app.context doc.page).flatten =
          KeyMap.ofList (doc.names.map fun id => (id, doc.binding id))) ∧
      ∀ (doc : PageDocument) (app app' : App),
        doc.install app = (none, app') → doc.install app' = (none, app') := by
  refine ⟨fun scripts config fresh hnew doc app h => ?_, fun doc app app' => install_install⟩
  obtain ⟨evaluator, -, rfl⟩ := App.new_eq_ok_iff.mp hnew
  refine ⟨lookup_context_of_install h, KeyMap.ext_get? fun name => ?_⟩
  rw [Context.get?_flatten, lookup_context_of_install h, KeyMap.get?_ofList_map]

/-- A document that defines a global source twice, refers to it twice, and refers to another one
that its page hides. -/
def homeDocument : PageDocument where
  page := "home"
  tree := Component.new "page" "View"
  globals := [DataSource.new "users" (RequestOptions.get "/users"),
    DataSource.new "orders" (RequestOptions.get "/orders"),
    DataSource.new "users" (RequestOptions.get "/users?active")]
  pageSources := [DataSource.new "orders" (RequestOptions.get "/users/1/orders")]
  references := ["users", "orders", "users"]
  results := KeyMap.ofList [("users", .str "Ada"), ("news", .null)]

theorem install_binds_homeDocument :
    ∃ fresh app, App.new (.ok .absent) Config.default = .ok fresh ∧
      homeDocument.install fresh = (none, app) ∧
      (app.context "home").lookup "users" = some (.value (.str "Ada")) ∧
      (app.context "home").lookup "orders" = some .pending ∧
      (app.context "home").lookup "news" = none ∧
      (app.context "home").flatten.keys = ["orders", "users"] ∧
      homeDocument.install app = (none, app) := by
  have hnew : App.new (.ok .absent) Config.default = .ok (App.fresh Config.default .path) := rfl
  have hinstall : homeDocument.install (App.fresh Config.default .path) =
      (none, (homeDocument.install (App.fresh Config.default .path)).2) := rfl
  obtain ⟨hlookup, hflatten⟩ := install_binds.1 _ _ _ hnew _ _ hinstall
  refine ⟨_, _, hnew, hinstall, hlookup "users", hlookup "orders", hlookup "news", ?_,
    install_binds.2 _ _ _ hinstall⟩
  exact congrArg KeyMap.keys hflatten

end PageDocument

end LivePage
