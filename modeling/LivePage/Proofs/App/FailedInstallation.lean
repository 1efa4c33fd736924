import LivePage.Proofs.App.Separation

/-!
# Installations that fail

An installation puts global sources, sets the sources of its page and makes references, one after
the other, and stops at the first step that is refused. What it did before stays.

* `PageDocument.StopsAt`: where and why an installation stops, in terms of the document and the
  catalog before it.
* `PageDocument.Progress.left`: the catalog that it leaves. `extendCatalog_eq_some_iff` says that
  these are all failures.
* `PageDocument.Progress.Present`: all that was done was there already, the only case in which the
  catalog is what it was (`StopsAt.left_eq_iff`).
* `Catalog.buildContext_congr`: the context of a page does not depend on how its sources are
  defined.
* `PageDocument.install_fails`: the app after an installation that fails.
-/

namespace LivePage

namespace Catalog

variable {c c' : Catalog} {id q : String}

/-! ## Contexts from ids -/

/-- A layer of sources shows no more of them than which ids they have. -/
theorem ofList_resolve_congr {ds ds' : List DataSource} (store : ResultStore) (scope : Scope)
    (h : ∀ id, id ∈ ds.map DataSource.id ↔ id ∈ ds'.map DataSource.id) :
    KeyMap.ofList (ds.map fun d => (d.id, (store.resolve scope d).toBinding)) =
      KeyMap.ofList (ds'.map fun d => (d.id, (store.resolve scope d).toBinding)) := by
  have hlist (xs : List DataSource) :
      (xs.map fun d => (d.id, (store.resolve scope d).toBinding)) =
        (xs.map DataSource.id).map fun id =>
          (id, ((store.get? scope id).getD .pending).toBinding) := by
    rw [List.map_map]
    rfl
  rw [hlist, hlist]
  refine KeyMap.ext_get? fun id => ?_
  rw [KeyMap.get?_ofList_map, KeyMap.get?_ofList_map]
  simp only [h id]

/-- Catalogs with the same ids of sources in force on a page give it the same context. -/
theorem buildContext_congr
    (hglobals : ∀ id, id ∈ (c'.referencedGlobals q).map DataSource.id ↔
      id ∈ (c.referencedGlobals q).map DataSource.id)
    (hsources : c'.pageSources q = c.pageSources q) (store : ResultStore) :
    c'.buildContext q store.resolve = c.buildContext q store.resolve := by
  rw [buildContext, buildContext, hsources]
  dsimp only
  rw [Context.child, Context.child, ofList_resolve_congr store .global hglobals]
  rfl

theorem mem_map_id_referencedGlobals :
    id ∈ (c.referencedGlobals q).map DataSource.id ↔
      id ∈ c.globals.map DataSource.id ∧ c.isReferenced q id = true := by
  rw [referencedGlobals, List.mem_map, List.mem_map]
  constructor
  · rintro ⟨d, hd, rfl⟩
    obtain ⟨hmem, href⟩ := List.mem_filter.mp hd
    exact ⟨⟨d, hmem, rfl⟩, href⟩
  · rintro ⟨⟨d, hmem, rfl⟩, href⟩
    exact ⟨d, List.mem_filter.mpr ⟨hmem, href⟩, rfl⟩

end Catalog

namespace PageDocument

open Catalog

variable {doc : PageDocument} {c c' : Catalog} {e : CatalogError} {page id : String}
  {done ids rest : List String}

/-! ## Steps that are refused -/

/-- In a list of which not all members have a property there is a first one without it. -/
theorem forall_or_exists_first {α : Type} (P : α → Prop) (xs : List α) :
    (∀ x ∈ xs, P x) ∨ ∃ before x after, xs = before ++ x :: after ∧ (∀ y ∈ before, P y) ∧ ¬P x := by
  induction xs with
  | nil => exact .inl (List.forall_mem_nil _)
  | cons x xs ih =>
    by_cases hx : P x
    · rcases ih with h | ⟨before, y, after, rfl, hbefore, hy⟩
      · exact .inl (List.forall_mem_cons.mpr ⟨hx, h⟩)
      · exact .inr ⟨x :: before, y, after, rfl, List.forall_mem_cons.mpr ⟨hx, hbefore⟩, hy⟩
    · exact .inr ⟨[], x, xs, rfl, List.forall_mem_nil _, hx⟩

/-- Global sources are put up to the first that has an empty id. -/
theorem addGlobals_stops {before after : List DataSource} {d : DataSource}
    (hbefore : ∀ g ∈ before, g.id ≠ "") (hd : d.id = "") (c : Catalog) :
    addGlobals (before ++ d :: after) c =
      (some .emptyId, { c with globals := Keyed.putAll DataSource.id before c.globals }) := by
  induction before generalizing c with
  | nil =>
    have hrefused : c.addGlobal d = .error .emptyId := by simp [addGlobal, hd]
    rw [List.nil_append, addGlobals, hrefused]
    rfl
  | cons g before ih =>
    obtain ⟨hg, hbefore⟩ := List.forall_mem_cons.mp hbefore
    have hput : c.addGlobal g = .ok { c with globals := Keyed.put DataSource.id g c.globals } := by
      simp [addGlobal, hg]
    rw [List.cons_append, addGlobals, hput]
    exact ih hbefore _

theorem addReferences_append (h : addReferences page done c = (none, c')) (ids : List String) :
    addReferences page (done ++ ids) c = addReferences page ids c' := by
  induction done generalizing c with
  | nil =>
    cases h
    rfl
  | cons id done ih =>
    rw [addReferences] at h
    rw [List.cons_append, addReferences]
    split at h
    · rename_i href
      rw [if_pos href]
      exact ih h
    · rename_i href
      rw [if_neg href]
      cases htoggle : c.toggleReference page id with
      | error e =>
        rw [htoggle] at h
        cases h
      | ok outcome =>
        rw [htoggle] at h
        exact ih h

/-- References are made where they are there or can be made. -/
theorem exists_addReferences
    (h : ∀ id ∈ ids, c.isReferenced page id = true ∨ (c.getGlobal? id).isSome = true) :
    ∃ c', addReferences page ids c = (none, c') := by
  induction ids generalizing c with
  | nil => exact ⟨c, rfl⟩
  | cons id ids ih =>
    obtain ⟨hid, hids⟩ := List.forall_mem_cons.mp h
    rw [addReferences]
    split
    · exact ih hids
    · rename_i href
      obtain ⟨on, c₁, htoggle⟩ := exists_toggleReference hid
      have htoggled := toggled htoggle
      have hon : on = true := by
        rw [htoggled.on_eq, Bool.eq_false_iff.mpr href]
        rfl
      rw [htoggle]
      -- What can be made before a reference is made can be made after it.
      refine ih fun j hj => ?_
      rw [htoggled.isReferenced_eq, getGlobal?, htoggled.globals_eq]
      split
      · exact .inl hon
      · exact hids j hj

/-- References are made up to the first one to a source that does not exist. -/
theorem addReferences_stops
    (hdone : ∀ j ∈ done, c.isReferenced page j = true ∨ (c.getGlobal? j).isSome = true)
    (hid : ¬(c.isReferenced page id = true ∨ (c.getGlobal? id).isSome = true)) :
    addReferences page (done ++ id :: rest) c =
      (some (.unknownGlobal id), (addReferences page done c).2) := by
  obtain ⟨c', hc'⟩ := exists_addReferences hdone
  obtain ⟨hglobals, -, hreferences, -⟩ := addReferences_eq_none hc'
  -- The id is none of those before it: these could be made, and so could it then.
  have href : ¬c'.isReferenced page id = true := by
    rw [hreferences]
    rintro (href | ⟨-, hmem⟩)
    · exact hid (.inl href)
    · exact hid (hdone id hmem)
  have hglobal : (c'.getGlobal? id).isSome = false := by
    rw [getGlobal?, hglobals]
    exact Bool.eq_false_iff.mpr fun h => hid (.inr h)
  rw [addReferences_append hc', addReferences, if_neg href,
    toggleReference_unknown (Bool.eq_false_iff.mpr href) hglobal, hc']

/-! ## Where an installation stops -/

/-- What an installation did before it stopped. -/
structure Progress where
  /-- The global sources that it put. -/
  globals : List DataSource
  /-- Whether it set the sources of the page. -/
  setsSources : Bool
  /-- The references that it made, or found. -/
  references : List String

/-- The page refers to a source already, or there is such a source, or the document brings it. -/
def CanRefer (doc : PageDocument) (c : Catalog) (id : String) : Prop :=
  c.isReferenced doc.page id = true ∨ (c.getGlobal? id).isSome = true ∨
    id ∈ doc.globals.map DataSource.id

instance (doc : PageDocument) (c : Catalog) (id : String) : Decidable (doc.CanRefer c id) :=
  inferInstanceAs (Decidable (_ ∨ _ ∨ _))

/-- What is done of a document when a step is refused, and why it is. -/
inductive StopsAt (doc : PageDocument) (c : Catalog) : Progress → CatalogError → Prop
  /-- A global source has an empty id. -/
  | global {before after : List DataSource} {d : DataSource}
    (hsplit : doc.globals = before ++ d :: after) (hbefore : ∀ g ∈ before, g.id ≠ "")
    (hd : d.id = "") : StopsAt doc c ⟨before, false, []⟩ .emptyId
  /-- The ids of the sources of the page are not sound. -/
  | sources {e : CatalogError} (hglobals : ∀ g ∈ doc.globals, g.id ≠ "")
    (hids : checkIds doc.page doc.pageSources = .error e) :
    StopsAt doc c ⟨doc.globals, false, []⟩ e
  /-- A reference is to a source that does not exist. -/
  | reference {before after : List String} {id : String} (hglobals : ∀ g ∈ doc.globals, g.id ≠ "")
    (hids : SoundIds doc.pageSources) (hsplit : doc.references = before ++ id :: after)
    (hbefore : ∀ j ∈ before, doc.CanRefer c j) (hid : ¬doc.CanRefer c id) :
    StopsAt doc c ⟨doc.globals, true, before⟩ (.unknownGlobal id)

/-- The lists of page sources with that of the document in place. -/
def placeSources (doc : PageDocument) (m : KeyMap (List DataSource)) : KeyMap (List DataSource) :=
  if doc.pageSources.isEmpty then m.erase doc.page else m.insert doc.page doc.pageSources

/-- The catalog before the references are made. -/
def Progress.leftSources (p : Progress) (doc : PageDocument) (c : Catalog) : Catalog :=
  { c with
    globals := Keyed.putAll DataSource.id p.globals c.globals
    pageSourceMap := if p.setsSources then doc.placeSources c.pageSourceMap else c.pageSourceMap }

/-- The catalog that an installation leaves when it stops. -/
def Progress.left (p : Progress) (doc : PageDocument) (c : Catalog) : Catalog :=
  (addReferences doc.page p.references (p.leftSources doc c)).2

theorem canRefer_iff {p : Progress} (hglobals : p.globals = doc.globals) :
    doc.CanRefer c id ↔ (p.leftSources doc c).isReferenced doc.page id = true ∨
      ((p.leftSources doc c).getGlobal? id).isSome = true := by
  have hget : (p.leftSources doc c).getGlobal? id =
      (Keyed.get? DataSource.id id doc.globals.reverse).or (c.getGlobal? id) := by
    rw [getGlobal?, Progress.leftSources, hglobals]
    exact Keyed.get?_putAll DataSource.id id doc.globals c.globals
  rw [hget, Option.isSome_or, Bool.or_eq_true, Keyed.isSome_get?_reverse_iff, CanRefer]
  exact or_congr_right or_comm

/-- Where an installation stops it leaves what it did before. -/
theorem StopsAt.extendCatalog_eq {p : Progress} (h : doc.StopsAt c p e) :
    doc.extendCatalog c = (some e, p.left doc c) := by
  rw [extendCatalog]
  cases h with
  | global hsplit hbefore hd =>
    rw [hsplit, addGlobals_stops hbefore hd]
    rfl
  | sources hglobals hids =>
    rw [addGlobals_eq_ok hglobals]
    dsimp only
    rw [setPageSources, hids]
    rfl
  | @reference before after id hglobals hids hsplit hbefore hid =>
    have hsources : setPageSources
        { c with globals := Keyed.putAll DataSource.id doc.globals c.globals } doc.page
          doc.pageSources = .ok (Progress.leftSources ⟨doc.globals, true, before⟩ doc c) := by
      rw [setPageSources, checkIds_eq_ok_iff.mpr hids]
      rfl
    have hcan (j : String) := @canRefer_iff doc c j ⟨doc.globals, true, before⟩ rfl
    rw [addGlobals_eq_ok hglobals]
    dsimp only
    rw [hsources, hsplit]
    exact addReferences_stops (fun j hj => (hcan j).mp (hbefore j hj))
      fun h => hid ((hcan id).mpr h)

/-- An installation either stops somewhere or succeeds. -/
theorem exists_stopsAt_or (doc : PageDocument) (c : Catalog) :
    (∃ p e, doc.StopsAt c p e) ∨ ∃ c', doc.extendCatalog c = (none, c') := by
  rcases forall_or_exists_first (fun g : DataSource => g.id ≠ "") doc.globals with
    hglobals | ⟨before, d, after, hsplit, hbefore, hd⟩
  · cases hids : checkIds doc.page doc.pageSources with
    | error e => exact .inl ⟨_, _, .sources hglobals hids⟩
    | ok passed =>
      have hsound := checkIds_eq_ok_iff.mp hids
      rcases forall_or_exists_first (doc.CanRefer c) doc.references with
        hreferences | ⟨before, id, after, hsplit, hbefore, hid⟩
      · right
        obtain ⟨c', hc'⟩ := exists_addReferences fun id hid =>
          (@canRefer_iff doc c id ⟨doc.globals, true, []⟩ rfl).mp (hreferences id hid)
        refine ⟨c', ?_⟩
        rw [extendCatalog, addGlobals_eq_ok hglobals]
        dsimp only
        rw [setPageSources, hids]
        exact hc'
      · exact .inl ⟨_, _, .reference hglobals hsound hsplit hbefore hid⟩
  · exact .inl ⟨_, _, .global hsplit hbefore (not_not.mp hd)⟩

/-- The failures of an installation are those of the steps that are refused. -/
theorem extendCatalog_eq_some_iff :
    doc.extendCatalog c = (some e, c') ↔ ∃ p, doc.StopsAt c p e ∧ c' = p.left doc c := by
  constructor
  · intro h
    rcases exists_stopsAt_or doc c with ⟨p, e', hstops⟩ | ⟨c'', hok⟩
    · have heq := h.symm.trans hstops.extendCatalog_eq
      obtain ⟨he, hc'⟩ := Prod.mk.inj heq
      cases he
      exact ⟨p, hstops, hc'⟩
    · cases h.symm.trans hok
  · rintro ⟨p, hstops, rfl⟩
    exact hstops.extendCatalog_eq

theorem install_eq_some_iff {app app' : App} :
    doc.install app = (some e, app') ↔
      ∃ p, doc.StopsAt app.catalog p e ∧ app' = { app with catalog := p.left doc app.catalog } := by
  rw [install]
  cases hextend : doc.extendCatalog app.catalog with
  | mk failure c =>
    cases failure with
    | none =>
      constructor
      · intro h
        cases h
      · rintro ⟨p, hstops, -⟩
        cases hextend.symm.trans hstops.extendCatalog_eq
    | some error =>
      constructor
      · intro h
        cases h
        obtain ⟨p, hstops, rfl⟩ := extendCatalog_eq_some_iff.mp hextend
        exact ⟨p, hstops, rfl⟩
      · rintro ⟨p, hstops, rfl⟩
        cases hextend.symm.trans hstops.extendCatalog_eq
        rfl

/-! ## What is left -/

namespace StopsAt

variable {p : Progress}

/-- The references that an installation saw to before it stopped could all be made. -/
theorem addReferences_eq (h : doc.StopsAt c p e) :
    addReferences doc.page p.references (p.leftSources doc c) = (none, p.left doc c) := by
  obtain ⟨c', hc'⟩ : ∃ c', addReferences doc.page p.references (p.leftSources doc c) =
      (none, c') := by
    cases h with
    | global hsplit hbefore hd => exact ⟨_, rfl⟩
    | sources hglobals hids => exact ⟨_, rfl⟩
    | reference hglobals hids hsplit hbefore hid =>
      exact exists_addReferences fun j hj => (canRefer_iff rfl).mp (hbefore j hj)
  rw [Progress.left, hc']

theorem globals_left (h : doc.StopsAt c p e) :
    (p.left doc c).globals = Keyed.putAll DataSource.id p.globals c.globals :=
  (addReferences_eq_none h.addReferences_eq).1

theorem pageSourceMap_left (h : doc.StopsAt c p e) :
    (p.left doc c).pageSourceMap =
      if p.setsSources then doc.placeSources c.pageSourceMap else c.pageSourceMap :=
  (addReferences_eq_none h.addReferences_eq).2.1

theorem isReferenced_left (h : doc.StopsAt c p e) (q j : String) :
    (p.left doc c).isReferenced q j = true ↔
      c.isReferenced q j = true ∨ q = doc.page ∧ j ∈ p.references :=
  (addReferences_eq_none h.addReferences_eq).2.2.1 q j

/-- References come after the sources of the page. -/
theorem references_eq_nil (h : doc.StopsAt c p e) (hsets : p.setsSources = false) :
    p.references = [] := by
  cases h with
  | global hsplit hbefore hd => rfl
  | sources hglobals hids => rfl
  | reference hglobals hids hsplit hbefore hid => cases hsets

end StopsAt

/-- All that was done was there already. -/
structure Progress.Present (p : Progress) (doc : PageDocument) (c : Catalog) : Prop where
  globals : ∀ d ∈ p.globals, c.getGlobal? d.id = Keyed.get? DataSource.id d.id p.globals.reverse
  sources : p.setsSources = true → c.pageSourceMap.get? doc.page =
    if doc.pageSources.isEmpty then none else some doc.pageSources
  references : ∀ id ∈ p.references, c.isReferenced doc.page id = true

theorem get?_placeSources (doc : PageDocument) (m : KeyMap (List DataSource)) (q : String) :
    (doc.placeSources m).get? q =
      if q = doc.page then (if doc.pageSources.isEmpty then none else some doc.pageSources)
      else m.get? q := by
  rw [placeSources]
  split
  · exact KeyMap.get?_erase m doc.page q
  · exact KeyMap.get?_insert m doc.page q doc.pageSources

theorem placeSources_eq_self_iff {m : KeyMap (List DataSource)} :
    doc.placeSources m = m ↔
      m.get? doc.page = if doc.pageSources.isEmpty then none else some doc.pageSources := by
  constructor
  · intro h
    rw [← h, get?_placeSources, if_pos rfl]
  · intro h
    refine KeyMap.ext_get? fun q => ?_
    rw [get?_placeSources]
    split
    · rename_i hq
      rw [hq, h]
    · rfl

/-- The catalog is what it was exactly if all that was done was there already. -/
theorem StopsAt.left_eq_iff {p : Progress} (h : doc.StopsAt c p e) :
    p.left doc c = c ↔ p.Present doc c := by
  constructor
  · intro hleft
    have hglobals := h.globals_left
    have hsources := h.pageSourceMap_left
    have hreferences := h.isReferenced_left
    rw [hleft] at hglobals hsources hreferences
    refine ⟨fun d hd => ?_, fun hsets => ?_, fun id hid => ?_⟩
    · rw [getGlobal?, hglobals, Keyed.get?_putAll, Option.or_of_isSome]
      exact Keyed.isSome_get?_reverse_iff.mpr (List.mem_map_of_mem hd)
    · rw [if_pos hsets] at hsources
      exact placeSources_eq_self_iff.mp hsources.symm
    · exact (hreferences doc.page id).mpr (.inr ⟨rfl, hid⟩)
  · rintro ⟨hglobals, hsources, hreferences⟩
    have hput : Keyed.putAll DataSource.id p.globals c.globals = c.globals := by
      refine Keyed.putAll_eq_self fun id hid => ?_
      obtain ⟨d, hd, rfl⟩ := List.mem_map.mp hid
      exact hglobals d hd
    have hplace : (if p.setsSources then doc.placeSources c.pageSourceMap else c.pageSourceMap) =
        c.pageSourceMap := by
      split
      · rename_i hsets
        exact placeSources_eq_self_iff.mpr (hsources hsets)
      · rfl
    have hleft : p.leftSources doc c = c := by rw [Progress.leftSources, hput, hplace]
    rw [Progress.left, hleft, addReferences_eq_self hreferences]

/-! ## What pages show -/

/-- Where every reference is to a source, a page whose own sources and references an installation
did not reach has the context that it had. -/
theorem StopsAt.buildContext_left {p : Progress} (h : doc.StopsAt c p e)
    (hdefined : c.DefinedReferences) {q : String} (hq : q ≠ doc.page ∨ p.setsSources = false)
    (store : ResultStore) :
    (p.left doc c).buildContext q store.resolve = c.buildContext q store.resolve := by
  have hreferences (id : String) :
      (p.left doc c).isReferenced q id = true ↔ c.isReferenced q id = true := by
    rw [h.isReferenced_left]
    refine or_iff_left fun hnew => ?_
    rcases hq with hq | hq
    · exact hq hnew.1
    · rw [h.references_eq_nil hq] at hnew
      cases hnew.2
  have hsources : (p.left doc c).pageSources q = c.pageSources q := by
    rw [Catalog.pageSources, h.pageSourceMap_left, Catalog.pageSources]
    split
    · rename_i hsets
      have hne : q ≠ doc.page := hq.resolve_right (by rw [hsets]; exact Bool.noConfusion)
      rw [get?_placeSources, if_neg hne]
    · rfl
  refine buildContext_congr (fun id => ?_) hsources store
  rw [mem_map_id_referencedGlobals, mem_map_id_referencedGlobals, hreferences]
  refine and_congr_left fun href => ⟨fun _ => hdefined q id (mem_references_iff.mpr href), ?_⟩
  intro hmem
  have hfound : (Keyed.get? DataSource.id id c.globals).isSome = true :=
    Keyed.isSome_get?_iff.mpr hmem
  rw [← Keyed.isSome_get?_iff, h.globals_left, Keyed.get?_putAll, Option.isSome_or, hfound,
    Bool.or_true]

/-- **An installation that fails keeps what it did before.** It fails exactly where a step is
refused: a global source with an empty id, page sources whose ids are not sound, or a reference to a
source that does not exist. All that stands before this step in the document is put into the catalog
and stays there, so the app is what it was only if all of it was there already; no results are
stored. Where every reference is to a source, each page renders as before, save the page of the
document if its sources were set. -/
theorem install_fails (doc : PageDocument) (app : App) :
    (∀ e app', doc.install app = (some e, app') ↔
      ∃ p, doc.StopsAt app.catalog p e ∧ app' = { app with catalog := p.left doc app.catalog }) ∧
    ∀ p e, doc.StopsAt app.catalog p e →
      (p.left doc app.catalog).globals =
        Keyed.putAll DataSource.id p.globals app.catalog.globals ∧
      (p.left doc app.catalog).pageSourceMap =
        (if p.setsSources then doc.placeSources app.catalog.pageSourceMap
        else app.catalog.pageSourceMap) ∧
      (∀ q j, (p.left doc app.catalog).isReferenced q j = true ↔
        app.catalog.isReferenced q j = true ∨ q = doc.page ∧ j ∈ p.references) ∧
      ((doc.install app).2 = app ↔ p.Present doc app.catalog) ∧
      (app.catalog.DefinedReferences → ∀ q, q ≠ doc.page ∨ p.setsSources = false → ∀ tree,
        (doc.install app).2.renderPage q tree = app.renderPage q tree) := by
  refine ⟨fun e app' => install_eq_some_iff, fun p e hstops => ?_⟩
  have hinstall : doc.install app = (some e, { app with catalog := p.left doc app.catalog }) :=
    install_eq_some_iff.mpr ⟨p, hstops, rfl⟩
  refine ⟨hstops.globals_left, hstops.pageSourceMap_left, hstops.isReferenced_left, ?_,
    fun hdefined q hq tree => ?_⟩
  · rw [hinstall, ← hstops.left_eq_iff]
    constructor
    · intro happ
      exact congrArg App.catalog happ
    · intro hcatalog
      dsimp only
      rw [hcatalog]
  · have hcontext : App.context { app with catalog := p.left doc app.catalog } q = app.context q :=
      hstops.buildContext_left hdefined hq app.store
    rw [hinstall]
    refine App.renderPage_congr ?_ ?_ ?_ hcontext tree
    · rfl
    · rfl
    · rfl

/-- An app of which a page has a source of its own, with a result. -/
def ordersApp : App :=
  (App.fresh Config.default .path).after
    [.edit (.setPageSources "home" [DataSource.new "orders" (RequestOptions.get "/orders")]),
      .apply (.page "home") "orders" (.value (.str "three"))]

/-- A source that is new to this app. -/
def news : DataSource := DataSource.new "news" (RequestOptions.get "/news")

/-- A document without sources of the page, which refers to a source that does not exist. -/
def ghostDocument : PageDocument where
  page := "home"
  tree := Component.new "page" "View"
  globals := [news]
  pageSources := []
  references := ["news", "ghost", "news"]
  results := KeyMap.empty

/-- What is done of this document. -/
def ghostProgress : Progress := ⟨[news], true, ["news"]⟩

theorem install_fails_ghostDocument :
    ghostDocument.StopsAt ordersApp.catalog ghostProgress (.unknownGlobal "ghost") ∧
      (ghostDocument.install ordersApp).1 = some (.unknownGlobal "ghost") ∧
      (ghostDocument.install ordersApp).2.catalog.globals = [news] ∧
      (ghostDocument.install ordersApp).2.catalog.isReferenced "home" "news" = true ∧
      (ghostDocument.install ordersApp).2 ≠ ordersApp ∧
      ordersApp.catalog.DefinedReferences ∧ "about" ≠ ghostDocument.page ∧
      ∀ tree, (ghostDocument.install ordersApp).2.renderPage "about" tree =
        ordersApp.renderPage "about" tree := by
  have hstops : ghostDocument.StopsAt ordersApp.catalog ghostProgress (.unknownGlobal "ghost") :=
    .reference (by decide) .nil rfl (by decide) (by decide)
  have hdefined : ordersApp.catalog.DefinedReferences := nofun
  have habout : "about" ≠ ghostDocument.page := by decide
  obtain ⟨hfails, hleft⟩ := install_fails ghostDocument ordersApp
  obtain ⟨hglobals, -, hreferences, hsame, hpages⟩ := hleft _ _ hstops
  have hinstall := (hfails _ _).mpr ⟨_, hstops, rfl⟩
  have hcatalog : (ghostDocument.install ordersApp).2.catalog =
      ghostProgress.left ghostDocument ordersApp.catalog := by rw [hinstall]
  refine ⟨hstops, by rw [hinstall], hcatalog ▸ hglobals,
    hcatalog ▸ (hreferences _ _).mpr (.inr ⟨rfl, by decide⟩), fun happ => ?_, hdefined, habout,
    hpages hdefined "about" (.inl habout)⟩
  have hnews := (hsame.mp happ).globals news List.mem_cons_self
  cases hnews

/-- A text that shows the source of the page. -/
def ordersText : Component := (Component.new "text" "Text").bindProp "content" "orders"

/-- An installation that fails need not leave the catalog as it was, nor what the pages show. -/
theorem not_forall_install_unchanged :
    (¬∀ (doc : PageDocument) (app app' : App) (e : CatalogError),
      doc.install app = (some e, app') → app'.catalog = app.catalog) ∧
    ¬∀ (doc : PageDocument) (app app' : App) (e : CatalogError),
      doc.install app = (some e, app') → ∀ page tree,
        app'.renderPage page tree = app.renderPage page tree := by
  have hinstall : ghostDocument.install ordersApp =
      (some (.unknownGlobal "ghost"), (ghostDocument.install ordersApp).2) := rfl
  constructor
  · intro h
    have hglobals := congrArg Catalog.globals (h _ _ _ _ hinstall)
    cases hglobals
  · intro h
    have hrender := h _ _ _ _ hinstall "home" ordersText
    have hbefore : (ordersApp.renderPage "home" ordersText).reports = [] := by decide +kernel
    have hafter : ((ghostDocument.install ordersApp).2.renderPage "home" ordersText).reports ≠ [] :=
      by decide +kernel
    rw [hrender] at hafter
    exact hafter hbefore

end PageDocument

end LivePage
