import LivePage.Proofs.App.Separation
import LivePage.Proofs.DataSource.Reading

/-!
# What has been removed does not come back

Removing a global source from an app takes its result away with it, and removing a page takes away
the results of its sources. Whatever is done afterwards, a source under the same id is loading until
a result is stored for it, and no page refers to it until it has been added and the reference has
been made anew.

* `PageDocument.exists_edits`, `Operation.exists_edits`: what operations on an app do to its catalog
  are operations on catalogs.
* `Operation.Writes`, `App.Unwritten`: the operations that store a result of a source, and the
  sequences of operations in which none does.
* `App.Unwritten.get?_after`: no result appears where none is stored.
* `App.lookup_context`: what a name stands for on a page, read off the catalog and the store.
* `App.exists_adds`, `App.exists_refers`: how a source and a reference come about.
* `App.removed_pending`: the context of every page after a removal.
-/

namespace LivePage

open Catalog

/-! ## Operations on apps as operations on catalogs -/

section Catalog

variable {c c' : Catalog} {page id : String}

theorem Edit.run_snd_of_result {e : Edit} (answer : Answer) (h : e.result c = .ok (answer, c')) :
    (e.run c).2 = c' := by
  rw [e.run_eq c, h]

/-- The operations on catalogs of which an installation consists. -/
def PageDocument.Performs (doc : PageDocument) : Edit → Prop
  | .addGlobal d => d ∈ doc.globals
  | .setPageSources page ds => page = doc.page ∧ ds = doc.pageSources
  | .toggleReference page id => page = doc.page ∧ id ∈ doc.references
  | _ => False

theorem PageDocument.exists_edits_addGlobals (ds : List DataSource) (c : Catalog) :
    ∃ edits, (addGlobals ds c).2 = c.after edits ∧ ∀ e ∈ edits, ∃ d ∈ ds, e = .addGlobal d := by
  induction ds generalizing c with
  | nil => exact ⟨[], rfl, by simp⟩
  | cons d ds ih =>
    rw [addGlobals]
    cases hadd : c.addGlobal d with
    | error error => exact ⟨[], rfl, by simp⟩
    | ok c₁ =>
      obtain ⟨edits, hafter, hedits⟩ := ih c₁
      have hrun : ((Edit.addGlobal d).run c).2 = c₁ :=
        Edit.run_snd_of_result .done (by rw [Edit.result, hadd]; rfl)
      refine ⟨.addGlobal d :: edits, ?_, List.forall_mem_cons.mpr
        ⟨⟨d, List.mem_cons_self, rfl⟩, fun e he => ?_⟩⟩
      · rw [Catalog.after, List.foldl_cons, hrun]
        exact hafter
      · obtain ⟨d', hd', rfl⟩ := hedits e he
        exact ⟨d', List.mem_cons_of_mem _ hd', rfl⟩

theorem PageDocument.exists_edits_addReferences (page : String) (ids : List String) (c : Catalog) :
    ∃ edits, (addReferences page ids c).2 = c.after edits ∧
      ∀ e ∈ edits, ∃ id ∈ ids, e = .toggleReference page id := by
  induction ids generalizing c with
  | nil => exact ⟨[], rfl, by simp⟩
  | cons id ids ih =>
    rw [addReferences]
    split
    · obtain ⟨edits, hafter, hedits⟩ := ih c
      refine ⟨edits, hafter, fun e he => ?_⟩
      obtain ⟨id', hid', rfl⟩ := hedits e he
      exact ⟨id', List.mem_cons_of_mem _ hid', rfl⟩
    · cases htoggle : c.toggleReference page id with
      | error error => exact ⟨[], rfl, by simp⟩
      | ok outcome =>
        obtain ⟨on, c₁⟩ := outcome
        obtain ⟨edits, hafter, hedits⟩ := ih c₁
        have hrun : ((Edit.toggleReference page id).run c).2 = c₁ :=
          Edit.run_snd_of_result (.referenced on) (by rw [Edit.result, htoggle]; rfl)
        refine ⟨.toggleReference page id :: edits, ?_, List.forall_mem_cons.mpr
          ⟨⟨id, List.mem_cons_self, rfl⟩, fun e he => ?_⟩⟩
        · rw [Catalog.after, List.foldl_cons, hrun]
          exact hafter
        · obtain ⟨id', hid', rfl⟩ := hedits e he
          exact ⟨id', List.mem_cons_of_mem _ hid', rfl⟩

theorem Catalog.after_append (c : Catalog) (edits edits' : List Edit) :
    c.after (edits ++ edits') = (c.after edits).after edits' := List.foldl_append

/-- An installation does to the catalog what a sequence of operations does, also if it fails. -/
theorem PageDocument.exists_edits (doc : PageDocument) (c : Catalog) :
    ∃ edits, (doc.extendCatalog c).2 = c.after edits ∧ ∀ e ∈ edits, doc.Performs e := by
  obtain ⟨added, hadded, hglobals⟩ := exists_edits_addGlobals doc.globals c
  have hfirst : ∀ e ∈ added, doc.Performs e := by
    intro e he
    obtain ⟨d, hd, rfl⟩ := hglobals e he
    exact hd
  rw [extendCatalog]
  cases hc : addGlobals doc.globals c with
  | mk failure c₁ =>
    rw [hc] at hadded
    cases failure with
    | some error => exact ⟨added, hadded, hfirst⟩
    | none =>
      dsimp only
      cases hset : c₁.setPageSources doc.page doc.pageSources with
      | error error => exact ⟨added, hadded, hfirst⟩
      | ok c₂ =>
        obtain ⟨made, hmade, hreferences⟩ :=
          exists_edits_addReferences doc.page doc.references c₂
        have hrun : ((Edit.setPageSources doc.page doc.pageSources).run c₁).2 = c₂ :=
          Edit.run_snd_of_result .done (by rw [Edit.result, hset]; rfl)
        refine ⟨added ++ .setPageSources doc.page doc.pageSources :: made, ?_, ?_⟩
        · rw [Catalog.after_append, ← hadded, Catalog.after, List.foldl_cons, hrun]
          exact hmade
        · rw [List.forall_mem_append, List.forall_mem_cons]
          refine ⟨hfirst, ⟨rfl, rfl⟩, fun e he => ?_⟩
          obtain ⟨j, hj, rfl⟩ := hreferences e he
          exact ⟨rfl, hj⟩

/-- The operations on catalogs of which an operation on an app consists. -/
def Operation.Performs : Operation → Edit → Prop
  | .edit e, e' => e' = e
  | .removeGlobal id, e' => e' = .removeGlobal id
  | .removePage page, e' => e' = .removePage page
  | .install doc, e' => doc.Performs e'
  | _, _ => False

theorem Operation.exists_edits (op : Operation) (app : App) :
    ∃ edits, (op.perform app).catalog = app.catalog.after edits ∧ ∀ e ∈ edits, op.Performs e := by
  cases op with
  | edit e => exact ⟨[e], rfl, by simp [Performs]⟩
  | removeGlobal id =>
    rw [App.removeGlobal_perform]
    exact ⟨[.removeGlobal id], rfl, by simp [Performs]⟩
  | removePage page =>
    rw [App.removePage_perform]
    exact ⟨[.removePage page], rfl, by simp [Performs]⟩
  | install doc =>
    obtain ⟨edits, hafter, hedits⟩ := doc.exists_edits app.catalog
    refine ⟨edits, ?_, hedits⟩
    rw [perform, PageDocument.install, ← hafter]
    cases doc.extendCatalog app.catalog with
    | mk failure c => cases failure <;> rfl
  | apply scope id r => exact ⟨[], rfl, by simp⟩
  | forget scope id => exact ⟨[], rfl, by simp⟩
  | forgetScope scope => exact ⟨[], rfl, by simp⟩
  | clear => exact ⟨[], rfl, by simp⟩
  | refresh network page => exact ⟨[], rfl, by simp⟩

/-! ## How sources and references come about -/

/-- What holds after a sequence of operations held before or has come about by one of them. -/
theorem Edit.of_after (P : Catalog → Prop) {Q : Edit → Prop}
    (hrun : ∀ (c : Catalog) (e : Edit), P (e.run c).2 → P c ∨ Q e) {edits : List Edit}
    (h : P (c.after edits)) : P c ∨ ∃ e ∈ edits, Q e := by
  induction edits generalizing c with
  | nil => exact .inl h
  | cons e edits ih =>
    rcases ih h with h | ⟨e', he', hQ⟩
    · exact (hrun c e h).imp_right fun hQ => ⟨e, List.mem_cons_self, hQ⟩
    · exact .inr ⟨e', List.mem_cons_of_mem _ he', hQ⟩

/-- A global source is there after an operation if it was there before or has been added. -/
theorem Edit.defined_of_run {e : Edit} (h : ((e.run c).2.getGlobal? id).isSome = true) :
    (c.getGlobal? id).isSome = true ∨ ∃ d, d.id = id ∧ e = .addGlobal d := by
  rw [getGlobal?, Keyed.isSome_get?_iff, (e.run_overwrites c).globals_eq] at h
  rw [getGlobal?, Keyed.isSome_get?_iff]
  cases e with
  | addGlobal d =>
    rw [onGlobals] at h
    split at h
    · exact .inl h
    · rw [Keyed.map_key_put] at h
      split at h
      · exact .inl h
      · rcases List.mem_append.mp h with h | h
        · exact .inl h
        · exact .inr ⟨d, (List.mem_singleton.mp h).symm, rfl⟩
  | removeGlobal j => exact .inl ((List.eraseP_sublist.map _).subset h)
  | toggleReference q j => exact .inl h
  | setPageSources q ds => exact .inl h
  | removePage q => exact .inl h

theorem Edit.defined_of_after {edits : List Edit}
    (h : ((c.after edits).getGlobal? id).isSome = true) :
    (c.getGlobal? id).isSome = true ∨ ∃ d, d.id = id ∧ .addGlobal d ∈ edits := by
  rcases of_after (fun c => (c.getGlobal? id).isSome = true) (fun _ _ => defined_of_run) h with
    h | ⟨e, he, d, hd, rfl⟩
  · exact .inl h
  · exact .inr ⟨d, hd, he⟩

/-- A reference is there after an operation if it was there before or has been toggled. -/
theorem Edit.isReferenced_of_run {e : Edit} (h : (e.run c).2.isReferenced page id = true) :
    c.isReferenced page id = true ∨ e = .toggleReference page id := by
  rw [(e.run_overwrites c).isReferenced_eq] at h
  cases e with
  | addGlobal d => exact .inl h
  | removeGlobal j =>
    rw [onReference, Bool.and_eq_true] at h
    exact .inl h.1
  | toggleReference q j =>
    rw [onReference] at h
    split at h
    · rename_i hqj
      exact .inr (by rw [hqj.1, hqj.2])
    · exact .inl h
  | setPageSources q ds => exact .inl h
  | removePage q =>
    rw [onReference] at h
    split at h
    · cases h
    · exact .inl h

theorem Edit.isReferenced_of_after {edits : List Edit}
    (h : (c.after edits).isReferenced page id = true) :
    c.isReferenced page id = true ∨ .toggleReference page id ∈ edits := by
  rcases of_after (fun c => c.isReferenced page id = true) (fun _ _ => isReferenced_of_run) h with
    h | ⟨e, he, rfl⟩
  · exact .inl h
  · exact .inr he

end Catalog

namespace App

variable {app app' : App} {page id : String}

theorem after_append (app : App) (ops ops' : List Operation) :
    app.after (ops ++ ops') = (app.after ops).after ops' := List.foldl_append

theorem obtained_after (h : Obtained app.catalog) (ops : List Operation) :
    Obtained (app.after ops).catalog := by
  induction ops generalizing app with
  | nil => exact h
  | cons op ops ih =>
    obtain ⟨edits, hafter, -⟩ := op.exists_edits app
    exact ih (hafter ▸ h.after edits)

/-- What does not hold at first and holds in the end comes to hold by one of the operations. -/
theorem exists_change (app : App) (P : App → Prop) {ops : List Operation} (h : ¬P app)
    (h' : P (app.after ops)) :
    ∃ earlier op later, ops = earlier ++ op :: later ∧
      ¬P (app.after earlier) ∧ P (op.perform (app.after earlier)) := by
  induction ops using List.reverseRecOn with
  | nil => exact absurd h' h
  | append_singleton ops op ih =>
    rw [after_append] at h'
    by_cases hbefore : P (app.after ops)
    · obtain ⟨earlier, op', later, rfl, hchange⟩ := ih hbefore
      exact ⟨earlier, op', later ++ [op], by simp, hchange⟩
    · exact ⟨ops, op, [], rfl, hbefore, h'⟩

/-- In a sequence of operations there is one by which a global source comes to be there. -/
def Adds (app : App) (ops : List Operation) (id : String) : Prop :=
  ∃ earlier op later, ops = earlier ++ op :: later ∧ (∃ d, d.id = id ∧ op.Performs (.addGlobal d)) ∧
    (app.after earlier).catalog.getGlobal? id = none ∧
    ((op.perform (app.after earlier)).catalog.getGlobal? id).isSome = true

theorem exists_adds {ops : List Operation} (h : app.catalog.getGlobal? id = none)
    (h' : ((app.after ops).catalog.getGlobal? id).isSome = true) : app.Adds ops id := by
  obtain ⟨earlier, op, later, hops, hbefore, hafter⟩ := exists_change app
    (fun app => (app.catalog.getGlobal? id).isSome = true) (by simp [h]) h'
  obtain ⟨edits, hcatalog, hedits⟩ := op.exists_edits (app.after earlier)
  rcases Edit.defined_of_after (hcatalog ▸ hafter) with hdefined | ⟨d, hd, hmem⟩
  · exact absurd hdefined hbefore
  · exact ⟨earlier, op, later, hops, ⟨d, hd, hedits _ hmem⟩, by simpa using hbefore, hafter⟩

/-- In a sequence of operations there is one by which a page comes to refer to a global source, and
with it or before it one by which the source comes to be there. -/
def Refers (app : App) (ops : List Operation) (page id : String) : Prop :=
  ∃ earlier op later, ops = earlier ++ op :: later ∧ op.Performs (.toggleReference page id) ∧
    (app.after earlier).catalog.isReferenced page id = false ∧
    (op.perform (app.after earlier)).catalog.isReferenced page id = true ∧
    app.Adds (earlier ++ [op]) id

theorem exists_refers {ops : List Operation} (hglobal : app.catalog.getGlobal? id = none)
    (h : app.catalog.isReferenced page id = false)
    (h' : (app.after ops).catalog.isReferenced page id = true) : app.Refers ops page id := by
  obtain ⟨earlier, op, later, hops, hbefore, hafter⟩ := exists_change app
    (fun app => app.catalog.isReferenced page id = true) (by simp [h]) h'
  obtain ⟨edits, hcatalog, hedits⟩ := op.exists_edits (app.after earlier)
  have hafter' : ((app.after earlier).catalog.after edits).isReferenced page id = true :=
    hcatalog ▸ hafter
  -- The reference is new, so it does not dangle: the source is there.
  have hdefined : ((op.perform (app.after earlier)).catalog.getGlobal? id).isSome = true := by
    rw [getGlobal?, Keyed.isSome_get?_iff, hcatalog]
    by_contra hundefined
    have hdangling : Dangling ((app.after earlier).catalog.after edits) page id :=
      ⟨hafter', hundefined⟩
    exact hbefore hdangling.of_after.1
  have hadds : app.Adds (earlier ++ [op]) id := by
    refine exists_adds hglobal ?_
    rw [after_append]
    exact hdefined
  rcases Edit.isReferenced_of_after hafter' with href | hmem
  · exact absurd href hbefore
  · exact ⟨earlier, op, later, hops, hedits _ hmem, by simpa using hbefore, hafter, hadds⟩

end App

/-! ## Operations that store no result -/

/-- The operation stores a result of a source. -/
def Operation.Writes (app : App) (scope : Scope) (id : String) : Operation → Prop
  | .apply sc i _ => sc = scope ∧ i = id
  | .refresh _ page => ∃ d, (scope, d) ∈ app.catalog.scopedSources page ∧ d.id = id
  | .install doc =>
    (doc.install app).1 = none ∧ doc.scopeOf id = scope ∧ (doc.results.get? id).isSome = true
  | _ => False

namespace App

variable {app app' : App} {scope : Scope} {page id : String}

/-- None of the operations, carried out one after the other, stores a result of a source. -/
def Unwritten (scope : Scope) (id : String) : App → List Operation → Prop
  | _, [] => True
  | app, op :: ops => ¬op.Writes app scope id ∧ Unwritten scope id (op.perform app) ops

theorem get?_install_of_not_writes {doc : PageDocument}
    (hop : ¬(Operation.install doc).Writes app scope id) :
    (doc.install app).2.store.get? scope id = app.store.get? scope id := by
  cases hinstall : doc.install app with
  | mk failure app' =>
    cases failure with
    | some error =>
      rw [PageDocument.install] at hinstall
      cases hc : doc.extendCatalog app.catalog with
      | mk failure c =>
        rw [hc] at hinstall
        cases failure with
        | some error =>
          cases hinstall
          rfl
        | none => cases hinstall
    | none =>
      rw [(PageDocument.install_eq_none hinstall).2, PageDocument.get?_storeResults]
      split
      · rename_i hscope
        have hresult : doc.results.get? id = none := by
          rw [← Option.not_isSome_iff_eq_none]
          exact fun hsome => hop ⟨by rw [hinstall], hscope, hsome⟩
        rw [hresult]
        rfl
      · rfl

/-- An operation that stores no result of a source leaves it without one. -/
theorem get?_perform {op : Operation} (hop : ¬op.Writes app scope id)
    (h : app.store.get? scope id = none) : (op.perform app).store.get? scope id = none := by
  cases op with
  | edit e => exact h
  | apply sc i r =>
    have hother : ¬(sc = scope ∧ i = id) := hop
    rw [Operation.perform, ResultStore.get?_apply, if_neg hother]
    exact h
  | forget sc i =>
    rw [Operation.perform, ResultStore.get?_forget]
    split
    · rfl
    · exact h
  | forgetScope sc =>
    rw [Operation.perform, ResultStore.get?_forgetScope]
    split
    · rfl
    · exact h
  | clear => rfl
  | removeGlobal i =>
    rw [removeGlobal_perform]
    dsimp only
    split
    · rw [ResultStore.get?_forget]
      split
      · rfl
      · exact h
    · exact h
  | removePage q =>
    rw [removePage_perform, ResultStore.get?_forgetScope]
    split
    · rfl
    · exact h
  | refresh network q =>
    have hkept : ((Operation.refresh network q).perform app).store.get? scope id =
        app.store.get? scope id :=
      get?_refreshEach_of_not_mem fun d hd heq => hop ⟨d, hd, heq⟩
    rw [hkept, h]
  | install doc =>
    rw [Operation.perform, get?_install_of_not_writes hop, h]

/-- No result appears where none is stored, neither at first nor later. -/
theorem Unwritten.get?_after {ops : List Operation} (hops : app.Unwritten scope id ops)
    (h : app.store.get? scope id = none) : (app.after ops).store.get? scope id = none := by
  induction ops generalizing app with
  | nil => exact h
  | cons op ops ih => exact ih hops.2 (get?_perform hops.1 h)

/-! ## What names stand for -/

/-- What a source of a scope stands for. -/
def state (app : App) (scope : Scope) (id : String) : Binding :=
  ((app.store.get? scope id).getD .pending).toBinding

theorem state_of_get?_eq_none (h : app.store.get? scope id = none) :
    app.state scope id = .pending := by
  rw [state, h]
  rfl

/-- An id stands for the state of the page's own source, or else for that of the global source to
which the page refers. -/
theorem lookup_context (app : App) (page name : String) :
    (app.context page).lookup name =
      if name ∈ (app.catalog.pageSources page).map DataSource.id then
        some (app.state (.page page) name)
      else if name ∈ (app.catalog.referencedGlobals page).map DataSource.id then
        some (app.state .global name)
      else none := by
  have hbindings (scope : Scope) (ds : List DataSource) :
      bindings app.store.resolve scope ds =
        (ds.map DataSource.id).map fun id => (id, app.state scope id) := by
    rw [List.map_map]
    rfl
  rw [context, lookup_buildContext, hbindings, hbindings, KeyMap.get?_ofList_map,
    KeyMap.get?_ofList_map]
  split
  · rfl
  · rfl

theorem lookup_context_global {d : DataSource}
    (hd : (Scope.global, d) ∈ app.catalog.scopedSources page) :
    (app.context page).lookup d.id = some (app.state .global d.id) := by
  rcases mem_scopedSources_iff.mp hd with ⟨-, hvisible⟩ | ⟨hscope, -⟩
  · obtain ⟨hmem, href, hshown⟩ := mem_visibleGlobals_iff.mp hvisible
    have hreferenced : d ∈ app.catalog.referencedGlobals page := List.mem_filter.mpr ⟨hmem, href⟩
    rw [lookup_context, if_neg hshown, if_pos (List.mem_map_of_mem hreferenced)]
  · cases hscope

theorem lookup_context_page {d : DataSource} (hd : d ∈ app.catalog.pageSources page) :
    (app.context page).lookup d.id = some (app.state (.page page) d.id) := by
  rw [lookup_context, if_pos (List.mem_map_of_mem hd)]

/-! ## Removals -/

/-- All that removing a global source does to an app. -/
theorem removeGlobal_eq_some {d : DataSource} {pages : List String}
    (h : app.removeGlobal id = some (d, pages, app')) :
    app.catalog.Removed id d pages app'.catalog ∧ app'.store = app.store.forget .global id := by
  rw [App.removeGlobal, Option.map_eq_some_iff] at h
  obtain ⟨⟨d', pages', c⟩, hremove, heq⟩ := h
  cases heq
  exact ⟨removed hremove, rfl⟩

/-- **Removed sources do not come back with old results.** After a global source has been removed,
and after further operations none of which stores a result for it, its id stands for a source that
is loading wherever a page sees a global source of that id. A page refers to it only after an
operation that makes the reference, with or after one that adds the source. After a page has been
removed, the id of each source that it has later stands for one that is loading, as long as no
operation stores a result for it. -/
theorem removed_pending :
    (∀ (app app' : App) (id : String) (d : DataSource) (pages : List String),
      app.removeGlobal id = some (d, pages, app') → ∀ ops : List Operation,
        (app'.Unwritten .global id ops → ∀ page d',
          (.global, d') ∈ (app'.after ops).catalog.scopedSources page → d'.id = id →
            ((app'.after ops).context page).lookup id = some .pending) ∧
        (Obtained app.catalog → ∀ page,
          (app'.after ops).catalog.isReferenced page id = true → app'.Refers ops page id)) ∧
    ∀ (app : App) (page : String) (ops : List Operation),
      ∀ d ∈ ((app.removePage page).after ops).catalog.pageSources page,
        (app.removePage page).Unwritten (.page page) d.id ops →
          (((app.removePage page).after ops).context page).lookup d.id = some .pending := by
  constructor
  · intro app app' id d pages h ops
    obtain ⟨hremoved, hstore⟩ := removeGlobal_eq_some h
    constructor
    · rintro hops page d' hd' rfl
      have hnone : app'.store.get? .global d'.id = none := by
        rw [hstore, ResultStore.get?_forget, if_pos ⟨rfl, rfl⟩]
      rw [lookup_context_global hd', state_of_get?_eq_none (hops.get?_after hnone)]
    · intro hobtained page href
      have hglobal : app'.catalog.getGlobal? id = none := by
        rw [getGlobal?, hremoved.globals_eq,
          Keyed.eraseP_eq_remove hobtained.soundSources.globals.nodup, Keyed.get?_remove_self]
      exact exists_refers hglobal (by simp [hremoved.isReferenced_eq]) href
  · intro app page ops d hd hops
    have hnone : (app.removePage page).store.get? (.page page) d.id = none := by
      rw [App.removePage, ResultStore.get?_forgetScope, if_pos rfl]
    rw [lookup_context_page hd, state_of_get?_eq_none (hops.get?_after hnone)]

/-- A source with a plain request. -/
def plainSource (id : String) : DataSource := DataSource.new id (RequestOptions.get "/")

/-- A page that refers to a global source and has one of its own, both with results. -/
def loadedApp : App :=
  (App.fresh Config.default .path).after
    [.edit (.addGlobal (plainSource "users")), .edit (.toggleReference "home" "users"),
      .apply .global "users" (.value (.str "Ada")),
      .edit (.setPageSources "home" [plainSource "orders"]),
      .apply (.page "home") "orders" (.value (.str "ours"))]

/-- The source is added again, and the page refers to it again. -/
def renewal : List Operation :=
  [.refresh Network.offline "about", .edit (.addGlobal (plainSource "users")),
    .edit (.toggleReference "home" "users")]

theorem removed_pending_loadedApp :
    (loadedApp.context "home").lookup "users" = some (.value (.str "Ada")) ∧
      (∃ d pages app, loadedApp.removeGlobal "users" = some (d, pages, app) ∧
        app.Unwritten .global "users" renewal ∧
        ((app.after renewal).context "home").lookup "users" = some .pending ∧
        app.Refers renewal "home" "users") ∧
      (loadedApp.context "home").lookup "orders" = some (.value (.str "ours")) ∧
      (((loadedApp.removePage "home").after
        [.edit (.setPageSources "home" [plainSource "orders"])]).context "home").lookup "orders" =
          some .pending := by
  have hobtained : Obtained loadedApp.catalog := obtained_after .empty _
  refine ⟨rfl, ⟨_, _, _, rfl, ?_⟩, rfl, ?_⟩
  · obtain ⟨hpending, hrefers⟩ := removed_pending.1 loadedApp _ "users" _ _ rfl renewal
    have hunwritten : Unwritten .global "users"
        ((Operation.removeGlobal "users").perform loadedApp) renewal := by
      refine ⟨?_, id, id, trivial⟩
      rintro ⟨d, hd, -⟩
      cases hd
    refine ⟨hunwritten, hpending hunwritten "home" (plainSource "users") ?_ rfl,
      hrefers hobtained "home" rfl⟩
    exact List.mem_cons_self
  · exact removed_pending.2 loadedApp "home" [.edit (.setPageSources "home" [plainSource "orders"])]
      (plainSource "orders") List.mem_cons_self ⟨id, trivial⟩

end App

end LivePage
