import LivePage.App.Operations
import LivePage.Proofs.App.Installation
import LivePage.Proofs.DataSource.Loading
import LivePage.Proofs.DataSource.Separation

/-!
# Pages do not influence each other

Two apps that differ in nothing but one page go on so, whatever is done to both of them, as long as
nothing is loaded on behalf of that page; and they show every other page alike. Loading on behalf of
a page reaches other pages through the results of global sources that both refer to.

* `Catalog.AgreeBeside.extendCatalog`: a document for another page is added to both catalogs alike.
* `Operation.page?`, `Operation.LoadsFor`: operations on one page, and those that load for it.
* `App.AgreeBeside`: two apps that differ in nothing but one page.
* `App.AgreeBeside.perform`, `App.AgreeBeside.after`: one operation on both, and a sequence.
* `App.agreeBeside_perform`: what an operation on one page does.
* `App.exists_after`: no operation changes the settings, the renderers or the evaluator.
* `App.renderPage_independent`: the renderings of other pages.
-/

namespace LivePage

namespace Catalog

variable {q page : String} {c c' : Catalog}

/-! ## Documents for other pages -/

/-- Two runs that report the same failure, or none, and leave catalogs that differ in nothing but
one page. -/
def InStep (q : String) (r r' : Option CatalogError × Catalog) : Prop :=
  r.1 = r'.1 ∧ r.2.AgreeBeside q r'.2

theorem AgreeBeside.addGlobals (h : c.AgreeBeside q c') (ds : List DataSource) :
    InStep q (PageDocument.addGlobals ds c) (PageDocument.addGlobals ds c') := by
  induction ds generalizing c c' with
  | nil => exact ⟨rfl, h⟩
  | cons d ds ih =>
    rw [PageDocument.addGlobals, PageDocument.addGlobals, addGlobal, addGlobal]
    by_cases hd : d.id.isEmpty = true
    · rw [if_pos hd, if_pos hd]
      exact ⟨rfl, h⟩
    · rw [if_neg hd, if_neg hd]
      exact ih ⟨by rw [h.globals_eq], h.pageSources_eq, h.isReferenced_eq⟩

theorem AgreeBeside.addReferences (h : c.AgreeBeside q c') (hpage : page ≠ q)
    (ids : List String) :
    InStep q (PageDocument.addReferences page ids c) (PageDocument.addReferences page ids c') := by
  induction ids generalizing c c' with
  | nil => exact ⟨rfl, h⟩
  | cons id ids ih =>
    rw [PageDocument.addReferences, PageDocument.addReferences, ← h.isReferenced_eq page id hpage]
    by_cases href : c.isReferenced page id = true
    · rw [if_pos href, if_pos href]
      exact ih h
    · rw [if_neg href, if_neg href]
      rcases h.toggleReference hpage id with ⟨e, he, he'⟩ | ⟨on, c₁, c₁', hok, hok', h₁⟩
      · rw [he, he']
        exact ⟨rfl, h⟩
      · rw [hok, hok']
        exact ih h₁

/-- A document for another page is added to both catalogs alike. -/
theorem AgreeBeside.extendCatalog (h : c.AgreeBeside q c') {doc : PageDocument}
    (hpage : doc.page ≠ q) : InStep q (doc.extendCatalog c) (doc.extendCatalog c') := by
  have hadded := h.addGlobals doc.globals
  rw [PageDocument.extendCatalog, PageDocument.extendCatalog]
  cases hc : PageDocument.addGlobals doc.globals c with
  | mk failure c₁ =>
    cases hc' : PageDocument.addGlobals doc.globals c' with
    | mk failure' c₁' =>
      rw [hc, hc'] at hadded
      obtain ⟨rfl, h₁⟩ : failure = failure' ∧ c₁.AgreeBeside q c₁' := hadded
      cases failure with
      | some e => exact ⟨rfl, h₁⟩
      | none =>
        have hrun := h₁.run (.setPageSources doc.page doc.pageSources)
        rw [Edit.run_eq, Edit.run_eq, Edit.result, Edit.result] at hrun
        unfold setPageSources at hrun ⊢
        cases hids : checkIds doc.page doc.pageSources with
        | error e => exact ⟨rfl, h₁⟩
        | ok passed =>
          rw [hids] at hrun
          exact AgreeBeside.addReferences hrun hpage doc.references

end Catalog

/-! ## Operations on one page -/

/-- The page to which an operation is confined. -/
def Operation.page? : Operation → Option String
  | .edit e => e.page?
  | .apply (.page page) _ _ => some page
  | .forget (.page page) _ => some page
  | .forgetScope (.page page) => some page
  | .removePage page => some page
  | _ => none

/-- An operation stores results because a page needs them, those of global sources among them. -/
def Operation.LoadsFor (q : String) : Operation → Prop
  | .refresh _ page => page = q
  | .install doc => doc.page = q
  | _ => False

namespace App

variable {app app' : App} {p q : String}

/-- Two apps differ in nothing but the sources, the references and the results of one page. -/
structure AgreeBeside (q : String) (app app' : App) : Prop where
  config_eq : app.config = app'.config
  registry_eq : app.registry = app'.registry
  evaluator_eq : app.evaluator = app'.evaluator
  catalog : app.catalog.AgreeBeside q app'.catalog
  get?_eq : ∀ scope, scope ≠ .page q → ∀ id,
    app.store.get? scope id = app'.store.get? scope id

theorem AgreeBeside.refl (q : String) (app : App) : app.AgreeBeside q app :=
  ⟨rfl, rfl, rfl, .refl q app.catalog, fun _ _ _ => rfl⟩

theorem AgreeBeside.withStore (h : app.AgreeBeside q app') {store store' : ResultStore}
    (hstore : ∀ scope, scope ≠ .page q → ∀ id, store.get? scope id = store'.get? scope id) :
    { app with store }.AgreeBeside q { app' with store := store' } :=
  ⟨h.config_eq, h.registry_eq, h.evaluator_eq, h.catalog, hstore⟩

theorem removeGlobal_perform (app : App) (id : String) :
    (Operation.removeGlobal id).perform app =
      { app with
        catalog := ((Edit.removeGlobal id).run app.catalog).2
        store := if (app.catalog.getGlobal? id).isSome then app.store.forget .global id
          else app.store } := by
  rw [Operation.perform, App.removeGlobal, Edit.run_eq, Edit.result]
  cases hremove : app.catalog.removeGlobal id with
  | none =>
    have hnone := Catalog.removeGlobal_eq_none_iff.mp hremove
    rw [hnone]
    rfl
  | some outcome =>
    have hfound := (Catalog.removed hremove).found
    rw [hfound]
    rfl

theorem removePage_perform (app : App) (page : String) :
    (Operation.removePage page).perform app =
      { app with
        catalog := ((Edit.removePage page).run app.catalog).2
        store := app.store.forgetScope (.page page) } := rfl

/-- An operation on one page changes nothing but that page. -/
theorem agreeBeside_perform {op : Operation} (hop : op.page? = some q) (app : App) :
    (op.perform app).AgreeBeside q app := by
  cases op with
  | edit e => exact ⟨rfl, rfl, rfl, Catalog.agreeBeside_run hop app.catalog, fun _ _ _ => rfl⟩
  | apply scope id r =>
    cases scope with
    | global => cases hop
    | page name =>
      cases hop
      refine (AgreeBeside.refl q app).withStore fun scope hscope i => ?_
      rw [ResultStore.get?_apply, if_neg fun h => hscope h.1.symm]
  | forget scope id =>
    cases scope with
    | global => cases hop
    | page name =>
      cases hop
      refine (AgreeBeside.refl q app).withStore fun scope hscope i => ?_
      rw [ResultStore.get?_forget, if_neg fun h => hscope h.1.symm]
  | forgetScope scope =>
    cases scope with
    | global => cases hop
    | page name =>
      cases hop
      refine (AgreeBeside.refl q app).withStore fun scope hscope i => ?_
      rw [ResultStore.get?_forgetScope, if_neg fun h => hscope h.symm]
  | removePage page =>
    cases hop
    have hremoved : (app.catalog.removePage q).AgreeBeside q app.catalog :=
      Catalog.agreeBeside_run (e := .removePage q) rfl app.catalog
    refine ⟨rfl, rfl, rfl, hremoved, fun scope hscope i => ?_⟩
    rw [removePage_perform, ResultStore.get?_forgetScope, if_neg fun h => hscope h.symm]
  | clear => cases hop
  | removeGlobal id => cases hop
  | refresh network page => cases hop
  | install doc => cases hop

/-! ## The same operations on both -/

namespace AgreeBeside

theorem install (h : app.AgreeBeside q app') {doc : PageDocument} (hpage : doc.page ≠ q) :
    (doc.install app).2.AgreeBeside q (doc.install app').2 := by
  have hstep := h.catalog.extendCatalog hpage
  rw [PageDocument.install, PageDocument.install]
  cases hc : doc.extendCatalog app.catalog with
  | mk failure c =>
    cases hc' : doc.extendCatalog app'.catalog with
    | mk failure' c' =>
      rw [hc, hc'] at hstep
      obtain ⟨rfl, hcatalog⟩ : failure = failure' ∧ c.AgreeBeside q c' := hstep
      cases failure with
      | some e => exact ⟨h.config_eq, h.registry_eq, h.evaluator_eq, hcatalog, h.get?_eq⟩
      | none =>
        refine ⟨h.config_eq, h.registry_eq, h.evaluator_eq, hcatalog, fun scope hscope id => ?_⟩
        rw [PageDocument.get?_storeResults, PageDocument.get?_storeResults, h.get?_eq scope hscope]

/-- An operation on both apps leaves apps that differ in nothing but the page. -/
theorem perform (h : app.AgreeBeside q app') {op : Operation} (hop : ¬op.LoadsFor q) :
    (op.perform app).AgreeBeside q (op.perform app') := by
  cases op with
  | edit e => exact ⟨h.config_eq, h.registry_eq, h.evaluator_eq, h.catalog.run e, h.get?_eq⟩
  | apply scope id r =>
    refine h.withStore fun sc hsc i => ?_
    rw [ResultStore.get?_apply, ResultStore.get?_apply, h.get?_eq sc hsc]
  | forget scope id =>
    refine h.withStore fun sc hsc i => ?_
    rw [ResultStore.get?_forget, ResultStore.get?_forget, h.get?_eq sc hsc]
  | forgetScope scope =>
    refine h.withStore fun sc hsc i => ?_
    rw [ResultStore.get?_forgetScope, ResultStore.get?_forgetScope, h.get?_eq sc hsc]
  | clear => exact h.withStore fun _ _ _ => rfl
  | removeGlobal id =>
    rw [removeGlobal_perform, removeGlobal_perform]
    refine ⟨h.config_eq, h.registry_eq, h.evaluator_eq, h.catalog.run _, fun sc hsc i => ?_⟩
    dsimp only
    rw [← h.catalog.getGlobal?_eq]
    split
    · rw [ResultStore.get?_forget, ResultStore.get?_forget, h.get?_eq sc hsc]
    · exact h.get?_eq sc hsc i
  | removePage page =>
    rw [removePage_perform, removePage_perform]
    refine ⟨h.config_eq, h.registry_eq, h.evaluator_eq, h.catalog.run _, fun sc hsc i => ?_⟩
    rw [ResultStore.get?_forgetScope, ResultStore.get?_forgetScope, h.get?_eq sc hsc]
  | refresh network page =>
    refine h.withStore fun sc hsc i => ?_
    rw [h.catalog.scopedSources_eq hop]
    exact Catalog.get?_refreshEach_congr (h.get?_eq sc hsc i)
  | install doc => exact h.install hop

/-- A sequence of operations on both apps leaves apps that differ in nothing but the page. -/
theorem after (h : app.AgreeBeside q app') {ops : List Operation}
    (hops : ∀ op ∈ ops, ¬op.LoadsFor q) : (app.after ops).AgreeBeside q (app'.after ops) := by
  induction ops generalizing app app' with
  | nil => exact h
  | cons op ops ih =>
    obtain ⟨hop, hops⟩ := List.forall_mem_cons.mp hops
    exact ih (h.perform hop) hops

end AgreeBeside

/-! ## What a page shows -/

/-- A page sees the global sources that it refers to, its own, and their results. -/
theorem context_congr (hglobals : app.catalog.globals = app'.catalog.globals)
    (hsources : app.catalog.pageSources p = app'.catalog.pageSources p)
    (hreferences : ∀ id, app.catalog.isReferenced p id = app'.catalog.isReferenced p id)
    (hshared : ∀ id, app.catalog.isReferenced p id = true →
      app.store.get? .global id = app'.store.get? .global id)
    (hlocal : ∀ id, app.store.get? (.page p) id = app'.store.get? (.page p) id) :
    app.context p = app'.context p := by
  have hreferenced : app.catalog.referencedGlobals p = app'.catalog.referencedGlobals p := by
    rw [Catalog.referencedGlobals, Catalog.referencedGlobals, hglobals]
    exact List.filter_congr fun d _ => hreferences d.id
  have hbound : ∀ d ∈ app'.catalog.referencedGlobals p,
      app.store.resolve .global d = app'.store.resolve .global d := by
    intro d hd
    have href := (List.mem_filter.mp hd).2
    rw [ResultStore.resolve, hshared d.id (hreferences d.id ▸ href), ResultStore.resolve]
  have hown : ∀ d, app.store.resolve (.page p) d = app'.store.resolve (.page p) d := by
    intro d
    rw [ResultStore.resolve, hlocal d.id, ResultStore.resolve]
  unfold context Catalog.buildContext
  rw [hreferenced, hsources]
  simp only [hown]
  congr 2
  exact List.map_congr_left fun d hd => by rw [hbound d hd]

theorem renderPage_congr (hconfig : app.config = app'.config)
    (hregistry : app.registry = app'.registry) (hevaluator : app.evaluator = app'.evaluator)
    (hcontext : app.context p = app'.context p) (tree : Component) :
    app.renderPage p tree = app'.renderPage p tree := by
  rw [renderPage, hconfig, hregistry, hevaluator, hcontext, renderPage]

/-- Apps that differ in nothing but one page show every other page alike. -/
theorem AgreeBeside.renderPage_eq (h : app.AgreeBeside q app') (hpq : p ≠ q) (tree : Component) :
    app.renderPage p tree = app'.renderPage p tree := by
  refine renderPage_congr h.config_eq h.registry_eq h.evaluator_eq ?_ tree
  refine context_congr h.catalog.globals_eq (h.catalog.pageSources_eq p hpq)
    (fun id => h.catalog.isReferenced_eq p id hpq) (fun id _ => h.get?_eq .global nofun id)
    fun id => h.get?_eq (.page p) (fun heq => hpq (Scope.page.inj heq)) id

/-- Loading for a page stores the results of global sources that it refers to and of its own. -/
theorem get?_refresh_of_not_isReferenced {network : Network} {id : String}
    (h : app.catalog.isReferenced q id ≠ true) :
    (app.refresh network q).2.store.get? .global id = app.store.get? .global id := by
  refine Catalog.get?_refreshEach_of_not_mem fun d hd heq => ?_
  rcases Catalog.mem_scopedSources_iff.mp hd with ⟨-, hvisible⟩ | ⟨hscope, -⟩
  · exact h (heq ▸ (Catalog.mem_visibleGlobals_iff.mp hvisible).2.1)
  · cases hscope

theorem get?_refresh_page (hpq : p ≠ q) (network : Network) (id : String) :
    (app.refresh network q).2.store.get? (.page p) id = app.store.get? (.page p) id := by
  refine Catalog.get?_refreshEach_of_not_mem fun d hd _ => ?_
  rcases Catalog.mem_scopedSources_iff.mp hd with ⟨hscope, -⟩ | ⟨hscope, -⟩
  · cases hscope
  · exact hpq (Scope.page.inj hscope)

/-! ## What no operation changes -/

theorem exists_perform (op : Operation) (app : App) :
    ∃ catalog store, op.perform app = { app with catalog, store } := by
  cases op with
  | install doc =>
    rw [Operation.perform, PageDocument.install]
    cases doc.extendCatalog app.catalog with
    | mk failure c => cases failure <;> exact ⟨_, _, rfl⟩
  | removeGlobal id =>
    rw [removeGlobal_perform]
    exact ⟨_, _, rfl⟩
  | edit e | apply scope id r | forget scope id | forgetScope scope | clear | removePage page
  | refresh network page => exact ⟨_, _, rfl⟩

/-- Operations change nothing but the catalog and the results. -/
theorem exists_after (ops : List Operation) (app : App) :
    ∃ catalog store, app.after ops = { app with catalog, store } := by
  induction ops generalizing app with
  | nil => exact ⟨_, _, rfl⟩
  | cons op ops ih =>
    obtain ⟨c, s, hop⟩ := exists_perform op app
    obtain ⟨catalog, store, hops⟩ := ih (op.perform app)
    refine ⟨catalog, store, hops.trans ?_⟩
    rw [hop]

/-- **Pages do not influence each other.** An app that was new at some time renders its pages with
the built-in renderers and the evaluator that its settings ask for. In whatever state an app is, and
whatever evaluates its expressions, an operation on one page changes no rendering of another page,
neither the next one nor one after further operations, as long as nothing is loaded for the first
page. Loading for the first page changes renderings of the other only through the results of global
sources that both refer to: with these results, and all others as they were, the other page is
rendered as it is after the loading. -/
theorem renderPage_independent (p q : String) (hpq : p ≠ q) (app : App) :
    (∀ (scripts : Except String ScriptEngine) (config : Config) (fresh : App)
        (ops : List Operation), App.new scripts config = .ok fresh → app = fresh.after ops →
      ∃ evaluator, config.evaluator.evaluator scripts = .ok evaluator ∧ ∀ tree,
        app.renderPage p tree =
          Engine.render ⟨Registry.builtins, evaluator, config.catchPanics⟩ (app.context p) tree) ∧
      (∀ op : Operation, op.page? = some q →
        ∀ later : List Operation, (∀ o ∈ later, ¬o.LoadsFor q) → ∀ tree,
          ((op.perform app).after later).renderPage p tree =
            (app.after later).renderPage p tree) ∧
      ∀ (network : Network) (store : ResultStore),
        (∀ scope id, store.get? scope id =
          if scope = .global ∧ app.catalog.isReferenced p id ∧ app.catalog.isReferenced q id then
            (app.refresh network q).2.store.get? scope id
          else app.store.get? scope id) →
        ∀ tree, (app.refresh network q).2.renderPage p tree =
          { app with store }.renderPage p tree := by
  refine ⟨?_, ?_, ?_⟩
  · intro scripts config fresh ops hnew happ
    obtain ⟨evaluator, hevaluator, rfl⟩ := new_eq_ok_iff.mp hnew
    obtain ⟨catalog, store, hafter⟩ := exists_after ops (App.fresh config evaluator)
    refine ⟨evaluator, hevaluator, fun tree => ?_⟩
    rw [happ, hafter]
    rfl
  · intro op hop later hlater tree
    exact ((agreeBeside_perform hop app).after hlater).renderPage_eq hpq tree
  · intro network store hstore tree
    refine renderPage_congr ?_ ?_ ?_ ?_ tree
    · rfl
    · rfl
    · rfl
    refine context_congr rfl rfl (fun _ => rfl) ?_ ?_
    · intro id href
      rw [hstore]
      split
      · rfl
      · rename_i hshared
        exact get?_refresh_of_not_isReferenced fun hq => hshared ⟨rfl, href, hq⟩
    · intro id
      rw [hstore, if_neg fun h => Scope.noConfusion h.1]
      exact get?_refresh_page hpq network id

/-- An engine for scripts that knows no expressions but names. -/
def namesEngine : ScriptEngine where
  run
    | [(_, scope), _, (_, name)], _ =>
      match RawJson.parse? scope with
      | some (.obj fields) =>
        match KeyMap.lookup name fields with
        | some j => .ok ("v" ++ j.compact)
        | none => .ok ("eR'" ++ name ++ "' is not defined")
      | _ => .error "no scope"
    | _, _ => .error "no scope"
  refusal := id

/-- Settings that ask for scripts. -/
def scriptConfig : Config := { Config.default with evaluator := .js }

/-- Two pages that refer to one global source and have sources of their own of one id. -/
def teamOperations : List Operation :=
  let users := DataSource.new "users" ⟨.get, "/users", KeyMap.ofList [("mock", .str "Ada")]⟩
  let orders := DataSource.new "orders" (RequestOptions.get "/orders")
  [.edit (.addGlobal users), .edit (.toggleReference "home" "users"),
    .edit (.toggleReference "about" "users"), .edit (.setPageSources "home" [orders]),
    .edit (.setPageSources "about" [orders]),
    .apply (.page "home") "orders" (.value (.str "ours"))]

/-- An app with these pages that evaluates scripts. -/
def teamApp : App := (App.fresh scriptConfig (.scripts namesEngine)).after teamOperations

/-- A text that shows the sources of a page. -/
def teamText : Component :=
  (Component.new "text" "Text").bindProp "content" "$\x7busers\x7d, $\x7borders\x7d"

/-- The result of the other page's orders does not show on the page; that of the users does. -/
theorem renderPage_independent_teamApp :
    let theirs :=
      (Operation.apply (.page "about") "orders" (.value (.str "theirs"))).perform teamApp
    let loaded := (teamApp.refresh Network.offline "about").2
    App.new (.ok namesEngine) scriptConfig =
        .ok (App.fresh scriptConfig (.scripts namesEngine)) ∧
      (∀ tree, teamApp.renderPage "home" tree =
        Engine.render ⟨Registry.builtins, .scripts namesEngine, true⟩ (teamApp.context "home")
          tree) ∧
      (∀ tree, (theirs.after [.refresh Network.offline "home"]).renderPage "home" tree =
        (teamApp.after [.refresh Network.offline "home"]).renderPage "home" tree) ∧
      (∀ tree, loaded.renderPage "home" tree =
        { teamApp with
          store := teamApp.store.apply .global "users" (.value (.str "Ada")) }.renderPage
            "home" tree) ∧
      (teamApp.context "home").lookup "users" = some .pending ∧
      (loaded.renderPage "home" teamText).outcome.toOption.map Output.textContent =
        some "Ada, ours" := by
  have hne : "home" ≠ "about" := by decide
  obtain ⟨hreached, hprivate, hloaded⟩ := renderPage_independent "home" "about" hne teamApp
  have htext : ((teamApp.refresh Network.offline "about").2.renderPage "home"
      teamText).outcome.toOption.map Output.textContent = some "Ada, ours" := by
    decide +kernel
  have hnew : App.new (.ok namesEngine) scriptConfig =
      .ok (App.fresh scriptConfig (.scripts namesEngine)) := rfl
  refine ⟨hnew, ?_, hprivate _ rfl _ ?_, hloaded _ _ fun scope id => ?_, rfl, htext⟩
  · obtain ⟨evaluator, hevaluator, hrender⟩ := hreached _ _ _ _ hnew rfl
    cases hevaluator
    exact hrender
  · rintro o ho
    cases List.mem_singleton.mp ho
    exact hne
  · rw [ResultStore.get?_apply]
    by_cases h : Scope.global = scope ∧ "users" = id
    · obtain ⟨rfl, rfl⟩ := h
      rfl
    · have hid : teamApp.catalog.isReferenced "home" id =
          (if id = "users" then some () else none).isSome := rfl
      rw [if_neg h, if_neg]
      rintro ⟨rfl, hhome, -⟩
      refine h ⟨rfl, ?_⟩
      by_contra hne
      rw [hid, if_neg (Ne.symm hne)] at hhome
      cases hhome

end App

end LivePage
