import LivePage.App.Config
import LivePage.DataSource.Loading
import LivePage.Expr.Script
import LivePage.Render.Tree

/-!
# Apps

An app holds settings, renderers, the evaluator that the settings ask for, the catalog of data
sources and their results. A page is rendered from the results that are there; every rendering
builds the context anew.
-/

namespace LivePage

/-- The state of an app. -/
structure App where
  config : Config
  registry : Registry
  evaluator : Evaluator
  catalog : Catalog
  store : ResultStore

/-- The evaluator of a kind. One by scripts takes an engine for them, which may fail to start. -/
def EvaluatorKind.evaluator (scripts : Except String ScriptEngine) :
    EvaluatorKind → Except String Evaluator
  | .path => .ok .path
  | .js =>
    match scripts with
    | .ok engine => .ok (.scripts engine)
    | .error message => .error ("JS engine init failed: " ++ message)

namespace App

/-- An app with the built-in renderers and without sources. -/
def fresh (config : Config) (evaluator : Evaluator) : App :=
  ⟨config, Registry.builtins, evaluator, Catalog.empty, ResultStore.empty⟩

/-- A new app, or the message why there is no evaluator of the kind that its settings ask for. -/
def new (scripts : Except String ScriptEngine) (config : Config) : Except String App :=
  (config.evaluator.evaluator scripts).map (fresh config)

theorem new_eq_ok_iff {scripts : Except String ScriptEngine} {config : Config} {app : App} :
    new scripts config = .ok app ↔
      ∃ evaluator, config.evaluator.evaluator scripts = .ok evaluator ∧
        app = fresh config evaluator := by
  unfold new
  cases config.evaluator.evaluator scripts with
  | ok evaluator => simp [Except.map, eq_comm]
  | error message => simp [Except.map]

/-- Removes a global source with its references and its result. Returns the source and the pages
that referred to it. -/
def removeGlobal (app : App) (id : String) : Option (DataSource × List String × App) :=
  (app.catalog.removeGlobal id).map fun (d, pages, catalog) =>
    (d, pages, { app with catalog, store := app.store.forget .global id })

/-- Removes a page with the results of its sources. -/
def removePage (app : App) (page : String) : App :=
  { app with
    catalog := app.catalog.removePage page
    store := app.store.forgetScope (.page page) }

/-- Loads the sources in force on a page; returns how many failed. -/
def refresh (network : Network) (app : App) (page : String) : Nat × App :=
  let (failed, store) := app.catalog.refresh network page app.store
  (failed, { app with store })

/-- The context of a page. -/
def context (app : App) (page : String) : Context :=
  app.catalog.buildContext page app.store.resolve

/-- Renders a tree on a page. -/
def renderPage (app : App) (page : String) (tree : Component) : Pass Output :=
  Engine.render ⟨app.registry, app.evaluator, app.config.catchPanics⟩ (app.context page) tree

end App

end LivePage
