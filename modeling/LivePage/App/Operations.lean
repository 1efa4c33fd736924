import LivePage.App.Document
import LivePage.DataSource.Editing

/-!
# Operations on apps

All that can be done to an app short of registering renderers, and what a sequence of operations
makes of an app. An operation that is refused counts: it leaves what it did before it failed.

* `Operation`, `Operation.perform`: an operation with its arguments, and the app after it.
* `App.after`: the app after a sequence of operations.
-/

namespace LivePage

/-- An operation on an app, with its arguments. -/
inductive Operation
  | edit (e : Edit)
  | apply (scope : Scope) (id : String) (r : Resolution)
  | forget (scope : Scope) (id : String)
  | forgetScope (scope : Scope)
  | clear
  | removeGlobal (id : String)
  | removePage (page : String)
  | refresh (network : Network) (page : String)
  | install (doc : PageDocument)

/-- The app after an operation. -/
def Operation.perform (app : App) : Operation → App
  | .edit e => { app with catalog := (e.run app.catalog).2 }
  | .apply scope id r => { app with store := app.store.apply scope id r }
  | .forget scope id => { app with store := app.store.forget scope id }
  | .forgetScope scope => { app with store := app.store.forgetScope scope }
  | .clear => { app with store := .empty }
  | .removeGlobal id =>
    match app.removeGlobal id with
    | none => app
    | some (_, _, app) => app
  | .removePage page => app.removePage page
  | .refresh network page => (app.refresh network page).2
  | .install doc => (doc.install app).2

namespace App

/-- The app after a sequence of operations. -/
def after (app : App) (ops : List Operation) : App := ops.foldl Operation.perform app

end App

end LivePage
