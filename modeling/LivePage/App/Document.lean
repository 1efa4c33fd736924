import LivePage.App.Basic
import LivePage.Tree.Encoding

/-!
# Page documents

A page in one document: its tree, the sources that it needs, the global ones that it refers to, and
results for them. Installing a document into an app adds all but the tree.
-/

namespace LivePage

/-- A page with everything that it needs. -/
structure PageDocument where
  page : String
  tree : Component
  globals : List DataSource
  pageSources : List DataSource
  references : List String
  results : KeyMap Json

namespace PageDocument

/-- Reads a page document; only the tree has to be there. -/
def ofRaw? (j : RawJson) : Option PageDocument := do
  let r ← Record.ofRaw? ["page", "tree", "globals", "pageSources", "references", "results"] j
  let page ← r.optional "page" "index" RawJson.string?
  let tree ← r.required "tree" Component.ofRaw?
  let globals ← r.optional "globals" [] (RawJson.list? DataSource.ofRaw?)
  let pageSources ← r.optional "pageSources" [] (RawJson.list? DataSource.ofRaw?)
  let references ← r.optional "references" [] (RawJson.list? RawJson.string?)
  let results ← r.optional "results" KeyMap.empty (RawJson.map? RawJson.value?)
  return ⟨page, tree, globals, pageSources, references, results⟩

/-- The page document of a text. -/
def ofText (text : String) : Except CatalogError PageDocument :=
  match (RawJson.parse? text).bind ofRaw? with
  | some d => .ok d
  | none => .error .malformed

/-- Loads a page document from a file. -/
def load (path : String) : FileScript (Except CatalogError PageDocument) :=
  .read path fun
    | .error e => .done (.error (.unreadable path e))
    | .ok content => .done (ofText content)

/-! ## Installation

Each step returns the failure that stops the installation, if there is one, beside what it has done.
-/

/-- Adds global sources up to the first that is refused. -/
def addGlobals : List DataSource → Catalog → Option CatalogError × Catalog
  | [], c => (none, c)
  | d :: ds, c =>
    match c.addGlobal d with
    | .error e => (some e, c)
    | .ok c => addGlobals ds c

/-- Makes references that are not there, up to the first that is refused. -/
def addReferences (page : String) : List String → Catalog → Option CatalogError × Catalog
  | [], c => (none, c)
  | id :: ids, c =>
    if c.isReferenced page id then addReferences page ids c
    else
      match c.toggleReference page id with
      | .error e => (some e, c)
      | .ok (_, c) => addReferences page ids c

/-- Adds sources and references of a document to a catalog. -/
def extendCatalog (doc : PageDocument) (c : Catalog) : Option CatalogError × Catalog :=
  match addGlobals doc.globals c with
  | (some e, c) => (some e, c)
  | (none, c) =>
    match c.setPageSources doc.page doc.pageSources with
    | .error e => (some e, c)
    | .ok c => addReferences doc.page doc.references c

/-- The scope in which the document's page sees a source. -/
def scopeOf (doc : PageDocument) (id : String) : Scope :=
  if doc.pageSources.any fun d => d.id == id then .page doc.page else .global

/-- Stores the results of a document. -/
def storeResults (doc : PageDocument) (store : ResultStore) : ResultStore :=
  doc.results.entries.foldl (fun store e => store.applyValue (doc.scopeOf e.1) e.1 e.2) store

/-- Installs a document into an app. An installation that fails keeps what was added before the
failure, and stores no results. -/
def install (doc : PageDocument) (app : App) : Option CatalogError × App :=
  match doc.extendCatalog app.catalog with
  | (some e, catalog) => (some e, { app with catalog })
  | (none, catalog) => (none, { app with catalog, store := doc.storeResults app.store })

end PageDocument

end LivePage
