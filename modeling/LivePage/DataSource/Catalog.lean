import LivePage.DataSource.Results
import LivePage.Files.Script
import LivePage.Json.Printer
import LivePage.Json.Reader

/-!
# The catalog of data sources

A site has global sources, sources of single pages, and for every page the set of global sources
that it refers to. Global sources stay in the order in which they were first added.

* `addGlobal`, `removeGlobal`, `toggleReference`, `setPageSources`, `removePage`: changes. One that
  is refused leaves the catalog as it was.
* `scopedSources`: the sources in force on a page; a source of the page hides a global one of its
  id.
* `buildContext`: the bindings that expressions on a page see, global ones outside.
* `ofText`, `text`: the catalog as a document.
-/

namespace LivePage

/-- Why a catalog or a page document is refused. -/
inductive CatalogError
  | unknownGlobal (id : String)
  | emptyId
  | duplicateId (scope id : String)
  | unreadable (path : String) (cause : FileError)
  | malformed
deriving DecidableEq

/-- The wording of an error. -/
def CatalogError.message : CatalogError → String
  | .unknownGlobal id => "global data source `" ++ id ++ "` does not exist"
  | .emptyId => "data source id must not be empty"
  | .duplicateId scope id => "data source `" ++ id ++ "` is defined twice in `" ++ scope ++ "`"
  | .unreadable path cause => "failed to read catalog " ++ path ++ ": " ++ cause.message
  | .malformed => "invalid catalog json: not a document of the expected form"

/-- Global sources, sources of pages, and the global sources that pages refer to. -/
structure Catalog where
  globals : List DataSource
  pageSourceMap : KeyMap (List DataSource)
  referenceMap : KeyMap KeySet
deriving BEq

namespace Catalog

/-- The catalog without sources. -/
def empty : Catalog := ⟨[], KeyMap.empty, KeyMap.empty⟩

/-! ## Global sources -/

/-- The global source of an id. -/
def getGlobal? (c : Catalog) (id : String) : Option DataSource :=
  Keyed.get? DataSource.id id c.globals

/-- Adds a global source, in place of the one of its id if there is one. -/
def addGlobal (c : Catalog) (d : DataSource) : Except CatalogError Catalog :=
  if d.id.isEmpty then .error .emptyId
  else .ok { c with globals := Keyed.put DataSource.id d c.globals }

/-! ## References -/

/-- Whether a page refers to a global source. -/
def isReferenced (c : Catalog) (page id : String) : Bool :=
  match c.referenceMap.get? page with
  | some refs => refs.contains id
  | none => false

/-- The global sources that a page refers to. -/
def references (c : Catalog) (page : String) : List String :=
  match c.referenceMap.get? page with
  | some refs => refs.keys
  | none => []

/-- The pages that refer to a global source. -/
def pagesReferencing (c : Catalog) (id : String) : List String :=
  (c.referenceMap.filter fun _ refs => refs.contains id).keys

/-- Removes a global source and every reference to it; pages left without references are dropped.
Returns the source, the pages that referred to it, and the catalog without it. -/
def removeGlobal (c : Catalog) (id : String) : Option (DataSource × List String × Catalog) :=
  (c.getGlobal? id).map fun d =>
    let remaining := (c.referenceMap.mapValues fun refs => refs.erase id).filter
      fun _ refs => !refs.isEmpty
    (d, c.pagesReferencing id,
      { c with
        globals := c.globals.eraseP fun g => g.id == id
        referenceMap := remaining })

/-- Drops a reference that is there, and makes one that is not, to a global source that exists.
Returns whether the page refers to the source afterwards. -/
def toggleReference (c : Catalog) (page id : String) : Except CatalogError (Bool × Catalog) :=
  let refs := (c.referenceMap.get? page).getD KeyMap.empty
  if refs.contains id then
    let rest := refs.erase id
    let referenceMap :=
      if rest.isEmpty then c.referenceMap.erase page else c.referenceMap.insert page rest
    .ok (false, { c with referenceMap })
  else if (c.getGlobal? id).isNone then .error (.unknownGlobal id)
  else .ok (true, { c with referenceMap := c.referenceMap.insert page (KeySet.add refs id) })

/-! ## Sources of pages -/

/-- Checks that ids are neither empty nor given twice; `seen` came before. -/
def checkIdsAfter (scope : String) (seen : List String) : List DataSource → Except CatalogError Unit
  | [] => .ok ()
  | d :: ds =>
    if d.id.isEmpty then .error .emptyId
    else if seen.contains d.id then .error (.duplicateId scope d.id)
    else checkIdsAfter scope (d.id :: seen) ds

/-- Checks that the ids of sources of one scope are neither empty nor given twice. -/
def checkIds (scope : String) (ds : List DataSource) : Except CatalogError Unit :=
  checkIdsAfter scope [] ds

/-- The sources of a page. -/
def pageSources (c : Catalog) (page : String) : List DataSource :=
  (c.pageSourceMap.get? page).getD []

/-- Replaces the sources of a page. -/
def setPageSources (c : Catalog) (page : String) (ds : List DataSource) :
    Except CatalogError Catalog :=
  match checkIds page ds with
  | .error e => .error e
  | .ok () =>
    let pageSourceMap :=
      if ds.isEmpty then c.pageSourceMap.erase page else c.pageSourceMap.insert page ds
    .ok { c with pageSourceMap }

/-- Removes the sources and the references of a page. -/
def removePage (c : Catalog) (page : String) : Catalog :=
  { c with
    pageSourceMap := c.pageSourceMap.erase page
    referenceMap := c.referenceMap.erase page }

/-! ## What a page sees -/

/-- The global sources that a page refers to, in their order. -/
def referencedGlobals (c : Catalog) (page : String) : List DataSource :=
  c.globals.filter fun d => c.isReferenced page d.id

/-- The sources in force on a page with their scopes: the global sources that it refers to and does
not hide, then its own. -/
def scopedSources (c : Catalog) (page : String) : List (Scope × DataSource) :=
  let locals := c.pageSources page
  let visible := (c.referencedGlobals page).filter fun d => !locals.any fun l => l.id == d.id
  visible.map (fun d => (.global, d)) ++ locals.map fun d => (.page page, d)

/-- The sources in force on a page. -/
def activeSources (c : Catalog) (page : String) : List DataSource :=
  (c.scopedSources page).map Prod.snd

/-- The context of a page, given the states of sources: a layer for the global sources that it
refers to, and inside it a layer for its own. -/
def buildContext (c : Catalog) (page : String) (resolve : Scope → DataSource → Resolution) :
    Context :=
  let bind (scope : Scope) (d : DataSource) : String × Binding :=
    (d.id, (resolve scope d).toBinding)
  (Context.empty.child ((c.referencedGlobals page).map (bind .global))).child
    ((c.pageSources page).map (bind (.page page)))

/-! ## The catalog as a document -/

/-- A catalog as an object. -/
def raw (c : Catalog) : RawJson :=
  .obj [("globals", .arr (c.globals.map DataSource.raw)),
    ("pageSources", .obj (c.pageSourceMap.entries.map fun e =>
      (e.1, .arr (e.2.map DataSource.raw)))),
    ("references", .obj (c.referenceMap.entries.map fun e => (e.1, .arr (e.2.keys.map .str))))]

/-- Reads a set of strings. -/
def keySet? (j : RawJson) : Option KeySet := (RawJson.list? RawJson.string? j).map KeySet.ofMembers

/-- Reads a catalog. -/
def ofRaw? (j : RawJson) : Option Catalog := do
  let r ← Record.ofRaw? ["globals", "pageSources", "references"] j
  let globals ← r.optional "globals" [] (RawJson.list? DataSource.ofRaw?)
  let pageSourceMap ← r.optional "pageSources" KeyMap.empty
    (RawJson.map? (RawJson.list? DataSource.ofRaw?))
  let referenceMap ← r.optional "references" KeyMap.empty (RawJson.map? keySet?)
  return ⟨globals, pageSourceMap, referenceMap⟩

/-- Checks the ids of the sources of pages, page by page. -/
def checkPages : List (String × List DataSource) → Except CatalogError Unit
  | [] => .ok ()
  | (page, ds) :: pages =>
    match checkIds page ds with
    | .error e => .error e
    | .ok () => checkPages pages

/-- Checks the ids of all sources: the global ones first, then page by page. -/
def checkAll (c : Catalog) : Except CatalogError Catalog :=
  match checkIds "global" c.globals with
  | .error e => .error e
  | .ok () =>
    match checkPages c.pageSourceMap.entries with
    | .error e => .error e
    | .ok () => .ok c

/-- The catalog of a document, whose ids are checked. -/
def ofDocument (j : RawJson) : Except CatalogError Catalog :=
  match ofRaw? j with
  | none => .error .malformed
  | some c => c.checkAll

/-- The catalog of a text. -/
def ofText (text : String) : Except CatalogError Catalog :=
  match RawJson.parse? text with
  | none => .error .malformed
  | some j => ofDocument j

/-- A catalog as a text. -/
def text (c : Catalog) : String := c.raw.pretty

/-- Loads a catalog from a file. -/
def load (path : String) : FileScript (Except CatalogError Catalog) :=
  .read path fun
    | .error e => .done (.error (.unreadable path e))
    | .ok content => .done (ofText content)

/-- Saves a catalog to a file. -/
def save (c : Catalog) (path : String) : FileScript (Except CatalogError Unit) :=
  .write path c.text fun
    | .error e => .done (.error (.unreadable path e))
    | .ok () => .done (.ok ())

end Catalog

end LivePage
