import LivePage.DataSource.Catalog

/-!
# Editing a stored catalog

The operations of a catalog that is stored somewhere and overwritten step by step: a failure ends an
operation and takes nothing back, so the catalog keeps what was written before.

* `Editing`: operations that read and overwrite the stored catalog, and answer or fail.
* `Edit`, `Edit.run`: an operation with its arguments, and what it makes of a catalog.
* `Edit.result`: the same with the operations that return a new catalog.
* `Catalog.after`: what a sequence of operations makes of a catalog.
* `History`: what happened to a catalog since it was empty, and the catalog to which that led.
-/

namespace LivePage

/-- An operation on a stored catalog: it answers or fails, and leaves a catalog in either case. -/
abbrev Editing (α : Type) := ExceptT CatalogError (StateM Catalog) α

namespace Editing

/-- What an operation answers, and the catalog after it. -/
def run {α : Type} (e : Editing α) (c : Catalog) : Except CatalogError α × Catalog :=
  StateT.run (ExceptT.run e) c

/-- Overwrites the references of pages. -/
def modifyReferences (f : KeyMap KeySet → KeyMap KeySet) : Editing Unit :=
  modify fun c => { c with referenceMap := f c.referenceMap }

/-- Adds a global source, in place of the one of its id if there is one. -/
def addGlobal (d : DataSource) : Editing Unit := do
  if d.id.isEmpty then throw .emptyId
  modify fun c => { c with globals := Keyed.put DataSource.id d c.globals }

/-- Takes an id out of the references of a page; answers whether it was there. -/
def dropReference (page id : String) : Editing Bool := do
  match (← get).referenceMap.get? page with
  | none => return false
  | some refs =>
    modifyReferences fun m => m.insert page (refs.erase id)
    return refs.contains id

/-- Takes an id out of the references of pages, one page after the other; answers which of them had
it. -/
def dropReferences (id : String) : List String → Editing (List String)
  | [] => return []
  | page :: pages => do
    let found ← dropReference page id
    let others ← dropReferences id pages
    return if found then page :: others else others

/-- Removes a global source and every reference to it, then the pages left without references.
Answers with the source and the pages that referred to it, if there was such a source. -/
def removeGlobal (id : String) : Editing (Option (DataSource × List String)) := do
  match (← get).getGlobal? id with
  | none => return none
  | some d =>
    modify fun c => { c with globals := c.globals.eraseP fun g => g.id == id }
    let pages ← dropReferences id (← get).referenceMap.keys
    modifyReferences fun m => m.filter fun _ refs => !refs.isEmpty
    return some (d, pages)

/-- Drops a reference that is there, and makes one that is not, to a global source that exists.
Answers whether the page refers to the source afterwards. -/
def toggleReference (page id : String) : Editing Bool := do
  if ← dropReference page id then
    if (((← get).referenceMap.get? page).getD KeyMap.empty).isEmpty then
      modifyReferences fun m => m.erase page
    return false
  if ((← get).getGlobal? id).isNone then throw (.unknownGlobal id)
  modifyReferences fun m => m.insert page (KeySet.add ((m.get? page).getD KeyMap.empty) id)
  return true

/-- Replaces the sources of a page. -/
def setPageSources (page : String) (ds : List DataSource) : Editing Unit := do
  match Catalog.checkIds page ds with
  | .error e => throw e
  | .ok () =>
    modify fun c => { c with
      pageSourceMap :=
        if ds.isEmpty then c.pageSourceMap.erase page else c.pageSourceMap.insert page ds }

/-- Removes the sources and then the references of a page. -/
def removePage (page : String) : Editing Unit := do
  modify fun c => { c with pageSourceMap := c.pageSourceMap.erase page }
  modifyReferences fun m => m.erase page

end Editing

/-- An operation on a catalog, with its arguments. -/
inductive Edit
  | addGlobal (d : DataSource)
  | removeGlobal (id : String)
  | toggleReference (page id : String)
  | setPageSources (page : String) (ds : List DataSource)
  | removePage (page : String)

/-- What an operation answers if it does not fail. -/
inductive Answer
  | done
  /-- There was no such global source. -/
  | absent
  /-- The global source that was removed, and the pages that referred to it. -/
  | removed (d : DataSource) (pages : List String)
  /-- Whether the page refers to the source now. -/
  | referenced (on : Bool)

/-- The answer to the removal of a global source. -/
def Answer.ofRemoval : Option (DataSource × List String) → Answer
  | none => .absent
  | some (d, pages) => .removed d pages

namespace Edit

/-- Carries out an operation on the stored catalog. -/
def perform : Edit → Editing Answer
  | .addGlobal d => do
    Editing.addGlobal d
    return .done
  | .removeGlobal id => return .ofRemoval (← Editing.removeGlobal id)
  | .toggleReference page id => return .referenced (← Editing.toggleReference page id)
  | .setPageSources page ds => do
    Editing.setPageSources page ds
    return .done
  | .removePage page => do
    Editing.removePage page
    return .done

/-- What an operation answers, and what it makes of a catalog. -/
def run (e : Edit) (c : Catalog) : Except CatalogError Answer × Catalog := e.perform.run c

/-- The answer and the new catalog of an operation, unless it is refused. -/
def result (c : Catalog) : Edit → Except CatalogError (Answer × Catalog)
  | .addGlobal d => (c.addGlobal d).map fun c => (.done, c)
  | .removeGlobal id =>
    match c.removeGlobal id with
    | none => .ok (.absent, c)
    | some (d, pages, c) => .ok (.removed d pages, c)
  | .toggleReference page id =>
    (c.toggleReference page id).map fun (on, c) => (.referenced on, c)
  | .setPageSources page ds => (c.setPageSources page ds).map fun c => (.done, c)
  | .removePage page => .ok (.done, c.removePage page)

end Edit

/-- The catalog after a sequence of operations, whether or not they were refused. -/
def Catalog.after (c : Catalog) (edits : List Edit) : Catalog :=
  edits.foldl (fun c e => (e.run c).2) c

/-- An operation that was carried out, and what came of it. -/
structure Event where
  edit : Edit
  outcome : Except CatalogError Answer

/-- What happened to a catalog, the earliest first, and what it is now. -/
structure History where
  events : List Event
  catalog : Catalog

namespace History

/-- The history of the empty catalog. -/
def empty : History := ⟨[], Catalog.empty⟩

/-- A history after one operation more. -/
def extend (h : History) (e : Edit) : History :=
  ⟨h.events ++ [⟨e, (e.run h.catalog).1⟩], (e.run h.catalog).2⟩

/-- The history of a catalog that was empty and on which operations were carried out. -/
def ofEdits (edits : List Edit) : History := edits.foldl extend empty

theorem ofEdits_concat (edits : List Edit) (e : Edit) :
    ofEdits (edits ++ [e]) = (ofEdits edits).extend e := by
  rw [ofEdits, List.foldl_append]
  rfl

end History

end LivePage
