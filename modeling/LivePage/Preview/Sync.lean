import LivePage.App.Config
import LivePage.Files.Script
import LivePage.Json.Printer

/-!
# Preview synchronisation

An editor sends the files of a page; those on an allow-list are written below a target directory,
for a preview to show.

* `Preview.isAllowed`: a path is allowed if it leads straight down and stands on the list. An entry
  of the list that ends in a slash stands for everything below it.
* `Preview.sync`: writes the allowed files of a request in order, up to the first failure.
* `Preview.handle`: answers a request with a status and a body.
-/

namespace LivePage

/-- A file that is sent. -/
structure SyncFile where
  path : String
  content : String
deriving DecidableEq

/-- The files that are sent at once. -/
structure SyncRequest where
  files : List SyncFile
deriving DecidableEq

namespace SyncRequest

/-- Reads a file that is sent. -/
def fileOfRaw? (j : RawJson) : Option SyncFile := do
  let r ← Record.ofRaw? ["path", "content"] j
  let path ← r.required "path" RawJson.string?
  let content ← r.required "content" RawJson.string?
  return ⟨path, content⟩

/-- Reads a request. -/
def ofRaw? (j : RawJson) : Option SyncRequest := do
  let r ← Record.ofRaw? ["files"] j
  let files ← r.required "files" (RawJson.list? fileOfRaw?)
  return ⟨files⟩

/-- The request of a text. -/
def ofText? (text : String) : Option SyncRequest := (RawJson.parse? text).bind ofRaw?

end SyncRequest

/-- Why a request fails. -/
inductive SyncError
  | methodNotAllowed (method : String)
  | badRequest
  | unwritable (path : String) (cause : FileError)
deriving DecidableEq

namespace SyncError

/-- The wording of a failure. -/
def message : SyncError → String
  | .methodNotAllowed method => "method " ++ method ++ " not allowed"
  | .badRequest => "bad request: not a list of files"
  | .unwritable path cause => "failed to write " ++ path ++ ": " ++ cause.message

/-- The status that reports a failure. -/
def status : SyncError → Nat
  | .methodNotAllowed _ => 405
  | .badRequest => 400
  | .unwritable _ _ => 500

end SyncError

/-- The answer to a request. -/
structure SyncResponse where
  status : Nat
  body : RawJson

/-- Where files are written to, and which. -/
structure Preview where
  targetDir : String
  allowList : List String
deriving DecidableEq

namespace Preview

/-- The preview of some settings. -/
def ofConfig (c : PreviewConfig) : Preview := ⟨c.targetDir, c.allowList⟩

/-- Whether an entry of the allow-list stands for a path. -/
def permits (entry path : String) : Bool :=
  if entry.toList.getLast? = some '/' then entry.toList.isPrefixOf path.toList else path == entry

/-- A path without special parts, which stays below the directory that it is joined to. -/
def leadsDown (path : String) : Bool :=
  !path.isEmpty && (Path.parts path).all fun part =>
    match part with
    | .normal _ => true
    | _ => false

/-- Whether a path may be written. -/
def isAllowed (p : Preview) (path : String) : Bool :=
  leadsDown path && p.allowList.any fun entry => permits entry path

/-- Where a path is written to. -/
def destination (p : Preview) (path : String) : String := Path.join p.targetDir path

/-- Writes a file, and before it the directories on the way. -/
def writeBelow (destination content : String) : FileScript (Except SyncError Unit) :=
  let write : FileScript (Except SyncError Unit) :=
    .write destination content fun
      | .ok () => .done (.ok ())
      | .error e => .done (.error (.unwritable destination e))
  match Path.parent? destination with
  | none => write
  | some parent =>
    .makeDirectories parent fun
      | .ok () => write
      | .error e => .done (.error (.unwritable parent e))

/-- Writes the allowed files in order, up to the first failure; returns the paths that were
written. -/
def sync (p : Preview) : List SyncFile → FileScript (Except SyncError (List String))
  | [] => .done (.ok [])
  | file :: files =>
    if p.isAllowed file.path then
      (writeBelow (p.destination file.path) file.content).andThen fun
        | .error e => .done (.error e)
        | .ok () =>
          (sync p files).andThen fun
            | .error e => .done (.error e)
            | .ok synced => .done (.ok (file.path :: synced))
    else sync p files

/-- Whether a method is POST, in any case. -/
def isPost (method : String) : Bool := method.toList.map Char.toUpper == ['P', 'O', 'S', 'T']

/-- Carries out a request. -/
def attempt (p : Preview) (method body : String) : FileScript (Except SyncError (List String)) :=
  if !isPost method then .done (.error (.methodNotAllowed method))
  else
    match SyncRequest.ofText? body with
    | none => .done (.error .badRequest)
    | some request => p.sync request.files

/-- The answer to a request that was carried out or failed. -/
def respond : Except SyncError (List String) → SyncResponse
  | .ok synced => ⟨200, .obj [("success", .bool true), ("synced", .arr (synced.map .str))]⟩
  | .error e => ⟨e.status, .obj [("error", .str e.message), ("success", .bool false)]⟩

/-- Carries out a request and answers it. -/
def handle (p : Preview) (method body : String) : FileScript SyncResponse :=
  (p.attempt method body).andThen fun result => .done (respond result)

end Preview

end LivePage
