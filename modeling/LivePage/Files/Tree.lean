import LivePage.Collection.KeyMap
import LivePage.Files.Path

/-!
# File trees

Files and directories as a value, and the few operations on them that the library needs. Paths are
followed as an operating system does: every directory on the way has to be there, `.` stays and `..`
goes up. Relative paths, and absolute ones too, start at the top of the tree.

* `FileError`: why an operation fails.
* `read`, `write`, `makeDirectory`, `makeDirectories`: the operations. One that fails half way keeps
  what it has done, so they return the tree beside the failure.
-/

namespace LivePage

/-- Why an operation on files fails. -/
inductive FileError
  | notFound
  | exists
  | notADirectory
  | isADirectory
  | nameTooLong
  | nulInName
  /-- A failure that a tree of files does not have, in the words of the system. -/
  | other (message : String)
deriving DecidableEq

/-- The wording of a failure. -/
def FileError.message : FileError → String
  | .notFound => "No such file or directory (os error 2)"
  | .exists => "File exists (os error 17)"
  | .notADirectory => "Not a directory (os error 20)"
  | .isADirectory => "Is a directory (os error 21)"
  | .nameTooLong => "File name too long (os error 36)"
  | .nulInName => "file name contained an unexpected NUL byte"
  | .other message => message

/-- A file with its content, or a directory. -/
inductive FileEntry
  | file (content : String)
  | directory
deriving DecidableEq

/-- Files and directories below a top directory, by the names on the way to them. -/
structure FileTree where
  /-- Entries under their names joined by slashes; the top directory has none. -/
  entries : KeyMap FileEntry
deriving DecidableEq

namespace FileTree

/-- The tree without entries. -/
def empty : FileTree := ⟨KeyMap.empty⟩

/-- A place in a tree: the names on the way to it, the innermost first. -/
abbrev Place := List String

/-- The key of a place. -/
def key (place : Place) : String := "/".intercalate place.reverse

/-- What stands at a place. -/
def entry? (t : FileTree) : Place → Option FileEntry
  | [] => some .directory
  | place => t.entries.get? (key place)

/-- Puts an entry at a place. -/
def set (t : FileTree) (place : Place) (e : FileEntry) : FileTree :=
  ⟨t.entries.insert (key place) e⟩

/-! ## Following paths -/

/-- The longest name that may be looked up, in bytes. -/
def nameLimit : Nat := 255

/-- The length from which a path is refused, in bytes. -/
def pathLimit : Nat := 4096

/-- What stands under a name in a directory. -/
def look (t : FileTree) (dir : Place) (name : String) : Except FileError (Option FileEntry) :=
  if nameLimit < name.utf8ByteSize then .error .nameTooLong else .ok (t.entry? (name :: dir))

/-- Follows steps from one directory to another. -/
def follow (t : FileTree) (dir : Place) : List String → Except FileError Place
  | [] => .ok dir
  | step :: steps =>
    if step = "." then follow t dir steps
    else if step = ".." then follow t dir.tail steps
    else
      match t.look dir step with
      | .error e => .error e
      | .ok none => .error .notFound
      | .ok (some (.file _)) => .error .notADirectory
      | .ok (some .directory) => follow t (step :: dir) steps

/-- A path as it is followed: the steps to a directory, the last step if there is one, and whether a
slash comes after it. -/
structure Route where
  steps : List String
  last : Option String
  slashAfter : Bool

/-- The route of a path, unless the path cannot be one. -/
def route (path : String) : Except FileError Route :=
  let cs := path.toList
  if cs.any fun c => c == '\x00' then .error .nulInName
  else if cs.isEmpty then .error .notFound
  else if pathLimit ≤ path.utf8ByteSize then .error .nameTooLong
  else
    let steps := ((Path.stretches cs).filter fun s => !s.isEmpty).map String.ofList
    .ok ⟨steps.dropLast, steps.getLast?, cs.getLast? == some '/'⟩

/-- Whether a last step names an entry of the directory before it. -/
def isName (step : String) : Bool := step != "." && step != ".."

/-- Where a route leads if it ends in a name: the directory and the name. -/
def Route.target? (r : Route) : Option String := r.last.filter isName

/-! ## Operations -/

/-- The content of the file at a path. -/
def read (t : FileTree) (path : String) : Except FileError String := do
  let r ← route path
  let dir ← t.follow [] r.steps
  match r.target? with
  | none =>
    let _ ← t.follow dir r.last.toList
    .error .isADirectory
  | some name =>
    match ← t.look dir name with
    | none => .error .notFound
    | some .directory => .error .isADirectory
    | some (.file content) => if r.slashAfter then .error .notADirectory else .ok content

/-- Writes a file at a path, in place of the file that is there. -/
def write (t : FileTree) (path content : String) : Except FileError FileTree := do
  let r ← route path
  let dir ← t.follow [] r.steps
  match r.target? with
  | none =>
    let _ ← t.follow dir r.last.toList
    .error .isADirectory
  | some name =>
    if r.slashAfter then .error .isADirectory
    else
      match ← t.look dir name with
      | some .directory => .error .isADirectory
      | _ => .ok (t.set (name :: dir) (.file content))

/-- Makes a directory at a path whose parent is there. -/
def makeDirectory (t : FileTree) (path : String) : Except FileError FileTree := do
  let r ← route path
  let dir ← t.follow [] r.steps
  match r.target? with
  | none => .error .exists
  | some name =>
    match ← t.look dir name with
    | some _ => .error .exists
    | none => .ok (t.set (name :: dir) .directory)

/-- Whether a path leads to a directory. -/
def isDirectory (t : FileTree) (path : String) : Bool :=
  match route path with
  | .error _ => false
  | .ok r => (t.follow [] (r.steps ++ r.last.toList)).isOk

/-- Makes a directory at a path, unless there is one. -/
def ensureDirectory (t : FileTree) (path : String) : Except FileError FileTree :=
  match t.makeDirectory path with
  | .ok t => .ok t
  | .error e => if t.isDirectory path then .ok t else .error e

/-- Makes a directory and the directories on the way to it, as far as they are not there; `fuel`
bounds how many. -/
def makeDirectoriesWithin : Nat → FileTree → String → Except FileError Unit × FileTree
  | 0, t, _ => (.error .notFound, t)
  | fuel + 1, t, path =>
    if path.isEmpty then (.ok (), t)
    else
      match t.makeDirectory path with
      | .ok t => (.ok (), t)
      | .error .notFound =>
        match Path.parent? path with
        | none => (.error .notFound, t)
        | some parent =>
          match makeDirectoriesWithin fuel t parent with
          | (.error e, t) => (.error e, t)
          | (.ok (), t) =>
            match t.ensureDirectory path with
            | .ok t => (.ok (), t)
            | .error e => (.error e, t)
      | .error e => if t.isDirectory path then (.ok (), t) else (.error e, t)

/-- Makes a directory and the directories on the way to it, as far as they are not there. -/
def makeDirectories (t : FileTree) (path : String) : Except FileError Unit × FileTree :=
  makeDirectoriesWithin (path.length + 1) t path

end FileTree

end LivePage
