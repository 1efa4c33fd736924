import LivePage.Files.Tree

/-!
# Scripts of file operations

What a part of the library does with files is a value: the next operation, and what follows for each
result of it. A script can be run on a tree of files (`FileScript.runOn`), or be carried out on a
disk.
-/

namespace LivePage

/-- A sequence of file operations that ends in a result. -/
inductive FileScript (α : Type)
  /-- The end. -/
  | done (result : α)
  /-- Reads a file. -/
  | read (path : String) (next : Except FileError String → FileScript α)
  /-- Writes a file. -/
  | write (path content : String) (next : Except FileError Unit → FileScript α)
  /-- Makes a directory and those on the way to it. -/
  | makeDirectories (path : String) (next : Except FileError Unit → FileScript α)

namespace FileScript

variable {α β : Type}

/-- One script after another. -/
def andThen (s : FileScript α) (f : α → FileScript β) : FileScript β :=
  match s with
  | .done a => f a
  | .read path next => .read path fun r => (next r).andThen f
  | .write path content next => .write path content fun r => (next r).andThen f
  | .makeDirectories path next => .makeDirectories path fun r => (next r).andThen f

instance : Monad FileScript where
  pure := done
  bind := andThen

/-- The script of one reading. -/
def readFile (path : String) : FileScript (Except FileError String) := .read path .done

/-- The script of one writing. -/
def writeFile (path content : String) : FileScript (Except FileError Unit) :=
  .write path content .done

/-- Runs a script on a tree: its result, and the tree after it. -/
def runOn : FileScript α → FileTree → α × FileTree
  | .done a, t => (a, t)
  | .read path next, t => (next (t.read path)).runOn t
  | .write path content next, t =>
    match t.write path content with
    | .ok t => (next (.ok ())).runOn t
    | .error e => (next (.error e)).runOn t
  | .makeDirectories path next, t =>
    let (r, t) := t.makeDirectories path
    (next r).runOn t

end FileScript

end LivePage
