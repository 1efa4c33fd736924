import LivePage.CommandLine.Run

/-!
# The executable

Carries out the program's script of file operations on the disk and prints its outcome. Neither a
network nor an engine for scripts is attached.
-/

namespace LivePage

/-- A failure of the system as a failure of a file operation. -/
def FileError.ofSystem : IO.Error → FileError
  | .noFileOrDirectory _ _ _ => .notFound
  | .alreadyExists _ _ _ => .exists
  | e =>
    let message := toString e
    .other message

/-- The result of an operation on the disk. -/
def attemptOnDisk {α : Type} (action : IO α) : IO (Except FileError α) := do
  match ← action.toBaseIO with
  | .ok a => return .ok a
  | .error e => return .error (FileError.ofSystem e)

/-- Carries out a script on the disk. -/
def FileScript.perform {α : Type} : FileScript α → IO α
  | .done a => return a
  | .read path next => do
    let r ← attemptOnDisk (IO.FS.readFile path)
    (next r).perform
  | .write path content next => do
    let r ← attemptOnDisk (IO.FS.writeFile path content)
    (next r).perform
  | .makeDirectories path next => do
    let r ← attemptOnDisk (IO.FS.createDirAll path)
    (next r).perform

end LivePage

/-- Runs the program. -/
def main (args : List String) : IO UInt32 := do
  let outcome ← (LivePage.CommandLine.run .none args).perform
  (← IO.getStdout).putStr outcome.stdout
  (← IO.getStderr).putStr outcome.stderr
  return outcome.code.toUInt32
