import LivePage.App.Document
import LivePage.CommandLine.Help
import LivePage.Output.Encoding
import LivePage.Preview.Sync
import LivePage.Text.Quoted

/-!
# The program

`CommandLine.run` is the whole program as a script of file operations: from its arguments to what it
prints and the code with which it ends.
-/

namespace LivePage

namespace CommandLine

/-- What a run of the program leaves beside the files: its exit code and what it printed. -/
structure Outcome where
  code : Nat
  stdout : String
  stderr : String
deriving DecidableEq

namespace Outcome

/-- A run that succeeds. -/
def success (stdout stderr : String) : Outcome := ⟨0, stdout, stderr⟩

/-- A run that fails with a message, after it has printed something. -/
def failure (stdout message : String) : Outcome :=
  ⟨1, stdout, "Error: " ++ Text.quoted message ++ "\n"⟩

/-- A run whose arguments make no sense. -/
def usage : Outcome := ⟨2, "", "usage: page-render [OPTIONS] <COMMAND>\n"⟩

end Outcome

/-- A diagnostic on a line. -/
def diagnosticLine (d : Diagnostic) : String :=
  let prop := match d.prop with
    | some name => "." ++ name
    | none => ""
  "⚠️  " ++ d.nodeId ++ prop ++ ": " ++ d.message ++ "\n"

/-- An output with its diagnostics as indented JSON, all keys in order. -/
def jsonText (output : Output) (diagnostics : List Diagnostic) : String :=
  let report : RawJson :=
    .obj [("diagnostics", .arr (diagnostics.map Diagnostic.raw)), ("output", output.raw)]
  match report.value? with
  | some j => j.raw.pretty
  | none => report.pretty

/-- A rendering in a format. -/
def formatted (format : Format) (output : Output) (diagnostics : List Diagnostic) : String :=
  match format with
  | .html => output.toHtml
  | .json => jsonText output diagnostics

/-- Writes out a rendering and its diagnostics. -/
def deliver (format : Format) (target : Option String) (output : Output)
    (diagnostics : List Diagnostic) : FileScript Outcome :=
  let text := formatted format output diagnostics
  let lines := String.join (diagnostics.map diagnosticLine)
  match target with
  | none => .done (.success (text ++ "\n") lines)
  | some path =>
    .write path text fun
      | .error e => .done (.failure "" e.message)
      | .ok () => .done (.success "" lines)

/-- What the program is run with: the network, and its engine for scripts, which may fail to
start. -/
structure Surroundings where
  network : Network
  scripts : Except String ScriptEngine

/-- Neither a network nor an engine that runs scripts. -/
def Surroundings.none : Surroundings := ⟨Network.offline, .ok .absent⟩

/-- Renders a page document. -/
def render (around : Surroundings) (config : Config) (page : String) (fetch : Bool)
    (format : Format) (target : Option String) : FileScript Outcome := do
  match ← PageDocument.load page with
  | .error e => return .failure "" e.message
  | .ok doc =>
    match App.new around.scripts config with
    | .error message => return .failure "" message
    | .ok app =>
      match doc.install app with
      | (some e, _) => return .failure "" e.message
      | (none, app) =>
        let app := if fetch then (app.refresh around.network doc.page).2 else app
        let pass := app.renderPage doc.page doc.tree
        match pass.outcome with
        | .error panic => return ⟨101, "", panic.message ++ "\n"⟩
        | .ok output => deliver format target output pass.reports

/-- Lists the registered components. -/
def components (around : Surroundings) (config : Config) : FileScript Outcome :=
  match App.new around.scripts config with
  | .error message => .done (.failure "" message)
  | .ok app => .done (.success (String.join (app.registry.names.map (· ++ "\n"))) "")

/-- Synchronises the files of a request. -/
def sync (config : Config) (request : String) (target : Option String) : FileScript Outcome := do
  let preview := match target with
    | some dir => { config.preview with targetDir := dir }
    | none => config.preview
  match ← FileScript.readFile request with
  | .error e => return .failure "" e.message
  | .ok body =>
    let response ← (Preview.ofConfig preview).handle "POST" body
    let printed := response.body.compact ++ "\n"
    if response.status = 200 then return .success printed ""
    else return .failure printed ("sync failed with status " ++ Decimal.integerText response.status)

/-- Carries out a command. -/
def execute (around : Surroundings) (config : Config) : Command → FileScript Outcome
  | .render page engine fetch format target =>
    let config := match engine with
      | some kind => { config with evaluator := kind }
      | none => config
    render around config page fetch format target
  | .components => components around config
  | .sync request target => sync config request target

/-- The program: reads its arguments and its settings, and carries out what is asked for. -/
def run (around : Surroundings) (args : List String) : FileScript Outcome := do
  match Invocation.ofArgs args with
  | none => return .usage
  | some (.help topic) => return .success (helpText topic) ""
  | some (.run path command) =>
    let config ← Config.loadOrDefault path
    execute around config command

end CommandLine

end LivePage
