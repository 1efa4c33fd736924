import LivePage.Json.Basic
import LivePage.Render.Error

/-!
# Diagnostics

What an editor is told about a rendering: which component failed, at which property, how and with
what message. A `DiagnosticLog` keeps the reports in their order.
-/

namespace LivePage

/-- What kind of failure a diagnostic reports. -/
inductive DiagnosticKind
  | unknownComponent
  | expression
  | renderer
deriving DecidableEq

/-- The kind of a failure. -/
def RenderError.kind : RenderError → DiagnosticKind
  | .unknownComponent _ => .unknownComponent
  | .expression _ _ => .expression
  | .renderer _ _ => .renderer

/-- The name of a kind. -/
def DiagnosticKind.name : DiagnosticKind → String
  | .unknownComponent => "unknownComponent"
  | .expression => "expression"
  | .renderer => "renderer"

/-- One report; without a property it concerns the component as a whole. -/
structure Diagnostic where
  nodeId : String
  prop : Option String
  kind : DiagnosticKind
  message : String
deriving DecidableEq

namespace Diagnostic

/-- The report of a failure. -/
def ofError (nodeId : String) (prop : Option String) (e : RenderError) : Diagnostic :=
  ⟨nodeId, prop, e.kind, e.message⟩

/-- A report as an object. -/
def raw (d : Diagnostic) : RawJson :=
  let prop := match d.prop with
    | some name => RawJson.str name
    | none => .null
  .obj [("nodeId", .str d.nodeId), ("prop", prop), ("kind", .str d.kind.name),
    ("message", .str d.message)]

end Diagnostic

/-- The reports of a rendering, the oldest first. -/
structure DiagnosticLog where
  entries : List Diagnostic
deriving DecidableEq

namespace DiagnosticLog

/-- The log without reports. -/
def empty : DiagnosticLog := ⟨[]⟩

/-- Adds the report of a failure. -/
def report (log : DiagnosticLog) (nodeId : String) (prop : Option String) (e : RenderError) :
    DiagnosticLog :=
  ⟨log.entries ++ [Diagnostic.ofError nodeId prop e]⟩

/-- The reports on one component. -/
def forNode (log : DiagnosticLog) (nodeId : String) : List Diagnostic :=
  log.entries.filter fun d => d.nodeId == nodeId

/-- All reports, and the log without them. -/
def take (log : DiagnosticLog) : List Diagnostic × DiagnosticLog := (log.entries, empty)

/-- How many reports there are. -/
def size (log : DiagnosticLog) : Nat := log.entries.length

/-- Whether there are no reports. -/
def isEmpty (log : DiagnosticLog) : Bool := log.entries.isEmpty

end DiagnosticLog

end LivePage
