import LivePage.Files.Script
import LivePage.Json.Reader
import LivePage.Json.Record

/-!
# Configuration

The settings of an app and their defaults. A file that cannot be read or is malformed stands for the
defaults where `Config.loadOrDefault` is used.
-/

namespace LivePage

/-- Which engine is asked for to evaluate expressions; the path expressions of this library, or
scripts. -/
inductive EvaluatorKind
  | path
  | js
deriving DecidableEq

namespace EvaluatorKind

/-- The name of an engine. -/
def name : EvaluatorKind → String
  | .path => "path"
  | .js => "js"

/-- Reads the name of an engine. -/
def ofRaw? : RawJson → Option EvaluatorKind := RawJson.choice? [("path", .path), ("js", .js)]

end EvaluatorKind

/-- Where previews are written to, and which files. -/
structure PreviewConfig where
  targetDir : String
  allowList : List String
deriving DecidableEq

namespace PreviewConfig

/-- The default settings of previews. -/
def default : PreviewConfig := ⟨"preview-app", ["pages/", "app.json", "app.js", "app.wxss"]⟩

/-- Settings of previews as an object. -/
def raw (c : PreviewConfig) : RawJson :=
  .obj [("targetDir", .str c.targetDir), ("allowList", .arr (c.allowList.map .str))]

/-- Reads settings of previews. -/
def ofRaw? (j : RawJson) : Option PreviewConfig := do
  let r ← Record.ofRaw? ["targetDir", "allowList"] j
  let targetDir ← r.optional "targetDir" default.targetDir RawJson.string?
  let allowList ← r.optional "allowList" default.allowList (RawJson.list? RawJson.string?)
  return ⟨targetDir, allowList⟩

end PreviewConfig

/-- The settings of an app. -/
structure Config where
  evaluator : EvaluatorKind
  catchPanics : Bool
  httpTimeoutSecs : Nat
  preview : PreviewConfig
deriving DecidableEq

/-- Why settings cannot be loaded. -/
inductive ConfigError
  | unreadable (path : String) (cause : FileError)
  | malformed
deriving DecidableEq

namespace Config

/-- The default settings. -/
def default : Config := ⟨.path, true, 10, PreviewConfig.default⟩

/-- Settings as an object. -/
def raw (c : Config) : RawJson :=
  .obj [("evaluator", .str c.evaluator.name), ("catchPanics", .bool c.catchPanics),
    ("httpTimeoutSecs", .num (.int c.httpTimeoutSecs)), ("preview", c.preview.raw)]

/-- Reads settings. -/
def ofRaw? (j : RawJson) : Option Config := do
  let r ← Record.ofRaw? ["evaluator", "catchPanics", "httpTimeoutSecs", "preview"] j
  let evaluator ← r.optional "evaluator" default.evaluator EvaluatorKind.ofRaw?
  let catchPanics ← r.optional "catchPanics" default.catchPanics RawJson.bool?
  let httpTimeoutSecs ← r.optional "httpTimeoutSecs" default.httpTimeoutSecs RawJson.natural?
  let preview ← r.optional "preview" default.preview PreviewConfig.ofRaw?
  return ⟨evaluator, catchPanics, httpTimeoutSecs, preview⟩

/-- The settings of a text. -/
def ofText (text : String) : Except ConfigError Config :=
  match (RawJson.parse? text).bind ofRaw? with
  | some c => .ok c
  | none => .error .malformed

/-- Loads settings from a file. -/
def load (path : String) : FileScript (Except ConfigError Config) :=
  .read path fun
    | .error e => .done (.error (.unreadable path e))
    | .ok content => .done (ofText content)

/-- Loads settings from a file, or else takes the defaults. -/
def loadOrDefault (path : String) : FileScript Config := do
  match ← load path with
  | .ok c => return c
  | .error _ => return default

end Config

end LivePage
