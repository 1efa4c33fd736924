import LivePage.Output.Basic

/-!
# Output in JSON

`Output.raw` writes an output as an object that names its kind.
-/

namespace LivePage

/-- The name of a kind of marker. -/
def MarkerKind.name : MarkerKind → String
  | .unknown => "unknown"
  | .error => "error"

namespace Output

/-- Attributes or style entries as an object. -/
def rawMap (m : KeyMap Json) : RawJson := .obj (m.entries.map fun e => (e.1, e.2.raw))

mutual

/-- An output as an object. -/
def raw : Output → RawJson
  | .element tag id attrs style children =>
    .obj [("kind", .str "element"), ("tag", .str tag), ("nodeId", .str id),
      ("attrs", rawMap attrs), ("style", rawMap style), ("children", .arr (rawAll children))]
  | .text s => .obj [("kind", .str "text"), ("text", .str s)]
  | .fragment children => .obj [("kind", .str "fragment"), ("children", .arr (rawAll children))]
  | .marker kind id message =>
    .obj [("kind", .str "marker"), ("marker", .str kind.name), ("nodeId", .str id),
      ("message", .str message)]
  | .empty => .obj [("kind", .str "empty")]

/-- Outputs as objects. -/
def rawAll : List Output → List RawJson
  | [] => []
  | o :: os => o.raw :: rawAll os

end

end Output

end LivePage
