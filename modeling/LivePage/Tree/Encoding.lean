import LivePage.Json.Record
import LivePage.Tree.Component

/-!
# Component trees in JSON

`Component.raw` writes all five fields of a component. `Component.ofRaw?` reads a component; every
field has an empty default.
-/

namespace LivePage

namespace PropMap

/-- Properties as an object. -/
def raw (props : PropMap) : RawJson := .obj (props.entries.map fun e => (e.1, e.2.toJson.raw))

/-- Reads properties. -/
def ofRaw? : RawJson → Option PropMap := RawJson.map? PropValue.ofRaw?

end PropMap

namespace Component

/-- The names of the fields in declared order. -/
def fieldNames : List String := ["id", "type", "props", "style", "children"]

mutual

/-- A component as an object. -/
def raw : Component → RawJson
  | ⟨id, type, props, style, children⟩ =>
    .obj [("id", .str id), ("type", .str type), ("props", PropMap.raw props),
      ("style", PropMap.raw style), ("children", .arr (rawAll children))]

/-- Components as objects. -/
def rawAll : List Component → List RawJson
  | [] => []
  | c :: cs => c.raw :: rawAll cs

end

/-- The component of the fields of a record and its children. -/
def ofRecord? (r : Record) (children : List Component) : Option Component := do
  let id ← r.optional "id" "" RawJson.string?
  let type ← r.optional "type" "" RawJson.string?
  let props ← r.optional "props" KeyMap.empty PropMap.ofRaw?
  let style ← r.optional "style" KeyMap.empty PropMap.ofRaw?
  return ⟨id, type, props, style, children⟩

mutual

/-- Reads a component. -/
def ofRaw? : RawJson → Option Component
  | .obj fields =>
    match Record.ofFields? fieldNames fields, childrenNamed? fields with
    | some r, some children => ofRecord? r children
    | _, _ => none
  | .arr items =>
    match Record.ofItems? fieldNames items, childrenAt? 4 items with
    | some r, some children => ofRecord? r children
    | _, _ => none
  | _ => none

/-- Reads the children among the fields of an object. -/
def childrenNamed? : List (String × RawJson) → Option (List Component)
  | [] => some []
  | (key, j) :: fields => if key = "children" then childrenOf? j else childrenNamed? fields

/-- Reads the children at a position of an array. -/
def childrenAt? : Nat → List RawJson → Option (List Component)
  | _, [] => some []
  | 0, j :: _ => childrenOf? j
  | n + 1, _ :: items => childrenAt? n items

/-- Reads a list of children. -/
def childrenOf? : RawJson → Option (List Component)
  | .arr items => ofItems? items
  | _ => none

/-- Reads components, one for each item. -/
def ofItems? : List RawJson → Option (List Component)
  | [] => some []
  | j :: items =>
    match ofRaw? j, ofItems? items with
    | some c, some cs => some (c :: cs)
    | _, _ => none

end

end Component

end LivePage
