import LivePage.Json.Basic

/-!
# Rendered output

What rendering produces: elements with attributes, style and children, text, fragments (children
without an element around them), markers in the place of what could not be rendered, and nothing at
all.

* `withAttr`, `withStyle`, `withChildren`: additions to an element; other outputs stay as they are,
  except that fragments take children too.
* `textContent`, `markers`, `find?`: what an output holds, in preorder.
-/

namespace LivePage

/-- Why a marker stands there: the type of a component is unknown, or its renderer failed. -/
inductive MarkerKind
  | unknown
  | error
deriving DecidableEq

/-- A rendered tree. -/
inductive Output
  | element (tag nodeId : String) (attrs style : KeyMap Json) (children : List Output)
  | text (text : String)
  | fragment (children : List Output)
  | marker (kind : MarkerKind) (nodeId message : String)
  | empty
deriving Inhabited

namespace Output

/-- An element without attributes, style and children. -/
def newElement (tag nodeId : String) : Output := .element tag nodeId KeyMap.empty KeyMap.empty []

/-- Sets an attribute of an element. -/
def withAttr (o : Output) (name : String) (value : Json) : Output :=
  match o with
  | .element tag id attrs style children =>
    .element tag id (attrs.insert name value) style children
  | o => o

/-- Sets a style entry of an element. -/
def withStyle (o : Output) (name : String) (value : Json) : Output :=
  match o with
  | .element tag id attrs style children =>
    .element tag id attrs (style.insert name value) children
  | o => o

/-- Appends children to an element or a fragment. -/
def withChildren (o : Output) (more : List Output) : Output :=
  match o with
  | .element tag id attrs style children => .element tag id attrs style (children ++ more)
  | .fragment children => .fragment (children ++ more)
  | o => o

/-- The children of an element or a fragment. -/
def children : Output → List Output
  | .element _ _ _ _ children => children
  | .fragment children => children
  | _ => []

/-- The id of the component that an element or a marker stands for. -/
def nodeId? : Output → Option String
  | .element _ id _ _ _ => some id
  | .marker _ id _ => some id
  | _ => none

/-- Whether an output is a marker. -/
def isMarker : Output → Bool
  | .marker _ _ _ => true
  | _ => false

mutual

/-- All text of a tree, the messages of markers included. -/
def textContent : Output → String
  | .element _ _ _ _ children => textContentAll children
  | .text s => s
  | .fragment children => textContentAll children
  | .marker _ _ message => message
  | .empty => ""

/-- All text of a row of trees. -/
def textContentAll : List Output → String
  | [] => ""
  | o :: os => o.textContent ++ textContentAll os

end

mutual

/-- The markers of a tree in preorder. -/
def markers : Output → List Output
  | .element _ _ _ _ children => markersAll children
  | .fragment children => markersAll children
  | .marker kind id message => [.marker kind id message]
  | .text _ => []
  | .empty => []

/-- The markers of a row of trees in preorder. -/
def markersAll : List Output → List Output
  | [] => []
  | o :: os => o.markers ++ markersAll os

end

mutual

/-- The first element or marker in preorder that stands for a component with an id. -/
def find? (id : String) : Output → Option Output
  | .element tag eid attrs style children =>
    if eid = id then some (.element tag eid attrs style children) else findAmong? id children
  | .fragment children => findAmong? id children
  | .marker kind mid message => if mid = id then some (.marker kind mid message) else none
  | .text _ => none
  | .empty => none

/-- The first such output in a row of trees. -/
def findAmong? (id : String) : List Output → Option Output
  | [] => none
  | o :: os => (o.find? id).or (findAmong? id os)

end

end Output

end LivePage
