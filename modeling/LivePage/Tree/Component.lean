import LivePage.Tree.PropValue

/-!
# Component trees

A page is a tree of components. A component has an id, the name of its type, properties, style
entries and children.

* `find?`, `count`, `ids`, `duplicateIds`: questions about the tree, all in preorder.
* `withProp` and the like: building a tree.
-/

namespace LivePage

/-- A component with its children. -/
structure Component where
  id : String
  /-- The name under which its renderer is registered. -/
  type : String
  props : PropMap
  style : PropMap
  children : List Component

namespace Component

instance : Inhabited Component := ⟨⟨"", "", KeyMap.empty, KeyMap.empty, []⟩⟩

/-- A component without properties, style and children. -/
def new (id type : String) : Component := ⟨id, type, KeyMap.empty, KeyMap.empty, []⟩

/-! ## Building -/

/-- Sets a property to a literal. -/
def withProp (c : Component) (name : String) (value : Json) : Component :=
  { c with props := c.props.insert name (.literal value) }

/-- Sets a property to the source of an expression. -/
def bindProp (c : Component) (name source : String) : Component :=
  { c with props := c.props.insert name (.bound source) }

/-- Sets a style entry to a literal. -/
def withStyle (c : Component) (name : String) (value : Json) : Component :=
  { c with style := c.style.insert name (.literal value) }

/-- Sets a style entry to the source of an expression. -/
def bindStyle (c : Component) (name source : String) : Component :=
  { c with style := c.style.insert name (.bound source) }

/-- Appends a child. -/
def withChild (c child : Component) : Component := { c with children := c.children ++ [child] }

/-- Appends children. -/
def withChildren (c : Component) (children : List Component) : Component :=
  { c with children := c.children ++ children }

/-! ## Questions -/

/-- Whether a component has no children. -/
def isLeaf (c : Component) : Bool := c.children.isEmpty

mutual

/-- The first component in preorder with an id. -/
def find? (id : String) : Component → Option Component
  | ⟨cid, type, props, style, children⟩ =>
    if cid = id then some ⟨cid, type, props, style, children⟩ else findAmong? id children

/-- The first component with an id in a row of trees. -/
def findAmong? (id : String) : List Component → Option Component
  | [] => none
  | c :: cs => (c.find? id).or (findAmong? id cs)

end

mutual

/-- How many components a tree has. -/
def count : Component → Nat
  | ⟨_, _, _, _, children⟩ => 1 + countAll children

/-- How many components a row of trees has. -/
def countAll : List Component → Nat
  | [] => 0
  | c :: cs => c.count + countAll cs

end

mutual

/-- The ids of a tree in preorder. -/
def ids : Component → List String
  | ⟨id, _, _, _, children⟩ => id :: idsAll children

/-- The ids of a row of trees in preorder. -/
def idsAll : List Component → List String
  | [] => []
  | c :: cs => c.ids ++ idsAll cs

end

/-- The members of a list that come again, each once, in the order in which they first do; `seen`
came before the list, and `found` came again before it. -/
def repetitions (seen found : List String) : List String → List String
  | [] => found
  | id :: ids =>
    if seen.contains id then
      repetitions seen (if found.contains id then found else found ++ [id]) ids
    else repetitions (id :: seen) found ids

/-- The ids that more than one component has, in the order in which they first come again. -/
def duplicateIds (c : Component) : List String := repetitions [] [] c.ids

end Component

end LivePage
