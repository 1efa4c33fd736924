import LivePage.Proofs.Render.Visit

/-!
# Positions in trees of components and in their outputs

A position is the list of the child indices on the way to it from the root.

* `Component.subtree?`, `Component.replace`, `Component.ancestors`: what stands at a position, the
  tree with another subtree there, and the components above it.
* `Output.subtree?`, `Output.replace`: the same in rendered output.
* `Engine.place`: where the output of the subtree at a position stands in the output of the tree.
-/

namespace LivePage

namespace Component

/-- The subtree at a position, if the tree has that position. -/
def subtree? (c : Component) : List Nat → Option Component
  | [] => some c
  | i :: path => c.children[i]?.bind fun child => child.subtree? path

/-- The tree with another subtree at a position. -/
def replace (c : Component) : List Nat → Component → Component
  | [], new => new
  | i :: path, new =>
    { c with children := c.children.modify i fun child => child.replace path new }

/-- The components strictly above a position, from the root. -/
def ancestors (c : Component) : List Nat → List Component
  | [] => []
  | i :: path => c :: (c.children[i]?.elim [] fun child => child.ancestors path)

theorem subtree?_cons_eq_some {c s : Component} {i : Nat} {path : List Nat} :
    c.subtree? (i :: path) = some s ↔
      ∃ child, c.children[i]? = some child ∧ child.subtree? path = some s := by
  simp [subtree?, Option.bind_eq_some_iff]

theorem replace_cons {c child : Component} {i : Nat} (h : c.children[i]? = some child)
    (path : List Nat) (new : Component) :
    c.replace (i :: path) new =
      { c with children := c.children.set i (child.replace path new) } := by
  rw [replace, List.modify_eq_set, h, Option.getD_some]

theorem ancestors_cons {c child : Component} {i : Nat} (h : c.children[i]? = some child)
    (path : List Nat) : c.ancestors (i :: path) = c :: child.ancestors path := by
  rw [ancestors, h, Option.elim_some]

end Component

namespace Output

/-- The output at a position, if there is one. -/
def subtree? (o : Output) : List Nat → Option Output
  | [] => some o
  | i :: path => o.children[i]?.bind fun child => child.subtree? path

/-- The output with other children, if it can have any. -/
def setChildren (o : Output) (children : List Output) : Output :=
  match o with
  | .element tag id attrs style _ => .element tag id attrs style children
  | .fragment _ => .fragment children
  | o => o

/-- The output with another one at a position. -/
def replace (o : Output) : List Nat → Output → Output
  | [], new => new
  | i :: path, new => o.setChildren (o.children.modify i fun child => child.replace path new)

variable {tag id : String} {attrs style : KeyMap Json}

/-- Within an element, positions are those of a child after those of what stands before it. -/
theorem subtree?_element {before outputs : List Output} {i : Nat} {path : List Nat} {o : Output}
    (h : outputs[i]? = some o) :
    (element tag id attrs style (before ++ outputs)).subtree? ((before.length + i) :: path) =
      o.subtree? path := by
  have hi : (before ++ outputs)[before.length + i]? = some o := by
    rw [List.getElem?_append_right (Nat.le_add_right _ _), Nat.add_sub_cancel_left, h]
  rw [subtree?, children, hi, Option.bind_some]

theorem replace_element {before outputs : List Output} {i : Nat} {path : List Nat} {o : Output}
    (h : outputs[i]? = some o) (new : Output) :
    (element tag id attrs style (before ++ outputs)).replace ((before.length + i) :: path) new =
      element tag id attrs style (before ++ outputs.set i (o.replace path new)) := by
  have hi : (before ++ outputs)[before.length + i]? = some o := by
    rw [List.getElem?_append_right (Nat.le_add_right _ _), Nat.add_sub_cancel_left, h]
  rw [replace, children, setChildren, List.modify_eq_set, hi, Option.getD_some,
    List.set_append_right _ _ (Nat.le_add_right _ _), Nat.add_sub_cancel_left]

end Output

/-- Where the output of the subtree at a position stands: the label of a button comes before the
outputs of its children. -/
def Engine.place (evaluator : Evaluator) (ctx : Context) (c : Component) : List Nat → List Nat
  | [] => []
  | i :: path =>
    ((Engine.label evaluator ctx c).length + i) ::
      (c.children[i]?.elim [] fun child => Engine.place evaluator ctx child path)

theorem Engine.place_cons {c child : Component} {i : Nat} (h : c.children[i]? = some child)
    (evaluator : Evaluator) (ctx : Context) (path : List Nat) :
    Engine.place evaluator ctx c (i :: path) =
      ((Engine.label evaluator ctx c).length + i) :: Engine.place evaluator ctx child path := by
  rw [Engine.place, h, Option.elim_some]

end LivePage
