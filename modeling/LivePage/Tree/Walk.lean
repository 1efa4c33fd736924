import LivePage.Collection.KeyMap
import LivePage.Tree.Component

/-!
# Walking over a tree

A walk over a tree visits every component before its children, and these in their order.

* `Component.preorder`: the components in the order in which a walk visits them.
* `Census`, `Component.walk`: a walk that takes down which ids it meets, and which of them it meets
  again. `Component.duplicateIds` asks the list of ids instead.
-/

namespace LivePage

/-- What a walk has met. -/
structure Census where
  /-- The ids that it met. -/
  seen : KeySet
  /-- Those that it met again, in the order in which it first did. -/
  again : List String

namespace Census

/-- Nothing is met yet. -/
def empty : Census := ⟨KeyMap.empty, []⟩

/-- One more id is met. -/
def meet (s : Census) (id : String) : Census where
  seen := s.seen.add id
  again := if s.seen.contains id && !s.again.contains id then s.again ++ [id] else s.again

end Census

namespace Component

mutual

/-- The components of a tree in preorder. -/
def preorder : Component → List Component
  | ⟨id, type, props, style, children⟩ => ⟨id, type, props, style, children⟩ :: preorderAll children

/-- The components of a row of trees in preorder. -/
def preorderAll : List Component → List Component
  | [] => []
  | c :: cs => c.preorder ++ preorderAll cs

end

mutual

/-- Walks over a tree. -/
def walk : Census → Component → Census
  | s, ⟨id, _, _, _, children⟩ => walkAll (s.meet id) children

/-- Walks over a row of trees. -/
def walkAll : Census → List Component → Census
  | s, [] => s
  | s, c :: cs => walkAll (walk s c) cs

end

end Component

end LivePage
