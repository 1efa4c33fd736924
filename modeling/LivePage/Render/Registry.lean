import LivePage.Collection.Keyed
import LivePage.Render.Builtin

/-!
# The registry of renderers

A registry maps the names of component types to renderers and keeps the order in which the names
were first registered. Registering a name again replaces its renderer and keeps its place.
-/

namespace LivePage

/-- Renderers by type name, in order of first registration. -/
structure Registry where
  entries : List (String × Renderer)

namespace Registry

/-- The registry without renderers. -/
def empty : Registry := ⟨[]⟩

/-- Registers a renderer under a name. -/
def register (r : Registry) (name : String) (renderer : Renderer) : Registry :=
  ⟨Keyed.put Prod.fst (name, renderer) r.entries⟩

/-- The renderer of a name. -/
def get? (r : Registry) (name : String) : Option Renderer :=
  (Keyed.get? Prod.fst name r.entries).map Prod.snd

/-- Whether a name is registered. -/
def has (r : Registry) (name : String) : Bool := (r.get? name).isSome

/-- The registry without a name, and whether the name was registered. -/
def unregister (r : Registry) (name : String) : Bool × Registry :=
  (r.has name, ⟨Keyed.remove Prod.fst name r.entries⟩)

/-- The registered names in order of first registration. -/
def names (r : Registry) : List String := r.entries.map Prod.fst

/-- How many names are registered. -/
def size (r : Registry) : Nat := r.entries.length

/-- Whether no name is registered. -/
def isEmpty (r : Registry) : Bool := r.entries.isEmpty

/-- The registry of the built-in renderers. -/
def builtins : Registry :=
  ((((empty.register "View" (Renderer.container "div")).register
    "Block" (Renderer.container "span")).register
    "Text" Renderer.text).register
    "Image" Renderer.image).register
    "Button" Renderer.button

end Registry

end LivePage
