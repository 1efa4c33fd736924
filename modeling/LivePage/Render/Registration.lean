import LivePage.Collection.KeyMap
import LivePage.Render.Registry

/-!
# Registering and unregistering

What is done to a registry call by call, and what comes of it. A `Registry` keeps one list. The
`RendererTable` keeps a map of renderers and, beside it, the names in their order; every operation
has to change the two together.
-/

namespace LivePage

/-- A call that changes a registry. -/
inductive Registration
  | register (name : String) (renderer : Renderer)
  | unregister (name : String)

/-- The name that a call is about. -/
def Registration.name : Registration → String
  | .register name _ => name
  | .unregister name => name

/-- A call that was made, and what came of it. -/
inductive RegistryEvent
  | registered (name : String) (renderer : Renderer)
  /-- Whether there was such a name. -/
  | unregistered (name : String) (found : Bool)

/-- Makes a call to a registry. -/
def Registry.perform (r : Registry) : Registration → RegistryEvent × Registry
  | .register name renderer => (.registered name renderer, r.register name renderer)
  | .unregister name => (.unregistered name (r.unregister name).1, (r.unregister name).2)

/-- A map of renderers, and the names in the order in which they were registered. -/
structure RendererTable where
  renderers : KeyMap Renderer
  order : List String

namespace RendererTable

/-- The table without renderers. -/
def empty : RendererTable := ⟨KeyMap.empty, []⟩

/-- Registers a renderer under a name. Only a name that was not there is added to the order. -/
def register (t : RendererTable) (name : String) (renderer : Renderer) : RendererTable :=
  let renderers := t.renderers.insert name renderer
  match t.renderers.get? name with
  | some _ => ⟨renderers, t.order⟩
  | none => ⟨renderers, t.order ++ [name]⟩

/-- The table without a name, and whether the name was registered. -/
def unregister (t : RendererTable) (name : String) : Bool × RendererTable :=
  match t.renderers.get? name with
  | some _ => (true, ⟨t.renderers.erase name, t.order.filter fun n => n != name⟩)
  | none => (false, t)

/-- The renderer of a name. -/
def get? (t : RendererTable) (name : String) : Option Renderer := t.renderers.get? name

/-- Whether a name is registered. -/
def has (t : RendererTable) (name : String) : Bool := t.renderers.contains name

/-- The registered names in order of first registration. -/
def names (t : RendererTable) : List String := t.order

/-- How many names are registered. -/
def size (t : RendererTable) : Nat := t.order.length

/-- Whether no name is registered. -/
def isEmpty (t : RendererTable) : Bool := t.order.isEmpty

/-- The table of the built-in renderers. -/
def builtins : RendererTable :=
  ((((empty.register "View" (Renderer.container "div")).register
    "Block" (Renderer.container "span")).register
    "Text" Renderer.text).register
    "Image" Renderer.image).register
    "Button" Renderer.button

/-- Makes a call to a table. -/
def perform (t : RendererTable) : Registration → RegistryEvent × RendererTable
  | .register name renderer => (.registered name renderer, t.register name renderer)
  | .unregister name => (.unregistered name (t.unregister name).1, (t.unregister name).2)

end RendererTable

/-- Makes calls one after the other; what came of each, and what they lead to. -/
def performAll {σ : Type} (perform : σ → Registration → RegistryEvent × σ) (s : σ) :
    List Registration → List RegistryEvent × σ
  | [] => ([], s)
  | call :: calls =>
    let (event, s) := perform s call
    let (events, s) := performAll perform s calls
    (event :: events, s)

/-- The calls that register the built-in renderers. -/
def Registration.builtins : List Registration :=
  [.register "View" (Renderer.container "div"), .register "Block" (Renderer.container "span"),
    .register "Text" Renderer.text, .register "Image" Renderer.image,
    .register "Button" Renderer.button]

/-- The calls by which a registry is made that starts without renderers or with the built-in
ones. -/
def Registration.starting (withBuiltins : Bool) : List Registration :=
  if withBuiltins then builtins else []

/-- The table with which a program starts. -/
def RendererTable.start (withBuiltins : Bool) : RendererTable :=
  if withBuiltins then builtins else empty

/-- The registry with which a program starts. -/
def Registry.start (withBuiltins : Bool) : Registry :=
  if withBuiltins then builtins else empty

end LivePage
