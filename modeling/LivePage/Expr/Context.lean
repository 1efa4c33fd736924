import LivePage.Json.Basic

/-!
# Contexts

What an expression sees: layers of named bindings, of which inner ones hide outer ones. A context is
never changed; adding a layer makes a new one.

* `Context.lookup`: the binding of a name in the innermost layer that has it.
* `Context.flatten`: all visible bindings as one map.
* `lookup_child`, `get?_flatten`: what look-up sees of a new layer, and what the map shows of it.
-/

namespace LivePage

/-- What a name stands for: a value, a data source that is still loading, or one that failed. -/
inductive Binding
  | value (value : Json)
  | pending
  | error (message : String)

/-- Layers of bindings, the innermost first. -/
structure Context where
  frames : List (KeyMap Binding)

namespace Context

/-- The context without layers. -/
def empty : Context := ⟨[]⟩

/-- A new innermost layer; of two bindings of one name the later counts. -/
def child (ctx : Context) (bindings : List (String × Binding)) : Context :=
  ⟨KeyMap.ofList bindings :: ctx.frames⟩

/-- A new innermost layer with a single binding. -/
def withBinding (ctx : Context) (name : String) (binding : Binding) : Context :=
  ctx.child [(name, binding)]

/-- A new innermost layer that binds one name to a value. -/
def withValue (ctx : Context) (name : String) (value : Json) : Context :=
  ctx.withBinding name (.value value)

/-- One layer that binds the keys of an object to their values; an empty one if there is no
object. -/
def ofJson : Json → Context
  | .obj fields => empty.child (fields.map fun f => (f.1, .value f.2))
  | _ => empty.child []

/-- Looks a name up from the inside out. -/
def lookup (ctx : Context) (name : String) : Option Binding :=
  ctx.frames.findSome? fun frame => frame.get? name

/-- Whether a name is bound. -/
def contains (ctx : Context) (name : String) : Bool := (ctx.lookup name).isSome

/-- How many layers there are, empty ones included. -/
def depth (ctx : Context) : Nat := ctx.frames.length

/-- All visible bindings, inner ones put over outer ones. -/
def flatten (ctx : Context) : KeyMap Binding :=
  ctx.frames.foldr (fun frame visible => visible.union frame) KeyMap.empty

/-! ## What look-up sees -/

@[simp] theorem lookup_empty (name : String) : empty.lookup name = none := rfl

/-- A name stands for its binding in the innermost layer, or else for what it stood for before. -/
theorem lookup_child (ctx : Context) (bindings : List (String × Binding)) (name : String) :
    (ctx.child bindings).lookup name =
      ((KeyMap.ofList bindings).get? name).or (ctx.lookup name) := by
  unfold child lookup
  rw [List.findSome?_cons]
  cases (KeyMap.ofList bindings).get? name <;> rfl

/-- The visible binding of a name is the one that look-up finds. -/
theorem get?_flatten (ctx : Context) (name : String) :
    ctx.flatten.get? name = ctx.lookup name := by
  unfold flatten lookup
  induction ctx.frames with
  | nil => rfl
  | cons frame frames ih =>
    rw [List.foldr_cons, KeyMap.get?_union, ih, List.findSome?_cons]
    cases frame.get? name <;> rfl

end Context

end LivePage
