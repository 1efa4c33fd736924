import LivePage.Render.Diagnostic
import LivePage.Render.Registry

/-!
# Rendering trees

Rendering visits a component before its children: it looks up the renderer, evaluates the properties
and then the style, reports what failed, and carries out the renderer's actions. A component that
cannot be rendered leaves a marker in its place, and its siblings and parents are rendered all the
same.

* `Pass`: how a step of a rendering ended, and what it reported.
* `Engine.render`: the rendering of a tree. With `catchPanics` a panic is a failure of the component
  whose renderer panicked; without it the panic ends the whole rendering.
-/

namespace LivePage

/-- A step of a rendering: its result or the panic that ended it, and its reports in order. -/
structure Pass (α : Type) where
  outcome : Except Panic α
  reports : List Diagnostic

namespace Pass

variable {α β : Type}

/-- A step with a result and without reports. -/
def ok (a : α) : Pass α := ⟨.ok a, []⟩

/-- A step that panics. -/
def panic (p : Panic) : Pass α := ⟨.error p, []⟩

/-- One step after another; a panic in the first leaves no second. -/
def andThen (p : Pass α) (f : α → Pass β) : Pass β :=
  match p.outcome with
  | .ok a =>
    let q := f a
    ⟨q.outcome, p.reports ++ q.reports⟩
  | .error e => ⟨.error e, p.reports⟩

/-- A step with reports before its own. -/
def after (reports : List Diagnostic) (p : Pass α) : Pass α := ⟨p.outcome, reports ++ p.reports⟩

instance : Monad Pass where
  pure := ok
  bind := andThen

end Pass

namespace Action

/-- Carries out actions; `rendered` is the rendering of the children. -/
def run (rendered : Pass (List Output)) : Action → Pass (Except RenderError Output)
  | .done output => .ok (.ok output)
  | .fail e => .ok (.error e)
  | .panic p => .panic p
  | .children next => rendered.andThen fun outputs => (next outputs).run rendered

end Action

/-- What a rendering needs beside the tree and the context. -/
structure Engine where
  registry : Registry
  evaluator : Evaluator
  catchPanics : Bool

namespace Engine

/-- The marker of a component whose type is unknown. -/
def unknownMarker (c : Component) : Output :=
  .marker .unknown c.id ("unknown component: " ++ c.type)

/-- The marker of a component that failed. -/
def errorMarker (c : Component) (e : RenderError) : Output :=
  .marker .error c.id ("render error in " ++ c.type ++ " (" ++ c.id ++ "): " ++ e.message)

/-- The report of a property that failed, its name after a mark of where it stands. -/
def propReport (c : Component) (place : String) (f : PropFailure) : Diagnostic :=
  let prop := place ++ f.prop
  Diagnostic.ofError c.id (some prop) (.expression prop f.error)

/-- A panic turned into a failure of the component, if panics are caught. -/
def contain (engine : Engine) (c : Component) (p : Pass (Except RenderError Output)) :
    Pass (Except RenderError Output) :=
  match p.outcome with
  | .error panic =>
    if engine.catchPanics then ⟨.ok (.error (.renderer c.type panic.message)), p.reports⟩ else p
  | .ok _ => p

/-- The output of a component, or the report of its failure and a marker. -/
def settle (c : Component) : Except RenderError Output → Pass Output
  | .ok output => .ok output
  | .error e => ⟨.ok (errorMarker c e), [Diagnostic.ofError c.id none e]⟩

/-- Renders a component, given the rendering of its children. -/
def visit (engine : Engine) (ctx : Context) (c : Component) (rendered : Pass (List Output)) :
    Pass Output :=
  match engine.registry.get? c.type with
  | none => ⟨.ok (unknownMarker c), [Diagnostic.ofError c.id none (.unknownComponent c.type)]⟩
  | some renderer =>
    let (props, propFailures) := evaluateProps engine.evaluator ctx c.props
    let (style, styleFailures) := evaluateProps engine.evaluator ctx c.style
    let reports := propFailures.map (propReport c "") ++ styleFailures.map (propReport c "style.")
    let actions := renderer ⟨c, ctx, props, style⟩
    Pass.after reports ((engine.contain c (actions.run rendered)).andThen (settle c))

mutual

/-- Renders a tree. -/
def render (engine : Engine) (ctx : Context) : Component → Pass Output
  | ⟨id, type, props, style, children⟩ =>
    engine.visit ctx ⟨id, type, props, style, children⟩ (renderEach engine ctx children)

/-- Renders trees in order. -/
def renderEach (engine : Engine) (ctx : Context) : List Component → Pass (List Output)
  | [] => .ok []
  | c :: cs =>
    (render engine ctx c).andThen fun output =>
      (renderEach engine ctx cs).andThen fun outputs => .ok (output :: outputs)

end

/-- Renders trees into one fragment. -/
def renderAll (engine : Engine) (ctx : Context) (cs : List Component) : Pass Output :=
  (engine.renderEach ctx cs).andThen fun outputs => .ok (.fragment outputs)

end Engine

end LivePage
