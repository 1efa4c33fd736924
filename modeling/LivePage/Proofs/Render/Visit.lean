import LivePage.Render.Tree

/-!
# What the rendering of one component does

`Engine.visit` renders a component, given the rendering of its children. It is described here once,
case by case; what holds of whole trees follows from these cases by induction.

* `visit_unregistered`, `visit_done`, `visit_fail`, `visit_panic`: the four ways in which a visit
  can go.
* `exists_render`, `exists_renderEach`: with panics caught, rendering always returns an output.
* `Registry.KeepsBuiltins`: the registries in which the built-in names have their own renderers.
* `render_container`: what the built-in containers make of the outputs of their children.
* `render_text`, `render_image`: the built-in renderers that never render children.
-/

namespace LivePage

theorem Component.mk_fields (c : Component) :
    Component.mk c.id c.type c.props c.style c.children = c := by
  cases c
  rfl

namespace Engine

variable {engine : Engine} {ctx : Context} {c : Component} {rendered : Pass (List Output)}

/-- The input of the renderer of a component. -/
def input (evaluator : Evaluator) (ctx : Context) (c : Component) : RenderInput :=
  ⟨c, ctx, (evaluateProps evaluator ctx c.props).1, (evaluateProps evaluator ctx c.style).1⟩

/-- The reports of the properties and style entries of a component that have no value. -/
def propReports (evaluator : Evaluator) (ctx : Context) (c : Component) : List Diagnostic :=
  (evaluateProps evaluator ctx c.props).2.map (propReport c "") ++
    (evaluateProps evaluator ctx c.style).2.map (propReport c "style.")

/-! ## One visit -/

/-- A component of an unknown type becomes a marker, and its properties are not evaluated. -/
theorem visit_unregistered (h : engine.registry.get? c.type = none) :
    engine.visit ctx c rendered =
      ⟨.ok (unknownMarker c), [Diagnostic.ofError c.id none (.unknownComponent c.type)]⟩ := by
  unfold visit
  rw [h]

theorem visit_registered {renderer : Renderer} (h : engine.registry.get? c.type = some renderer) :
    engine.visit ctx c rendered = Pass.after (propReports engine.evaluator ctx c)
      ((engine.contain c ((renderer (input engine.evaluator ctx c)).run rendered)).andThen
        (settle c)) := by
  unfold visit
  rw [h]
  rfl

/-- A renderer that returns gives the output of the component. -/
theorem visit_done {renderer : Renderer} (h : engine.registry.get? c.type = some renderer)
    {output : Output} {reports : List Diagnostic}
    (hrun : (renderer (input engine.evaluator ctx c)).run rendered = ⟨.ok (.ok output), reports⟩) :
    engine.visit ctx c rendered = ⟨.ok output, propReports engine.evaluator ctx c ++ reports⟩ := by
  rw [visit_registered h, hrun]
  simp [contain, Pass.andThen, settle, Pass.ok, Pass.after]

/-- A renderer that returns without having its children rendered adds no reports. -/
theorem visit_returns {renderer : Renderer} (h : engine.registry.get? c.type = some renderer)
    {output : Output} (hdone : renderer (input engine.evaluator ctx c) = .done output) :
    engine.visit ctx c rendered = ⟨.ok output, propReports engine.evaluator ctx c⟩ := by
  have hrun : (renderer (input engine.evaluator ctx c)).run rendered = ⟨.ok (.ok output), []⟩ := by
    rw [hdone]
    rfl
  rw [visit_done h hrun, List.append_nil]

/-- A renderer that fails is reported last and leaves a marker. -/
theorem visit_fail {renderer : Renderer} (h : engine.registry.get? c.type = some renderer)
    {e : RenderError} {reports : List Diagnostic}
    (hrun : (renderer (input engine.evaluator ctx c)).run rendered = ⟨.ok (.error e), reports⟩) :
    engine.visit ctx c rendered =
      ⟨.ok (errorMarker c e),
        propReports engine.evaluator ctx c ++ (reports ++ [Diagnostic.ofError c.id none e])⟩ := by
  rw [visit_registered h, hrun]
  simp [contain, Pass.andThen, settle, Pass.after]

/-- A panic that is caught is a failure of the component. -/
theorem visit_panic (hcatch : engine.catchPanics = true) {renderer : Renderer}
    (h : engine.registry.get? c.type = some renderer) {p : Panic} {reports : List Diagnostic}
    (hrun : (renderer (input engine.evaluator ctx c)).run rendered = ⟨.error p, reports⟩) :
    engine.visit ctx c rendered =
      ⟨.ok (errorMarker c (.renderer c.type p.message)), propReports engine.evaluator ctx c ++
        (reports ++ [Diagnostic.ofError c.id none (.renderer c.type p.message)])⟩ := by
  rw [visit_registered h, hrun]
  simp [contain, hcatch, Pass.andThen, settle, Pass.after]

/-- With panics caught a visit always returns an output, whatever became of the children. -/
theorem exists_visit (hcatch : engine.catchPanics = true) (ctx : Context) (c : Component)
    (rendered : Pass (List Output)) :
    ∃ output reports, engine.visit ctx c rendered = ⟨.ok output, reports⟩ := by
  cases h : engine.registry.get? c.type with
  | none => exact ⟨_, _, visit_unregistered h⟩
  | some renderer =>
    cases hrun : (renderer (input engine.evaluator ctx c)).run rendered with
    | mk outcome reports =>
      cases outcome with
      | error p => exact ⟨_, _, visit_panic hcatch h hrun⟩
      | ok result =>
        cases result with
        | error e => exact ⟨_, _, visit_fail h hrun⟩
        | ok output => exact ⟨_, _, visit_done h hrun⟩

/-! ## Trees and rows of trees -/

theorem render_eq (engine : Engine) (ctx : Context) (c : Component) :
    engine.render ctx c = engine.visit ctx c (engine.renderEach ctx c.children) := by
  cases c
  rfl

/-- With panics caught every tree has an output. -/
theorem exists_render (hcatch : engine.catchPanics = true) (ctx : Context) (c : Component) :
    ∃ output reports, engine.render ctx c = ⟨.ok output, reports⟩ := by
  rw [render_eq]
  exact exists_visit hcatch ctx c _

theorem renderEach_cons {cs : List Component} {output : Output} {outputs : List Output}
    {reports restReports : List Diagnostic} (h : engine.render ctx c = ⟨.ok output, reports⟩)
    (hs : engine.renderEach ctx cs = ⟨.ok outputs, restReports⟩) :
    engine.renderEach ctx (c :: cs) = ⟨.ok (output :: outputs), reports ++ restReports⟩ := by
  rw [renderEach, h]
  simp [Pass.andThen, hs, Pass.ok]

/-- With panics caught every row of trees has its outputs, one for each tree. -/
theorem exists_renderEach (hcatch : engine.catchPanics = true) (ctx : Context)
    (cs : List Component) :
    ∃ outputs reports, engine.renderEach ctx cs = ⟨.ok outputs, reports⟩ := by
  induction cs with
  | nil => exact ⟨[], [], rfl⟩
  | cons c cs ih =>
    obtain ⟨output, reports, h⟩ := exists_render hcatch ctx c
    obtain ⟨outputs, restReports, hs⟩ := ih
    exact ⟨_, _, renderEach_cons h hs⟩

end Engine

/-! ## The built-in renderers -/

namespace Registry

/-- The built-in names have their own renderers; any others may have been registered beside them. -/
def KeepsBuiltins (r : Registry) : Prop := ∀ name ∈ builtins.names, r.get? name = builtins.get? name

theorem keepsBuiltins_builtins : builtins.KeepsBuiltins := fun _ _ => rfl

theorem get?_register (r : Registry) (name : String) (renderer : Renderer) (key : String) :
    (r.register name renderer).get? key = if name = key then some renderer else r.get? key := by
  unfold register get?
  rw [Keyed.get?_put]
  split <;> rfl

/-- Renderers registered under other names leave the built-in ones. -/
theorem KeepsBuiltins.register {r : Registry} (h : r.KeepsBuiltins) {name : String}
    (hn : name ∉ builtins.names) (renderer : Renderer) :
    (r.register name renderer).KeepsBuiltins := by
  intro key hk
  have hne : name ≠ key := by
    rintro rfl; exact hn hk
  rw [get?_register, if_neg hne, h key hk]

/-- The renderer of a type that has a built-in name. -/
theorem KeepsBuiltins.get?_eq {r : Registry} (h : r.KeepsBuiltins) {type name : String}
    (ht : type = name) (hn : name ∈ builtins.names) {renderer : Renderer}
    (hb : builtins.get? name = some renderer) : r.get? type = some renderer := by
  rw [ht, h name hn, hb]

end Registry

namespace RenderInput

/-- The attributes that a component gets from its properties. -/
def attributes (i : RenderInput) (skip : List String) : KeyMap Json :=
  i.props.jsonMap.filter fun name _ => !skip.contains name && Html.isSafeAttr name

/-- The text of a button, if it has any. -/
def label (i : RenderInput) : List Output :=
  if (i.props.value "content").isUndefined then [] else [.text (i.props.value "content").display]

/-- The attributes of a button. -/
def buttonAttributes (i : RenderInput) : KeyMap Json :=
  let attrs := (i.attributes ["content", "type", "size", "plain", "disabled"]).insert "class"
    (.str (" ".intercalate (Renderer.buttonClasses i.props)))
  if i.props.isOn "disabled" then attrs.insert "disabled" (.bool true) else attrs

/-- The attributes of an image. -/
def imageAttributes (i : RenderInput) : KeyMap Json :=
  let attrs := i.attributes ["mode", "lazyLoad"]
  if i.props.isOn "lazyLoad" then attrs.insert "loading" (.str "lazy") else attrs

/-- The style of an image: its own, and the scaling that its mode asks for where it sets none. -/
def imageStyle (i : RenderInput) : KeyMap Json :=
  if (i.style.value "objectFit").isUndefined then
    match objectFit? ((i.props.string? "mode").getD "scaleToFill") with
    | some fit => i.style.jsonMap.insert "objectFit" (.str fit)
    | none => i.style.jsonMap
  else i.style.jsonMap

end RenderInput

namespace Renderer

theorem container_eq (tag : String) (i : RenderInput) :
    container tag i = .children fun outputs =>
      .done (.element tag i.component.id (i.attributes []) i.style.jsonMap outputs) := rfl

theorem text_eq (i : RenderInput) :
    text i = .done (.element "span" i.component.id (i.attributes ["content"]) i.style.jsonMap
      [.text (i.props.value "content").display]) := rfl

theorem image_eq (i : RenderInput) :
    image i = .done (.element "img" i.component.id i.imageAttributes i.imageStyle []) := by
  unfold image RenderInput.imageAttributes RenderInput.imageStyle
  cases i.props.isOn "lazyLoad" <;> cases (i.style.value "objectFit").isUndefined <;>
    cases objectFit? ((i.props.string? "mode").getD "scaleToFill") <;> rfl

theorem button_eq (i : RenderInput) :
    button i = .children fun outputs =>
      .done (.element "button" i.component.id i.buttonAttributes i.style.jsonMap
        (i.label ++ outputs)) := by
  unfold button RenderInput.buttonAttributes RenderInput.label
  dsimp only
  split <;> rfl

end Renderer

namespace Engine

variable {engine : Engine}

/-- The types whose renderers render the children of a component. -/
def containerTypes : List String := ["View", "Block", "Button"]

/-- What stands before the outputs of its children in the element of a container. -/
def label (evaluator : Evaluator) (ctx : Context) (c : Component) : List Output :=
  if c.type = "Button" then (input evaluator ctx c).label else []

/-- A renderer that renders the children once and puts their outputs last into an element. -/
theorem render_wrap {ctx : Context} {c : Component} {renderer : Renderer}
    (h : engine.registry.get? c.type = some renderer) {tag : String} {attrs style : KeyMap Json}
    {before : List Output}
    (ha : ∀ children, renderer (input engine.evaluator ctx { c with children }) =
      .children fun outputs => .done (.element tag c.id attrs style (before ++ outputs)))
    {children : List Component} {outputs : List Output} {reports : List Diagnostic}
    (hs : engine.renderEach ctx children = ⟨.ok outputs, reports⟩) :
    engine.render ctx { c with children } =
      ⟨.ok (.element tag c.id attrs style (before ++ outputs)),
        propReports engine.evaluator ctx c ++ reports⟩ := by
  rw [render_eq]
  refine visit_done (c := { c with children }) h ?_
  rw [ha]
  simp [Action.run, hs, Pass.andThen, Pass.ok]

/-- **What a container does**: around the outputs of its children, in their order and after its
label, it puts an element that carries its id; its own reports come before theirs. -/
theorem render_container (hr : engine.registry.KeepsBuiltins) (ctx : Context) {c : Component}
    (ht : c.type ∈ containerTypes) :
    ∃ tag attrs style, ∀ children outputs reports,
      engine.renderEach ctx children = ⟨.ok outputs, reports⟩ →
      engine.render ctx { c with children } =
        ⟨.ok (.element tag c.id attrs style (label engine.evaluator ctx c ++ outputs)),
          propReports engine.evaluator ctx c ++ reports⟩ := by
  simp only [containerTypes, List.mem_cons, List.not_mem_nil, or_false] at ht
  rcases ht with ht | ht | ht
  · have hg : engine.registry.get? c.type = some (Renderer.container "div") :=
      hr.get?_eq ht (by decide) rfl
    have hl : label engine.evaluator ctx c = [] := by simp [label, ht]
    rw [hl]
    exact ⟨"div", (input engine.evaluator ctx c).attributes [],
      (input engine.evaluator ctx c).style.jsonMap,
      fun _ _ _ => render_wrap hg fun _ => Renderer.container_eq _ _⟩
  · have hg : engine.registry.get? c.type = some (Renderer.container "span") :=
      hr.get?_eq ht (by decide) rfl
    have hl : label engine.evaluator ctx c = [] := by simp [label, ht]
    rw [hl]
    exact ⟨"span", (input engine.evaluator ctx c).attributes [],
      (input engine.evaluator ctx c).style.jsonMap,
      fun _ _ _ => render_wrap hg fun _ => Renderer.container_eq _ _⟩
  · have hg : engine.registry.get? c.type = some Renderer.button :=
      hr.get?_eq ht (by decide) rfl
    have hl : label engine.evaluator ctx c = (input engine.evaluator ctx c).label := by
      simp [label, ht]
    rw [hl]
    exact ⟨"button", (input engine.evaluator ctx c).buttonAttributes,
      (input engine.evaluator ctx c).style.jsonMap,
      fun _ _ _ => render_wrap hg fun _ => Renderer.button_eq _⟩

/-- A text is an element around its content. -/
theorem render_text (hr : engine.registry.KeepsBuiltins) (ctx : Context) {c : Component}
    (ht : c.type = "Text") :
    engine.render ctx c =
      ⟨.ok (.element "span" c.id ((input engine.evaluator ctx c).attributes ["content"])
        (input engine.evaluator ctx c).style.jsonMap
        [.text ((input engine.evaluator ctx c).props.value "content").display]),
        propReports engine.evaluator ctx c⟩ := by
  have hg : engine.registry.get? c.type = some Renderer.text := hr.get?_eq ht (by decide) rfl
  rw [render_eq, visit_returns hg (Renderer.text_eq _)]
  rfl

/-- An image is an element without content. -/
theorem render_image (hr : engine.registry.KeepsBuiltins) (ctx : Context) {c : Component}
    (ht : c.type = "Image") :
    engine.render ctx c = ⟨.ok (.element "img" c.id (input engine.evaluator ctx c).imageAttributes
      (input engine.evaluator ctx c).imageStyle []), propReports engine.evaluator ctx c⟩ := by
  have hg : engine.registry.get? c.type = some Renderer.image := hr.get?_eq ht (by decide) rfl
  rw [render_eq, visit_returns hg (Renderer.image_eq _)]
  rfl

end Engine

end LivePage
