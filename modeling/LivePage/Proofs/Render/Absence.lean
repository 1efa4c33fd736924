import LivePage.Proofs.Render.Visit

/-!
# Properties without a value

A bound property whose source is loading, names a missing member or fails is undefined, and the
built-in renderers treat it like one that is not there.

* `Component.dropUndefined`: the tree without the properties and style entries that are undefined.
* `Renderer.SeesValues`: the renderers that see of a component no more than its id and the values
  that there are.
* `Engine.render_dropUndefined`: with such renderers, the reduced tree has the same output, and the
  reports but for those of properties; `Engine.render_builtins_dropUndefined` for the built-in ones.
-/

namespace LivePage

/-! ## Trees without what is undefined -/

section

variable (evaluator : Evaluator) (ctx : Context)

/-- Whether there is a value: a literal is one, and a source may have one. -/
def PropValue.hasValue : PropValue → Bool
  | .literal _ => true
  | .bound source =>
    match evaluateSource evaluator ctx source with
    | .ok v => !v.isUndefined
    | .error _ => false

/-- The entries that have a value. -/
def PropMap.dropUndefined (values : PropMap) : PropMap :=
  values.filter fun _ p => p.hasValue evaluator ctx

mutual

/-- The tree without the properties and style entries that have no value. -/
def Component.dropUndefined : Component → Component
  | ⟨id, type, props, style, children⟩ =>
    ⟨id, type, PropMap.dropUndefined evaluator ctx props, PropMap.dropUndefined evaluator ctx style,
      dropUndefinedAll children⟩

/-- A row of trees without the properties and style entries that have no value. -/
def Component.dropUndefinedAll : List Component → List Component
  | [] => []
  | c :: cs => c.dropUndefined :: dropUndefinedAll cs

end

end

section

variable {evaluator : Evaluator} {ctx : Context}

theorem PropValue.hasValue_eq (evaluator : Evaluator) (ctx : Context) (p : PropValue) :
    p.hasValue evaluator ctx = (propValueOrUndefined evaluator ctx p).json?.isSome := by
  cases p with
  | literal j => rfl
  | bound source =>
    rw [hasValue, propValueOrUndefined, evaluateProp]
    cases evaluateSource evaluator ctx source with
    | error e => rfl
    | ok v => cases v <;> rfl

/-- What has a value does not fail. -/
theorem PropValue.propFailure?_eq_none {p : PropValue} (h : p.hasValue evaluator ctx = true)
    (name : String) : propFailure? evaluator ctx name p = none := by
  cases p with
  | literal j => rfl
  | bound source =>
    rw [hasValue] at h
    rw [propFailure?, evaluateProp]
    cases hsource : evaluateSource evaluator ctx source with
    | ok v => rfl
    | error e =>
      rw [hsource] at h
      cases h

/-- The values that there are stay. -/
theorem jsonMap_dropUndefined (values : PropMap) :
    (evaluateProps evaluator ctx (PropMap.dropUndefined evaluator ctx values)).1.jsonMap =
      (evaluateProps evaluator ctx values).1.jsonMap := by
  apply KeyMap.ext_get?
  intro name
  simp only [evaluateProps, Props.jsonMap, PropMap.dropUndefined, KeyMap.get?_filterMap,
    KeyMap.get?_mapValues, KeyMap.get?_filter]
  cases values.get? name with
  | none => rfl
  | some p =>
    have hp := p.hasValue_eq evaluator ctx
    cases hjson : (propValueOrUndefined evaluator ctx p).json? with
    | none =>
      rw [hjson] at hp
      simp [Option.filter, hp, hjson]
    | some j =>
      rw [hjson] at hp
      simp [Option.filter, hp]

theorem failures_dropUndefined (values : PropMap) :
    (evaluateProps evaluator ctx (PropMap.dropUndefined evaluator ctx values)).2 = [] := by
  rw [evaluateProps, List.filterMap_eq_nil_iff]
  intro entry hentry
  exact PropValue.propFailure?_eq_none (List.mem_filter.mp hentry).2 entry.1

end

/-! ## What a renderer sees -/

/-- Two inputs of one component show the same values, whatever else is undefined. -/
structure RenderInput.SameValues (i i' : RenderInput) : Prop where
  id_eq : i.component.id = i'.component.id
  props_eq : i.props.jsonMap = i'.props.jsonMap
  style_eq : i.style.jsonMap = i'.style.jsonMap

/-- A property that is not there and one that is undefined have the same value. -/
theorem Props.value_eq (props : Props) (name : String) :
    props.value name = (props.jsonMap.get? name).elim .undefined .json := by
  rw [value, jsonMap, KeyMap.get?_filterMap]
  cases props.get? name with
  | none => rfl
  | some v => cases v <;> rfl

theorem Props.value_eq_json_iff {props : Props} {name : String} {v : Json} :
    props.value name = .json v ↔ props.jsonMap.get? name = some v := by
  rw [value_eq]
  cases props.jsonMap.get? name <;> simp

namespace RenderInput.SameValues

variable {i i' : RenderInput}

theorem value_eq (h : i.SameValues i') (name : String) :
    i.props.value name = i'.props.value name := by
  rw [Props.value_eq, h.props_eq, ← Props.value_eq]

theorem styleValue_eq (h : i.SameValues i') (name : String) :
    i.style.value name = i'.style.value name := by
  rw [Props.value_eq, h.style_eq, ← Props.value_eq]

theorem string?_eq (h : i.SameValues i') (name : String) :
    i.props.string? name = i'.props.string? name := by
  rw [Props.string?, h.value_eq, Props.string?]

theorem isOn_eq (h : i.SameValues i') (name : String) : i.props.isOn name = i'.props.isOn name := by
  rw [Props.isOn, h.string?_eq, h.value_eq, Props.isOn]

theorem attributes_eq (h : i.SameValues i') (skip : List String) :
    i.attributes skip = i'.attributes skip := by
  rw [attributes, h.props_eq, attributes]

theorem label_eq (h : i.SameValues i') : i.label = i'.label := by
  rw [label, h.value_eq, label]

theorem buttonAttributes_eq (h : i.SameValues i') : i.buttonAttributes = i'.buttonAttributes := by
  have hclasses : Renderer.buttonClasses i.props = Renderer.buttonClasses i'.props := by
    simp only [Renderer.buttonClasses, h.string?_eq, h.isOn_eq]
  rw [buttonAttributes, h.attributes_eq, h.isOn_eq, hclasses, buttonAttributes]

theorem imageAttributes_eq (h : i.SameValues i') : i.imageAttributes = i'.imageAttributes := by
  rw [imageAttributes, h.attributes_eq, h.isOn_eq, imageAttributes]

theorem imageStyle_eq (h : i.SameValues i') : i.imageStyle = i'.imageStyle := by
  rw [imageStyle, h.styleValue_eq, h.string?_eq, h.style_eq, imageStyle]

end RenderInput.SameValues

/-- Actions that end with an output, whatever the children are rendered to. -/
inductive Action.Returns : Action → Prop
  | done (output : Output) : Returns (.done output)
  | children {next : List Output → Action} (h : ∀ outputs, (next outputs).Returns) :
    Returns (.children next)

/-- A renderer always returns, and does the same wherever it sees the same values. -/
structure Renderer.SeesValues (renderer : Renderer) : Prop where
  congr : ∀ {i i' : RenderInput}, i.SameValues i' → renderer i = renderer i'
  returns : ∀ i, (renderer i).Returns

namespace Renderer

theorem seesValues_container (tag : String) : (container tag).SeesValues where
  congr h := by rw [container_eq, container_eq, h.id_eq, h.attributes_eq, h.style_eq]
  returns _ := .children fun _ => .done _

theorem seesValues_text : text.SeesValues where
  congr h := by rw [text_eq, text_eq, h.id_eq, h.attributes_eq, h.style_eq, h.value_eq]
  returns _ := .done _

theorem seesValues_image : image.SeesValues where
  congr h := by rw [image_eq, image_eq, h.id_eq, h.imageAttributes_eq, h.imageStyle_eq]
  returns i := by
    rw [image_eq]
    exact .done _

theorem seesValues_button : button.SeesValues where
  congr h := by
    rw [button_eq, button_eq, h.id_eq, h.buttonAttributes_eq, h.style_eq, h.label_eq]
  returns i := by
    rw [button_eq]
    exact .children fun _ => .done _

end Renderer

namespace Registry

/-- All renderers of the registry see values only. -/
def SeesValues (r : Registry) : Prop :=
  ∀ name renderer, r.get? name = some renderer → renderer.SeesValues

theorem seesValues_empty : empty.SeesValues := by
  intro name renderer hget
  cases hget

theorem SeesValues.register {r : Registry} (h : r.SeesValues) (name : String)
    {renderer : Renderer} (hrenderer : renderer.SeesValues) :
    (r.register name renderer).SeesValues := by
  intro key found hget
  rw [get?_register] at hget
  split at hget
  · cases hget
    exact hrenderer
  · exact h key found hget

theorem seesValues_builtins : builtins.SeesValues :=
  ((((seesValues_empty.register "View" (Renderer.seesValues_container "div")).register
    "Block" (Renderer.seesValues_container "span")).register
    "Text" Renderer.seesValues_text).register
    "Image" Renderer.seesValues_image).register
    "Button" Renderer.seesValues_button

end Registry

/-! ## Reports but for those of properties -/

/-- The reports that are not of expressions. -/
def withoutExpressions (reports : List Diagnostic) : List Diagnostic :=
  reports.filter fun d => d.kind != .expression

theorem withoutExpressions_append (reports more : List Diagnostic) :
    withoutExpressions (reports ++ more) =
      withoutExpressions reports ++ withoutExpressions more :=
  List.filter_append ..

/-- Two steps return the same, and the second has the reports of the first but for those of
expressions. -/
def Pass.Silenced {α : Type} (p q : Pass α) : Prop :=
  ∃ a reports, p = ⟨.ok a, reports⟩ ∧ q = ⟨.ok a, withoutExpressions reports⟩

namespace Pass.Silenced

variable {α β : Type} {p q : Pass α}

theorem ok (a : α) : Silenced (Pass.ok a) (Pass.ok a) := ⟨a, [], rfl, rfl⟩

theorem andThen {f g : α → Pass β} (h : Silenced p q) (hfg : ∀ a, Silenced (f a) (g a)) :
    Silenced (p.andThen f) (q.andThen g) := by
  obtain ⟨a, reports, rfl, rfl⟩ := h
  obtain ⟨b, more, hf, hg⟩ := hfg a
  refine ⟨b, reports ++ more, ?_, ?_⟩
  · simp [Pass.andThen, hf]
  · simp [Pass.andThen, hg, withoutExpressions_append]

end Pass.Silenced

/-- Actions that return return the same on the same outputs of the children. -/
theorem Action.Returns.silenced {rendered rendered' : Pass (List Output)}
    (h : rendered.Silenced rendered') {a : Action} (ha : a.Returns) :
    ∃ output reports, a.run rendered = ⟨.ok (.ok output), reports⟩ ∧
      a.run rendered' = ⟨.ok (.ok output), withoutExpressions reports⟩ := by
  induction ha with
  | done output => exact ⟨output, [], rfl, rfl⟩
  | children _ ih =>
    obtain ⟨outputs, reports, hrendered, hrendered'⟩ := h
    obtain ⟨output, more, hrun, hrun'⟩ := ih outputs
    refine ⟨output, reports ++ more, ?_, ?_⟩
    · rw [hrendered] at hrun ⊢
      simp [Action.run, Pass.andThen, hrun]
    · rw [hrendered'] at hrun' ⊢
      simp [Action.run, Pass.andThen, hrun', withoutExpressions_append]

namespace Engine

variable {engine : Engine} {ctx : Context}

/-! ## One component -/

/-- The reports of properties are of expressions. -/
theorem withoutExpressions_propReports (evaluator : Evaluator) (ctx : Context) (c : Component) :
    withoutExpressions (propReports evaluator ctx c) = [] := by
  simp [withoutExpressions, propReports, propReport, Diagnostic.ofError, RenderError.kind]

/-- Without the entries that have no value a component shows its renderer the same, and nothing is
reported of its properties. -/
theorem visit_silenced (h : engine.registry.SeesValues) (ctx : Context) (c : Component)
    (children : List Component) {rendered rendered' : Pass (List Output)}
    (hrendered : rendered.Silenced rendered') :
    (engine.visit ctx c rendered).Silenced
      (engine.visit ctx ⟨c.id, c.type, PropMap.dropUndefined engine.evaluator ctx c.props,
        PropMap.dropUndefined engine.evaluator ctx c.style, children⟩ rendered') := by
  generalize hc' : Component.mk c.id c.type (PropMap.dropUndefined engine.evaluator ctx c.props)
    (PropMap.dropUndefined engine.evaluator ctx c.style) children = c'
  have htype : c'.type = c.type := by rw [← hc']
  cases hget : engine.registry.get? c.type with
  | none =>
    rw [visit_unregistered hget, visit_unregistered (htype ▸ hget), ← hc']
    exact ⟨_, _, rfl, rfl⟩
  | some renderer =>
    have hsees := h _ _ hget
    have hsame : (input engine.evaluator ctx c').SameValues (input engine.evaluator ctx c) := by
      rw [← hc']
      exact ⟨rfl, jsonMap_dropUndefined c.props, jsonMap_dropUndefined c.style⟩
    have hquiet : propReports engine.evaluator ctx c' = [] := by
      rw [← hc', propReports, failures_dropUndefined, failures_dropUndefined]
      rfl
    obtain ⟨output, reports, hrun, hrun'⟩ :=
      (hsees.returns (input engine.evaluator ctx c)).silenced hrendered
    rw [← hsees.congr hsame] at hrun'
    rw [visit_done hget hrun, visit_done (htype ▸ hget) hrun', hquiet]
    refine ⟨output, _, rfl, ?_⟩
    rw [withoutExpressions_append, withoutExpressions_propReports]

/-! ## Trees and rows of trees -/

mutual

/-- Where renderers see values only, a tree without the entries that have no value has the same
output, and the reports of the tree but for those of expressions. -/
theorem render_dropUndefined (h : engine.registry.SeesValues) (ctx : Context) : ∀ c : Component,
    (engine.render ctx c).Silenced (engine.render ctx (c.dropUndefined engine.evaluator ctx))
  | ⟨id, type, props, style, children⟩ => by
    rw [Component.dropUndefined, render, render]
    exact visit_silenced h ctx ⟨id, type, props, style, children⟩ _
      (renderEach_dropUndefined h ctx children)

theorem renderEach_dropUndefined (h : engine.registry.SeesValues) (ctx : Context) :
    ∀ cs : List Component,
      (engine.renderEach ctx cs).Silenced
        (engine.renderEach ctx (Component.dropUndefinedAll engine.evaluator ctx cs))
  | [] => .ok []
  | c :: cs => by
    rw [Component.dropUndefinedAll, renderEach, renderEach]
    exact (render_dropUndefined h ctx c).andThen fun output =>
      (renderEach_dropUndefined h ctx cs).andThen fun outputs => .ok (output :: outputs)

end

/-- **A property without a value is like none.** With the built-in renderers, whatever evaluates the
expressions, and catching panics or not, every tree has an output; the tree without the bound
properties and style entries that are undefined, on every component, has the same, and the reports
of the tree but for those of expressions. -/
theorem render_builtins_dropUndefined (evaluator : Evaluator) (catchPanics : Bool) (ctx : Context)
    (c : Component) :
    ∃ output reports,
      render ⟨Registry.builtins, evaluator, catchPanics⟩ ctx c = ⟨.ok output, reports⟩ ∧
      render ⟨Registry.builtins, evaluator, catchPanics⟩ ctx (c.dropUndefined evaluator ctx) =
        ⟨.ok output, reports.filter fun d => d.kind != .expression⟩ := by
  have hsees : (Engine.mk Registry.builtins evaluator catchPanics).registry.SeesValues :=
    Registry.seesValues_builtins
  exact render_dropUndefined hsees ctx c

end Engine

end LivePage
