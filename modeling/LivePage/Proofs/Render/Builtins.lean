import LivePage.Proofs.Render.Preorder

/-!
# What the built-in renderers make of a tree

Where no other renderer is registered, the output of a tree is a function of the tree and the
context: every component of a built-in type is an element of one shape, and every other a marker.

* `tag?`, `attributesOf`, `styleOf`, `contentOf`: the parts of the element of a component.
* `output`: the output of a tree.
* `exists_render_builtins`: rendering returns it, whether panics are caught or not.
-/

namespace LivePage

namespace Engine

/-! ## The element of a component -/

/-- The tag of the element of a component, by its type; other types have no renderer. -/
def tag? : String → Option String
  | "View" => some "div"
  | "Block" => some "span"
  | "Text" => some "span"
  | "Image" => some "img"
  | "Button" => some "button"
  | _ => none

section

variable (evaluator : Evaluator) (ctx : Context)

/-- The attributes of the element of a component. -/
def attributesOf (c : Component) : KeyMap Json :=
  if c.type = "Text" then (input evaluator ctx c).attributes ["content"]
  else if c.type = "Image" then (input evaluator ctx c).imageAttributes
  else if c.type = "Button" then (input evaluator ctx c).buttonAttributes
  else (input evaluator ctx c).attributes []

/-- The style of the element of a component. -/
def styleOf (c : Component) : KeyMap Json :=
  if c.type = "Image" then (input evaluator ctx c).imageStyle
  else (input evaluator ctx c).style.jsonMap

/-- What the element of a component holds before the outputs of its children. -/
def contentOf (c : Component) : List Output :=
  if c.type = "Text" then [.text ((input evaluator ctx c).props.value "content").display]
  else label evaluator ctx c

mutual

/-- The output of a tree with the built-in renderers. -/
def output : Component → Output
  | ⟨id, type, props, style, children⟩ =>
    let c := ⟨id, type, props, style, children⟩
    match tag? type with
    | none => unknownMarker c
    | some tag =>
      .element tag id (attributesOf evaluator ctx c) (styleOf evaluator ctx c)
        (contentOf evaluator ctx c ++ if type ∈ containerTypes then outputAll children else [])

/-- The outputs of a row of trees. -/
def outputAll : List Component → List Output
  | [] => []
  | c :: cs => output c :: outputAll cs

end

end

/-- The types that have a tag are the built-in ones. -/
theorem tag?_cases {type tag : String} (h : tag? type = some tag) :
    (type = "View" ∧ tag = "div") ∨ (type = "Block" ∧ tag = "span") ∨
      (type = "Text" ∧ tag = "span") ∨ (type = "Image" ∧ tag = "img") ∨
      (type = "Button" ∧ tag = "button") := by
  unfold tag? at h
  split at h <;> simp_all

theorem not_mem_builtins_of_tag? {type : String} (h : tag? type = none) :
    type ∉ Registry.builtins.names := by
  have hnames : Registry.builtins.names = ["View", "Block", "Text", "Image", "Button"] := by
    decide
  unfold tag? at h
  split at h <;> simp_all

theorem output_unregistered {c : Component} (h : tag? c.type = none) (evaluator : Evaluator)
    (ctx : Context) :
    output evaluator ctx c = unknownMarker c := by
  cases c
  simp only [output, h]

theorem output_element {c : Component} {tag : String} (h : tag? c.type = some tag)
    (evaluator : Evaluator) (ctx : Context) :
    output evaluator ctx c =
      .element tag c.id (attributesOf evaluator ctx c) (styleOf evaluator ctx c)
        (contentOf evaluator ctx c ++
          if c.type ∈ containerTypes then outputAll evaluator ctx c.children else []) := by
  cases c
  simp only [output, h]

/-! ## Rendering -/

variable {engine : Engine} {ctx : Context} {c : Component}

/-- An element around the outputs of the children. -/
theorem render_renderer_container {tag : String}
    (hg : engine.registry.get? c.type = some (Renderer.container tag)) {outputs : List Output}
    {reports : List Diagnostic} (hs : engine.renderEach ctx c.children = ⟨.ok outputs, reports⟩) :
    engine.render ctx c =
      ⟨.ok (.element tag c.id ((input engine.evaluator ctx c).attributes [])
        (input engine.evaluator ctx c).style.jsonMap outputs),
        propReports engine.evaluator ctx c ++ reports⟩ := by
  rw [← List.nil_append outputs]
  cases c
  exact render_wrap hg (fun _ => Renderer.container_eq _ _) hs

/-- A button around its label and the outputs of the children. -/
theorem render_renderer_button (hg : engine.registry.get? c.type = some Renderer.button)
    {outputs : List Output} {reports : List Diagnostic}
    (hs : engine.renderEach ctx c.children = ⟨.ok outputs, reports⟩) :
    engine.render ctx c =
      ⟨.ok (.element "button" c.id (input engine.evaluator ctx c).buttonAttributes
        (input engine.evaluator ctx c).style.jsonMap
        ((input engine.evaluator ctx c).label ++ outputs)),
        propReports engine.evaluator ctx c ++ reports⟩ := by
  cases c
  exact render_wrap hg (fun _ => Renderer.button_eq _) hs

/-- A component of a built-in type becomes its element. -/
theorem render_element (hr : engine.registry.KeepsBuiltins) {tag : String}
    (ht : tag? c.type = some tag) {outputs : List Output} {reports : List Diagnostic}
    (hs : engine.renderEach ctx c.children = ⟨.ok outputs, reports⟩) :
    ∃ reports, engine.render ctx c =
      ⟨.ok (.element tag c.id (attributesOf engine.evaluator ctx c) (styleOf engine.evaluator ctx c)
        (contentOf engine.evaluator ctx c ++
          if c.type ∈ containerTypes then outputs else [])), reports⟩ := by
  rcases tag?_cases ht with ⟨htype, rfl⟩ | ⟨htype, rfl⟩ | ⟨htype, rfl⟩ | ⟨htype, rfl⟩ |
    ⟨htype, rfl⟩
  · have h := render_renderer_container (hr.get?_eq htype (by decide) rfl) hs
    exact ⟨propReports engine.evaluator ctx c ++ reports, h.trans
      (by simp [attributesOf, styleOf, contentOf, label, containerTypes, htype])⟩
  · have h := render_renderer_container (hr.get?_eq htype (by decide) rfl) hs
    exact ⟨propReports engine.evaluator ctx c ++ reports, h.trans
      (by simp [attributesOf, styleOf, contentOf, label, containerTypes, htype])⟩
  · have h := render_text hr ctx htype
    exact ⟨propReports engine.evaluator ctx c, h.trans
      (by simp [attributesOf, styleOf, contentOf, containerTypes, htype])⟩
  · have h := render_image hr ctx htype
    exact ⟨propReports engine.evaluator ctx c, h.trans
      (by simp [attributesOf, styleOf, contentOf, label, containerTypes, htype])⟩
  · have h := render_renderer_button (hr.get?_eq htype (by decide) rfl) hs
    exact ⟨propReports engine.evaluator ctx c ++ reports, h.trans
      (by simp [attributesOf, styleOf, contentOf, label, containerTypes, htype])⟩

mutual

/-- **What rendering returns**: with the built-in renderers, catching panics or not, every tree has
its output. -/
theorem exists_render_builtins (hr : engine.registry = Registry.builtins) (ctx : Context) :
    ∀ c : Component, ∃ reports, engine.render ctx c = ⟨.ok (output engine.evaluator ctx c), reports⟩
  | ⟨id, type, props, style, children⟩ => by
    cases ht : tag? type with
    | none =>
      have hget : engine.registry.get? type = none := by
        rw [hr]
        exact Registry.get?_eq_none (not_mem_builtins_of_tag? ht)
      rw [output_unregistered ht, render_eq]
      exact ⟨_, visit_unregistered hget⟩
    | some tag =>
      obtain ⟨reports, hs⟩ := exists_renderEach_builtins hr ctx children
      have hkeeps : engine.registry.KeepsBuiltins := hr ▸ Registry.keepsBuiltins_builtins
      rw [output_element ht]
      exact render_element hkeeps ht hs

theorem exists_renderEach_builtins (hr : engine.registry = Registry.builtins) (ctx : Context) :
    ∀ cs : List Component, ∃ reports,
      engine.renderEach ctx cs = ⟨.ok (outputAll engine.evaluator ctx cs), reports⟩
  | [] => ⟨[], rfl⟩
  | c :: cs => by
    obtain ⟨reports, h⟩ := exists_render_builtins hr ctx c
    obtain ⟨more, hs⟩ := exists_renderEach_builtins hr ctx cs
    exact ⟨_, renderEach_cons h hs⟩

end

end Engine

end LivePage
