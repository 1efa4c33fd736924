import LivePage.Proofs.Render.Preorder

/-!
# The order of the reports

Where every renderer that is not built in fails at once, the reports of a rendering are those of the
visited components, each component before its children and each row from first to last.

* `Engine.ownReports`: what is reported of one component, its children left aside.
* `Registry.OthersFailAtOnce`: the registries whose added renderers fail or panic before they have
  any children rendered.
* `Engine.reports_render`: the reports of a tree in preorder, and the markers that go with them.
-/

namespace LivePage

/-! ## Renderers that fail at once -/

/-- Actions that are a failure or a panic from the start. -/
def Action.FailsAtOnce : Action → Prop
  | .done _ => False
  | .fail _ => True
  | .panic _ => True
  | .children _ => False

/-- The renderers under other names than the built-in ones fail or panic at once. -/
def Registry.OthersFailAtOnce (r : Registry) : Prop :=
  ∀ name ∉ builtins.names, ∀ renderer, r.get? name = some renderer →
    ∀ input, (renderer input).FailsAtOnce

namespace Registry

theorem othersFailAtOnce_builtins : builtins.OthersFailAtOnce := by
  intro name hn renderer hget
  rw [get?_eq_none hn] at hget
  cases hget

theorem eq_or_of_get?_register {r : Registry} {name key : String} {renderer found : Renderer}
    (h : (r.register name renderer).get? key = some found) :
    found = renderer ∨ r.get? key = some found := by
  rw [get?_register] at h
  split at h
  · exact .inl (Option.some.inj h).symm
  · exact .inr h

/-- Registering a renderer that fails at once keeps such a registry. -/
theorem OthersFailAtOnce.register {r : Registry} (h : r.OthersFailAtOnce) {renderer : Renderer}
    (hfail : ∀ input, (renderer input).FailsAtOnce) (name : String) :
    (r.register name renderer).OthersFailAtOnce := by
  intro key hkey found hget
  rcases eq_or_of_get?_register hget with rfl | hget
  · exact hfail
  · exact h key hkey found hget

end Registry

namespace Engine

variable {engine : Engine} {ctx : Context} {c : Component}

/-! ## The reports of one component -/

/-- One report for each bound entry of a map whose source has no value, in key order; `place` stands
before the names. -/
def expressionReports (evaluator : Evaluator) (ctx : Context) (id place : String)
    (values : PropMap) : List Diagnostic :=
  values.entries.flatMap fun entry =>
    match entry.2 with
    | .literal _ => []
    | .bound source =>
      match evaluateSource evaluator ctx source with
      | .ok _ => []
      | .error cause =>
        [.ofError id (some (place ++ entry.1)) (.expression (place ++ entry.1) cause)]

/-- The report of a renderer that fails or panics at once. -/
def failureReport (c : Component) : Action → List Diagnostic
  | .fail e => [.ofError c.id none e]
  | .panic p => [.ofError c.id none (.renderer c.type p.message)]
  | .done _ => []
  | .children _ => []

/-- What is reported of one component: that its type is unknown and nothing else, or its properties,
then its style entries and then its renderer, as far as they fail. -/
def ownReports (engine : Engine) (ctx : Context) (c : Component) : List Diagnostic :=
  match engine.registry.get? c.type with
  | none => [.ofError c.id none (.unknownComponent c.type)]
  | some renderer =>
    expressionReports engine.evaluator ctx c.id "" c.props ++
      expressionReports engine.evaluator ctx c.id "style." c.style ++
      failureReport c (renderer (input engine.evaluator ctx c))

theorem map_propReport (evaluator : Evaluator) (ctx : Context) (c : Component) (place : String)
    (values : PropMap) :
    (evaluateProps evaluator ctx values).2.map (propReport c place) =
      expressionReports evaluator ctx c.id place values := by
  unfold evaluateProps expressionReports
  dsimp only
  induction values.entries with
  | nil => rfl
  | cons entry entries ih =>
    obtain ⟨name, value⟩ := entry
    rw [List.flatMap_cons, ← ih]
    cases value with
    | literal j => rfl
    | bound source =>
      cases h : evaluateSource evaluator ctx source with
      | ok v => simp [propFailure?, evaluateProp, h]
      | error cause => simp [propFailure?, evaluateProp, propReport, h]

theorem propReports_eq (evaluator : Evaluator) (ctx : Context) (c : Component) :
    propReports evaluator ctx c =
      expressionReports evaluator ctx c.id "" c.props ++
        expressionReports evaluator ctx c.id "style." c.style := by
  rw [propReports, map_propReport, map_propReport]

theorem ownReports_unregistered (h : engine.registry.get? c.type = none) :
    engine.ownReports ctx c = [.ofError c.id none (.unknownComponent c.type)] := by
  rw [ownReports, h]

theorem ownReports_registered {renderer : Renderer}
    (h : engine.registry.get? c.type = some renderer) (ctx : Context) :
    engine.ownReports ctx c = propReports engine.evaluator ctx c ++
      failureReport c (renderer (input engine.evaluator ctx c)) := by
  rw [ownReports, h, propReports_eq]

/-! ## Reports of whole components -/

/-- The ids of the components that are reported as a whole. -/
def wholeIds (reports : List Diagnostic) : List String :=
  (reports.filter fun d => d.prop.isNone).map Diagnostic.nodeId

theorem wholeIds_append (reports more : List Diagnostic) :
    wholeIds (reports ++ more) = wholeIds reports ++ wholeIds more := by
  simp [wholeIds]

theorem wholeIds_ofError (id : String) (e : RenderError) :
    wholeIds [.ofError id none e] = [id] := rfl

/-- A report on a property does not concern its component as a whole. -/
theorem wholeIds_propReports (evaluator : Evaluator) (ctx : Context) (c : Component) :
    wholeIds (propReports evaluator ctx c) = [] := by
  simp [wholeIds, propReports, propReport, Diagnostic.ofError]

/-! ## Sequences of components -/

variable {reports : List Diagnostic}

/-- The reports are those of the components of a sequence, and the markers stand for the components
that are reported as a whole. -/
structure Reported (engine : Engine) (ctx : Context) (cs : List Component)
    (reports : List Diagnostic) (markers : List Output) : Prop where
  reports_eq : reports = cs.flatMap (engine.ownReports ctx)
  markers_eq : markers.map Output.nodeId? = (wholeIds reports).map some

namespace Reported

variable {cs cs' : List Component} {reports' : List Diagnostic} {markers markers' : List Output}

theorem nil : Reported engine ctx [] [] [] := ⟨rfl, rfl⟩

theorem append (h : Reported engine ctx cs reports markers)
    (h' : Reported engine ctx cs' reports' markers') :
    Reported engine ctx (cs ++ cs') (reports ++ reports') (markers ++ markers') where
  reports_eq := by rw [h.reports_eq, h'.reports_eq, List.flatMap_append]
  markers_eq := by
    rw [List.map_append, h.markers_eq, h'.markers_eq, wholeIds_append, List.map_append]

end Reported

/-- A component whose renderer returns an output of its own without markers. -/
theorem reported_returns {renderer : Renderer} (h : engine.registry.get? c.type = some renderer)
    (hreturns : failureReport c (renderer (input engine.evaluator ctx c)) = []) :
    Reported engine ctx [c] (propReports engine.evaluator ctx c) [] where
  reports_eq := by simp [ownReports_registered h, hreturns]
  markers_eq := by rw [wholeIds_propReports]; rfl

/-- A component whose renderer fails at once leaves a marker. -/
theorem reported_fails {renderer : Renderer} (h : engine.registry.get? c.type = some renderer)
    {e : RenderError}
    (hfails : failureReport c (renderer (input engine.evaluator ctx c)) =
      [.ofError c.id none e]) :
    Reported engine ctx [c] (propReports engine.evaluator ctx c ++ [.ofError c.id none e])
      [errorMarker c e] where
  reports_eq := by simp [ownReports_registered h, hfails]
  markers_eq := by rw [wholeIds_append, wholeIds_propReports, wholeIds_ofError]; rfl

/-! ## Trees and rows of trees -/

theorem markersAll_append (os os' : List Output) :
    Output.markersAll (os ++ os') = Output.markersAll os ++ Output.markersAll os' := by
  induction os with
  | nil => rfl
  | cons o os ih =>
    rw [List.cons_append, Output.markersAll, Output.markersAll, ih, List.append_assoc]

theorem markersAll_label (evaluator : Evaluator) (ctx : Context) (c : Component) :
    Output.markersAll (label evaluator ctx c) = [] := by
  unfold label RenderInput.label
  split
  · split <;> simp [Output.markers, Output.markersAll]
  · rfl

/-- The renderer of a container does not fail at once. -/
theorem exists_renderer_container (hr : engine.registry.KeepsBuiltins)
    (ht : c.type ∈ containerTypes) :
    ∃ renderer, engine.registry.get? c.type = some renderer ∧
      ∀ i, failureReport c (renderer i) = [] := by
  simp only [containerTypes, List.mem_cons, List.not_mem_nil, or_false] at ht
  rcases ht with ht | ht | ht
  · exact ⟨Renderer.container "div", hr.get?_eq ht (by decide) rfl, fun _ => rfl⟩
  · exact ⟨Renderer.container "span", hr.get?_eq ht (by decide) rfl, fun _ => rfl⟩
  · refine ⟨Renderer.button, hr.get?_eq ht (by decide) rfl, fun i => ?_⟩
    rw [Renderer.button_eq]
    rfl

theorem not_mem_builtins_names {type : String} (ht : type ∉ containerTypes)
    (htext : type ≠ "Text") (himage : type ≠ "Image") : type ∉ Registry.builtins.names := by
  have hnames : Registry.builtins.names = ["View", "Block", "Text", "Image", "Button"] := by
    decide
  simp only [containerTypes, List.mem_cons, List.not_mem_nil, or_false, not_or] at ht
  simp [hnames, htext, himage, ht]

/-- A component that is no container reports only of itself. -/
theorem render_leaf_reported (hcatch : engine.catchPanics = true)
    (hr : engine.registry.KeepsBuiltins) (hfail : engine.registry.OthersFailAtOnce)
    (ctx : Context) (ht : c.type ∉ containerTypes) :
    ∃ o reports, engine.render ctx c = ⟨.ok o, reports⟩ ∧
      Reported engine ctx [c] reports o.markers := by
  by_cases htext : c.type = "Text"
  · have hget : engine.registry.get? c.type = some Renderer.text :=
      hr.get?_eq htext (by decide) rfl
    refine ⟨_, _, render_text hr ctx htext, ?_⟩
    simpa [Output.markers, Output.markersAll] using reported_returns hget rfl
  by_cases himage : c.type = "Image"
  · have hget : engine.registry.get? c.type = some Renderer.image :=
      hr.get?_eq himage (by decide) rfl
    have hreturns : failureReport c (Renderer.image (input engine.evaluator ctx c)) = [] := by
      rw [Renderer.image_eq]
      rfl
    refine ⟨_, _, render_image hr ctx himage, ?_⟩
    simpa [Output.markers, Output.markersAll] using reported_returns hget hreturns
  have hother := not_mem_builtins_names ht htext himage
  rw [render_eq]
  cases hget : engine.registry.get? c.type with
  | none =>
    refine ⟨_, _, visit_unregistered hget, ?_, ?_⟩
    · simp [ownReports_unregistered hget]
    · simp [unknownMarker, Output.markers, Output.nodeId?, wholeIds_ofError]
  | some renderer =>
    have hatOnce := hfail _ hother _ hget (input engine.evaluator ctx c)
    cases haction : renderer (input engine.evaluator ctx c) with
    | done output | children next =>
      rw [haction] at hatOnce
      exact hatOnce.elim
    | fail e =>
      have hrun : (renderer (input engine.evaluator ctx c)).run (engine.renderEach ctx c.children) =
          ⟨.ok (.error e), []⟩ := by
        rw [haction]
        rfl
      refine ⟨_, _, visit_fail hget hrun, ?_⟩
      simpa [errorMarker, Output.markers] using reported_fails hget (by rw [haction]; rfl)
    | panic p =>
      have hrun : (renderer (input engine.evaluator ctx c)).run (engine.renderEach ctx c.children) =
          ⟨.error p, []⟩ := by
        rw [haction]
        rfl
      refine ⟨_, _, visit_panic hcatch hget hrun, ?_⟩
      simpa [errorMarker, Output.markers] using reported_fails hget (by rw [haction]; rfl)

mutual

/-- The reports of a tree are those of its visited components. -/
theorem reported_render (hcatch : engine.catchPanics = true)
    (hr : engine.registry.KeepsBuiltins) (hfail : engine.registry.OthersFailAtOnce)
    (ctx : Context) : ∀ c : Component, ∃ o reports, engine.render ctx c = ⟨.ok o, reports⟩ ∧
      Reported engine ctx c.visited reports o.markers
  | ⟨id, type, props, style, children⟩ => by
    by_cases ht : type ∈ containerTypes
    · obtain ⟨outputs, reports, hs, hrow⟩ := reported_renderEach hcatch hr hfail ctx children
      obtain ⟨tag, attrs, style', hwrap⟩ :=
        render_container hr ctx (c := ⟨id, type, props, style, children⟩) ht
      obtain ⟨renderer, hget, hreturns⟩ :=
        exists_renderer_container hr (c := ⟨id, type, props, style, children⟩) ht
      refine ⟨_, _, hwrap children outputs reports hs, ?_⟩
      rw [Component.visited_container ht, Output.markers, markersAll_append, markersAll_label]
      exact (reported_returns hget (hreturns _)).append hrow
    · rw [Component.visited_leaf ht]
      exact render_leaf_reported hcatch hr hfail ctx ht

theorem reported_renderEach (hcatch : engine.catchPanics = true)
    (hr : engine.registry.KeepsBuiltins) (hfail : engine.registry.OthersFailAtOnce)
    (ctx : Context) : ∀ cs : List Component,
    ∃ os reports, engine.renderEach ctx cs = ⟨.ok os, reports⟩ ∧
      Reported engine ctx (Component.visitedAll cs) reports (Output.markersAll os)
  | [] => ⟨[], [], rfl, .nil⟩
  | c :: cs => by
    obtain ⟨o, reports, h, hone⟩ := reported_render hcatch hr hfail ctx c
    obtain ⟨os, restReports, hs, hrow⟩ := reported_renderEach hcatch hr hfail ctx cs
    refine ⟨_, _, renderEach_cons h hs, ?_⟩
    rw [Output.markersAll, Component.visitedAll]
    exact hone.append hrow

end

/-- **The reports are exactly the failures.** They are what is reported of each visited component,
one component after the other in preorder; and the markers of the output stand, in the same order,
for the components that are reported as a whole. -/
theorem reports_render (hcatch : engine.catchPanics = true) (hr : engine.registry.KeepsBuiltins)
    (hfail : engine.registry.OthersFailAtOnce) (ctx : Context) (c : Component) :
    ∃ o reports, engine.render ctx c = ⟨.ok o, reports⟩ ∧
      reports = c.visited.flatMap (engine.ownReports ctx) ∧
      o.markers.map Output.nodeId? =
        (reports.filter fun d => d.prop.isNone).map fun d => some d.nodeId := by
  obtain ⟨o, reports, h, hreported⟩ := reported_render hcatch hr hfail ctx c
  refine ⟨o, reports, h, hreported.reports_eq, ?_⟩
  rw [hreported.markers_eq, wholeIds, List.map_map]
  rfl

/-- A page on which a component panics, one is of an unknown type, and a property and a style entry
have no value. -/
def brokenPage : Component :=
  ((Component.new "page" "Button").bindProp "content" "gone").withChildren
    [((Component.new "siren" "Siren").bindProp "volume" "1 +").withChild (.new "lost" "Text"),
      ((Component.new "note" "Text").bindStyle "color" "$\x7b").bindProp "content" "'x'",
      (Component.new "page" "Gone").bindProp "content" "gone"]

/-- A renderer that panics. -/
def siren : Renderer := fun _ => .panic (.text "siren")

theorem siren_failsAtOnce (input : RenderInput) : (siren input).FailsAtOnce := trivial

theorem reports_render_brokenPage :
    ∃ o reports,
      render ⟨Registry.builtins.register "Siren" siren, .path, true⟩ .empty brokenPage =
        ⟨.ok o, reports⟩ ∧
      reports = brokenPage.visited.flatMap
        (ownReports ⟨Registry.builtins.register "Siren" siren, .path, true⟩ .empty) ∧
      o.markers.map Output.nodeId? =
        (reports.filter fun d => d.prop.isNone).map fun d => some d.nodeId :=
  @reports_render ⟨Registry.builtins.register "Siren" siren, .path, true⟩ rfl
    (Registry.keepsBuiltins_builtins.register (by decide) _)
    (Registry.othersFailAtOnce_builtins.register siren_failsAtOnce _) .empty brokenPage

end Engine

end LivePage
