import LivePage.Proofs.Render.Visit

/-!
# The order of the output

Where every renderer that is not built in fails, the elements and markers of the output, in
preorder, are the renderings of the components that are visited, in preorder: none is lost, comes
twice or changes its place.

* `Component.visited`: the components of a tree whose rendering is part of the tree's.
* `Output.standIns`: the elements and markers of an output, among which `find?` finds
  (`find?_eq_find?_standIns`).
* `Registry.OthersFail`: the registries whose added renderers never return an output.
* `Engine.nodeIds_render`: the two sequences agree.
-/

namespace LivePage

/-! ## Two traversals -/

namespace Component

mutual

/-- The root and, below a container that is visited, the visited components of its children, in
preorder. -/
def visited : Component → List Component
  | ⟨id, type, props, style, children⟩ =>
    ⟨id, type, props, style, children⟩ ::
      if type ∈ Engine.containerTypes then visitedAll children else []

/-- The visited components of a row of trees, all of which are rendered. -/
def visitedAll : List Component → List Component
  | [] => []
  | c :: cs => c.visited ++ visitedAll cs

end

theorem visited_container {c : Component} (h : c.type ∈ Engine.containerTypes) :
    c.visited = c :: visitedAll c.children := by
  cases c
  rw [visited, if_pos h]

theorem visited_leaf {c : Component} (h : c.type ∉ Engine.containerTypes) : c.visited = [c] := by
  cases c
  rw [visited, if_neg h]

end Component

namespace Output

mutual

/-- The elements and markers of a tree in preorder. -/
def standIns : Output → List Output
  | .element tag id attrs style children =>
    .element tag id attrs style children :: standInsAll children
  | .fragment children => standInsAll children
  | .marker kind id message => [.marker kind id message]
  | .text _ => []
  | .empty => []

/-- The elements and markers of a row of trees in preorder. -/
def standInsAll : List Output → List Output
  | [] => []
  | o :: os => o.standIns ++ standInsAll os

end

theorem standInsAll_append (os os' : List Output) :
    standInsAll (os ++ os') = standInsAll os ++ standInsAll os' := by
  induction os with
  | nil => rfl
  | cons o os ih => rw [List.cons_append, standInsAll, standInsAll, ih, List.append_assoc]

mutual

/-- An id is looked for among the elements and markers, the first in preorder first. -/
theorem find?_eq_find?_standIns (id : String) :
    ∀ o : Output, o.find? id = o.standIns.find? fun s => s.nodeId? == some id
  | .element tag eid attrs style children => by
    rw [find?, standIns]
    by_cases h : eid = id
    · rw [if_pos h, List.find?_cons_of_pos (by simp [nodeId?, h])]
    · rw [if_neg h, List.find?_cons_of_neg (by simp [nodeId?, h]),
        findAmong?_eq_find?_standInsAll id children]
  | .fragment children => by
    rw [find?, standIns, findAmong?_eq_find?_standInsAll id children]
  | .marker kind mid message => by
    rw [find?, standIns]
    by_cases h : mid = id
    · rw [if_pos h, List.find?_cons_of_pos (by simp [nodeId?, h])]
    · rw [if_neg h, List.find?_cons_of_neg (by simp [nodeId?, h]), List.find?_nil]
  | .text _ => rfl
  | .empty => rfl

theorem findAmong?_eq_find?_standInsAll (id : String) :
    ∀ os : List Output, findAmong? id os = (standInsAll os).find? fun s => s.nodeId? == some id
  | [] => rfl
  | o :: os => by
    rw [findAmong?, standInsAll, List.find?_append, find?_eq_find?_standIns id o,
      findAmong?_eq_find?_standInsAll id os]

end

end Output

/-! ## Renderers that never return an output -/

/-- Actions that end in a failure or a panic, whatever the children render to. -/
def Action.Fails : Action → Prop
  | .done _ => False
  | .fail _ => True
  | .panic _ => True
  | .children next => ∀ outputs, (next outputs).Fails

/-- Such actions are carried out to a panic or a failure. -/
theorem Action.Fails.run {a : Action} (h : a.Fails) (rendered : Pass (List Output)) :
    (∃ p reports, a.run rendered = ⟨.error p, reports⟩) ∨
      ∃ e reports, a.run rendered = ⟨.ok (.error e), reports⟩ := by
  induction a with
  | done output => exact h.elim
  | fail e => exact .inr ⟨e, [], rfl⟩
  | panic p => exact .inl ⟨p, [], rfl⟩
  | children next ih =>
    obtain ⟨outcome, reports⟩ := rendered
    cases outcome with
    | error p => exact .inl ⟨p, reports, rfl⟩
    | ok outputs =>
      rcases ih outputs (h outputs) with ⟨p, more, hrun⟩ | ⟨e, more, hrun⟩
      · refine .inl ⟨p, reports ++ more, ?_⟩
        simp only [Action.run, Pass.andThen, hrun]
      · refine .inr ⟨e, reports ++ more, ?_⟩
        simp only [Action.run, Pass.andThen, hrun]

/-- The renderers under other names than the built-in ones never return an output. -/
def Registry.OthersFail (r : Registry) : Prop :=
  ∀ name ∉ builtins.names, ∀ renderer, r.get? name = some renderer →
    ∀ input, (renderer input).Fails

namespace Registry

theorem get?_eq_none {r : Registry} {name : String} (h : name ∉ r.names) : r.get? name = none := by
  unfold get? Keyed.get?
  rw [Option.map_eq_none_iff, List.find?_eq_none]
  intro entry he
  have hne : entry.1 ≠ name := by
    rintro rfl
    exact h (List.mem_map_of_mem he)
  simpa using hne

theorem othersFail_builtins : builtins.OthersFail := by
  intro name hn renderer hget
  rw [get?_eq_none hn] at hget
  cases hget

/-- Registering a renderer that never returns an output keeps such a registry. -/
theorem OthersFail.register {r : Registry} (h : r.OthersFail) {renderer : Renderer}
    (hfail : ∀ input, (renderer input).Fails) (name : String) :
    (r.register name renderer).OthersFail := by
  intro key hkey found hget
  rw [get?_register] at hget
  by_cases hk : name = key
  · rw [if_pos hk] at hget
    obtain rfl : renderer = found := by simpa using hget
    exact hfail
  · rw [if_neg hk] at hget
    exact h key hkey found hget

end Registry

namespace Engine

variable {engine : Engine} {ctx : Context}

/-- The output of a component that is no container is the only element or marker in it. -/
theorem render_leaf (hcatch : engine.catchPanics = true) (hr : engine.registry.KeepsBuiltins)
    (hfail : engine.registry.OthersFail) (ctx : Context) {c : Component}
    (ht : c.type ∉ containerTypes) :
    ∃ o reports, engine.render ctx c = ⟨.ok o, reports⟩ ∧ o.nodeId? = some c.id ∧
      o.standIns = [o] := by
  -- the two built-in leaves give elements; whatever else there is gives a marker
  by_cases htext : c.type = "Text"
  · exact ⟨_, _, render_text hr ctx htext, rfl, by simp [Output.standIns, Output.standInsAll]⟩
  by_cases himage : c.type = "Image"
  · exact ⟨_, _, render_image hr ctx himage, rfl, by simp [Output.standIns, Output.standInsAll]⟩
  have hother : c.type ∉ Registry.builtins.names := by
    have hnames : Registry.builtins.names = ["View", "Block", "Text", "Image", "Button"] := by
      decide
    simp only [containerTypes, List.mem_cons, List.not_mem_nil, or_false, not_or] at ht
    simp [hnames, htext, himage, ht]
  rw [render_eq]
  cases hget : engine.registry.get? c.type with
  | none => exact ⟨_, _, visit_unregistered hget, rfl, by simp [unknownMarker, Output.standIns]⟩
  | some renderer =>
    have hrun := (hfail _ hother _ hget (input engine.evaluator ctx c)).run
      (engine.renderEach ctx c.children)
    rcases hrun with ⟨p, reports, hrun⟩ | ⟨e, reports, hrun⟩
    · exact ⟨_, _, visit_panic hcatch hget hrun, rfl, by simp [errorMarker, Output.standIns]⟩
    · exact ⟨_, _, visit_fail hget hrun, rfl, by simp [errorMarker, Output.standIns]⟩

theorem standInsAll_label (evaluator : Evaluator) (ctx : Context) (c : Component) :
    Output.standInsAll (label evaluator ctx c) = [] := by
  unfold label RenderInput.label
  split
  · split <;> simp [Output.standIns, Output.standInsAll]
  · rfl

/-! ## The output in preorder -/

/-- The outputs of a sequence of components, each of which carries the id of its component. -/
inductive Renderings (engine : Engine) (ctx : Context) : List Component → List Output → Prop
  | nil : Renderings engine ctx [] []
  | cons {c : Component} {o : Output} {reports : List Diagnostic} {cs : List Component}
      {os : List Output} (render_eq : engine.render ctx c = ⟨.ok o, reports⟩)
      (id_eq : o.nodeId? = some c.id) (rest : Renderings engine ctx cs os) :
      Renderings engine ctx (c :: cs) (o :: os)

namespace Renderings

variable {cs cs' : List Component} {os os' : List Output}

theorem append (h : Renderings engine ctx cs os) (h' : Renderings engine ctx cs' os') :
    Renderings engine ctx (cs ++ cs') (os ++ os') := by
  induction h with
  | nil => exact h'
  | cons render_eq id_eq _ ih => exact .cons render_eq id_eq ih

theorem nodeIds (h : Renderings engine ctx cs os) :
    os.filterMap Output.nodeId? = cs.map Component.id := by
  induction h with
  | nil => rfl
  | cons _ id_eq _ ih => rw [List.filterMap_cons_some id_eq, List.map_cons, ih]

/-- The first output with an id is the output of the first component with the id. -/
theorem find?_eq_some {id : String} {c : Component} (h : Renderings engine ctx cs os)
    (hc : cs.find? (fun c => c.id == id) = some c) :
    ∃ o reports, engine.render ctx c = ⟨.ok o, reports⟩ ∧
      os.find? (fun o => o.nodeId? == some id) = some o := by
  induction h with
  | nil => simp at hc
  | @cons d o reports cs os render_eq id_eq _ ih =>
    by_cases hd : d.id = id
    · rw [List.find?_cons_of_pos (by simp [hd])] at hc
      obtain rfl : d = c := by simpa using hc
      exact ⟨o, reports, render_eq, List.find?_cons_of_pos (by simp [id_eq, hd])⟩
    · rw [List.find?_cons_of_neg (by simp [hd])] at hc
      rw [List.find?_cons_of_neg (by simp [id_eq, hd])]
      exact ih hc

/-- Every output with an id is the output of a component with the id. -/
theorem find?_eq_none {id : String} (h : Renderings engine ctx cs os)
    (hc : ∀ c ∈ cs, c.id ≠ id) : os.find? (fun o => o.nodeId? == some id) = none := by
  induction h with
  | nil => rfl
  | cons _ id_eq _ ih =>
    obtain ⟨hd, hcs⟩ := List.forall_mem_cons.mp hc
    rw [List.find?_cons_of_neg (by simp [id_eq, hd])]
    exact ih hcs

end Renderings

mutual

/-- The elements and markers of the output of a tree are the outputs of its visited components. -/
theorem renderings_render (hcatch : engine.catchPanics = true)
    (hr : engine.registry.KeepsBuiltins) (hfail : engine.registry.OthersFail) (ctx : Context) :
    ∀ c : Component, ∃ o reports, engine.render ctx c = ⟨.ok o, reports⟩ ∧
      Renderings engine ctx c.visited o.standIns
  | ⟨id, type, props, style, children⟩ => by
    by_cases ht : type ∈ containerTypes
    · obtain ⟨outputs, reports, hs, hrow⟩ := renderings_renderEach hcatch hr hfail ctx children
      obtain ⟨tag, attrs, style', hwrap⟩ :=
        render_container hr ctx (c := ⟨id, type, props, style, children⟩) ht
      have h := hwrap children outputs reports hs
      refine ⟨_, _, h, ?_⟩
      rw [Component.visited_container ht, Output.standIns, Output.standInsAll_append,
        standInsAll_label, List.nil_append]
      exact .cons h rfl hrow
    · obtain ⟨o, reports, h, hid, hone⟩ :=
        render_leaf hcatch hr hfail ctx (c := ⟨id, type, props, style, children⟩) ht
      refine ⟨o, reports, h, ?_⟩
      rw [Component.visited_leaf ht, hone]
      exact .cons h hid .nil

theorem renderings_renderEach (hcatch : engine.catchPanics = true)
    (hr : engine.registry.KeepsBuiltins) (hfail : engine.registry.OthersFail) (ctx : Context) :
    ∀ cs : List Component, ∃ os reports, engine.renderEach ctx cs = ⟨.ok os, reports⟩ ∧
      Renderings engine ctx (Component.visitedAll cs) (Output.standInsAll os)
  | [] => ⟨[], [], rfl, .nil⟩
  | c :: cs => by
    obtain ⟨o, reports, h, hone⟩ := renderings_render hcatch hr hfail ctx c
    obtain ⟨os, restReports, hs, hrow⟩ := renderings_renderEach hcatch hr hfail ctx cs
    refine ⟨_, _, renderEach_cons h hs, ?_⟩
    rw [Output.standInsAll, Component.visitedAll]
    exact hone.append hrow

end

/-- **Nothing is lost, doubled or moved.** The ids of the elements and markers of the output in
preorder are those of the visited components in preorder; so what is found under an id is the output
of the first visited component that has it, and nothing if none has it. -/
theorem nodeIds_render (hcatch : engine.catchPanics = true) (hr : engine.registry.KeepsBuiltins)
    (hfail : engine.registry.OthersFail) (ctx : Context) (c : Component) :
    ∃ o reports, engine.render ctx c = ⟨.ok o, reports⟩ ∧
      o.standIns.filterMap Output.nodeId? = c.visited.map Component.id ∧
      (∀ id d, c.visited.find? (fun d => d.id == id) = some d →
        ∃ found more, engine.render ctx d = ⟨.ok found, more⟩ ∧ o.find? id = some found) ∧
      ∀ id, (∀ d ∈ c.visited, d.id ≠ id) → o.find? id = none := by
  obtain ⟨o, reports, h, hrow⟩ := renderings_render hcatch hr hfail ctx c
  refine ⟨o, reports, h, hrow.nodeIds, ?_, ?_⟩
  · intro id d hd
    rw [Output.find?_eq_find?_standIns]
    exact hrow.find?_eq_some hd
  · intro id hnone
    rw [Output.find?_eq_find?_standIns]
    exact hrow.find?_eq_none hnone

/-- A renderer that has the children rendered and then panics. -/
def lateAlarm : Renderer := fun _ => .children fun _ => .panic (.text "late")

theorem lateAlarm_fails (input : RenderInput) : (lateAlarm input).Fails := fun _ => trivial

/-- A page with a component that panics, one of an unknown type and an id that comes twice. -/
def alarmPage : Component :=
  (Component.new "page" "View").withChildren
    [(Component.new "alarm" "Alarm").withChild (.new "lost" "Text"),
      (Component.new "page" "Button").withChild (.new "gone" "Gone")]

theorem nodeIds_render_alarmPage :
    ∃ o reports,
      render ⟨Registry.builtins.register "Alarm" lateAlarm, .path, true⟩ .empty alarmPage =
        ⟨.ok o, reports⟩ ∧
      o.standIns.filterMap Output.nodeId? = alarmPage.visited.map Component.id ∧
      (∀ id d, alarmPage.visited.find? (fun d => d.id == id) = some d →
        ∃ found more,
          render ⟨Registry.builtins.register "Alarm" lateAlarm, .path, true⟩ .empty d =
            ⟨.ok found, more⟩ ∧
          o.find? id = some found) ∧
      ∀ id, (∀ d ∈ alarmPage.visited, d.id ≠ id) → o.find? id = none :=
  @nodeIds_render ⟨Registry.builtins.register "Alarm" lateAlarm, .path, true⟩ rfl
    (Registry.keepsBuiltins_builtins.register (by decide) _)
    (Registry.othersFail_builtins.register lateAlarm_fails _) .empty alarmPage

end Engine

end LivePage
