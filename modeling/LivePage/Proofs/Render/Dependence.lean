import LivePage.Proofs.Expr.Dependence
import LivePage.Proofs.Render.Visit

/-!
# On which names a rendering depends

A rendering with path expressions sees a context through the sources of the tree alone, as long as
no renderer looks at the context itself; the built-in ones do not.

* `Component.mentions`: the names that the bound properties and style entries of a tree mention.
* `Registry.IgnoresContext`: the registries whose renderers do not look at the context.
* `Engine.render_agree`: with such a registry, contexts that agree on the mentioned names and on the
  reserved words give the same output and the same reports.
* `Engine.render_builtins_agree`: so it is with the built-in registry, and so a context may be
  replaced by the one layer of its visible bindings.
-/

namespace LivePage

open Context

/-! ## The names that a tree mentions -/

/-- The names that the bound entries of a map mention. -/
def PropMap.mentions (values : PropMap) : List String :=
  values.entries.flatMap fun entry =>
    match entry.2 with
    | .literal _ => []
    | .bound source => sourceMentions source

mutual

/-- The names that the bound properties and style entries of a tree mention. -/
def Component.mentions : Component → List String
  | ⟨_, _, props, style, children⟩ =>
    PropMap.mentions props ++ PropMap.mentions style ++ mentionsAll children

/-- The names that a row of trees mentions. -/
def Component.mentionsAll : List Component → List String
  | [] => []
  | c :: cs => c.mentions ++ mentionsAll cs

end

/-! ## Renderers that do not look at the context -/

/-- A renderer does the same in every context, given the same values. -/
def Renderer.IgnoresContext (renderer : Renderer) : Prop :=
  ∀ input ctx, renderer { input with context := ctx } = renderer input

/-- No renderer of the registry looks at the context. -/
def Registry.IgnoresContext (r : Registry) : Prop :=
  ∀ name renderer, r.get? name = some renderer → renderer.IgnoresContext

theorem Registry.ignoresContext_empty : Registry.empty.IgnoresContext := by
  intro name renderer hget
  cases hget

theorem Registry.IgnoresContext.register {r : Registry} (h : r.IgnoresContext) (name : String)
    {renderer : Renderer} (hrenderer : renderer.IgnoresContext) :
    (r.register name renderer).IgnoresContext := by
  intro key found hget
  rw [get?_register] at hget
  split at hget
  · cases hget
    exact hrenderer
  · exact h key found hget

theorem Registry.ignoresContext_builtins : builtins.IgnoresContext :=
  ((((ignoresContext_empty.register "View" fun _ _ => rfl).register
    "Block" fun _ _ => rfl).register
    "Text" fun _ _ => rfl).register
    "Image" fun _ _ => rfl).register
    "Button" fun _ _ => rfl

namespace Engine

variable {engine : Engine} {ctx ctx' : Context}

/-! ## One component -/

/-- The values and the failures of properties depend on the names that they mention. -/
theorem evaluateProps_congr {values : PropMap} (h : AgreeOn values.mentions ctx ctx')
    (hreserved : AgreeOn Names.reserved ctx ctx') :
    evaluateProps .path ctx values = evaluateProps .path ctx' values := by
  have hentry : ∀ entry ∈ values.entries,
      evaluateProp .path ctx entry.2 = evaluateProp .path ctx' entry.2 := by
    intro entry hmem
    cases hvalue : entry.2 with
    | literal j => rfl
    | bound source =>
      refine evaluateSource_congr (h.mono fun name hname => ?_) hreserved
      exact List.mem_flatMap.mpr ⟨entry, hmem, by rw [hvalue]; exact hname⟩
  unfold evaluateProps
  refine Prod.ext (KeyMap.eq_of_entries ?_) ?_
  · refine List.map_congr_left fun entry hmem => ?_
    rw [propValueOrUndefined, propValueOrUndefined, hentry entry hmem]
  · refine List.filterMap_congr fun entry hmem => ?_
    rw [propFailure?, propFailure?, hentry entry hmem]

/-- Where properties and style have the same values and failures, a component does the same. -/
theorem visit_congr (hr : engine.registry.IgnoresContext) {c : Component}
    (hprops : evaluateProps engine.evaluator ctx c.props =
      evaluateProps engine.evaluator ctx' c.props)
    (hstyle : evaluateProps engine.evaluator ctx c.style =
      evaluateProps engine.evaluator ctx' c.style)
    (rendered : Pass (List Output)) :
    engine.visit ctx c rendered = engine.visit ctx' c rendered := by
  cases hget : engine.registry.get? c.type with
  | none => rw [visit_unregistered hget, visit_unregistered hget]
  | some renderer =>
    have hreports : propReports engine.evaluator ctx c = propReports engine.evaluator ctx' c := by
      rw [propReports, propReports, hprops, hstyle]
    have hinput : input engine.evaluator ctx c =
        { input engine.evaluator ctx' c with context := ctx } := by
      rw [input, input, hprops, hstyle]
    have hactions : renderer (input engine.evaluator ctx c) =
        renderer (input engine.evaluator ctx' c) := by
      rw [hinput]
      exact hr _ _ hget _ _
    rw [visit_registered hget, visit_registered hget, hreports, hactions]

/-! ## Trees and rows of trees -/

mutual

/-- Contexts that agree on the names that a tree mentions render it alike. -/
theorem render_agree (hpath : engine.evaluator = .path) (hr : engine.registry.IgnoresContext)
    (hreserved : AgreeOn Names.reserved ctx ctx') :
    ∀ c : Component, AgreeOn c.mentions ctx ctx' → engine.render ctx c = engine.render ctx' c
  | ⟨id, type, props, style, children⟩, h => by
    obtain ⟨hown, hchildren⟩ := agreeOn_append.mp h
    obtain ⟨hprops, hstyle⟩ := agreeOn_append.mp hown
    rw [render, render, renderEach_agree hpath hr hreserved children hchildren]
    refine visit_congr hr ?_ ?_ _
    · rw [hpath]
      exact evaluateProps_congr hprops hreserved
    · rw [hpath]
      exact evaluateProps_congr hstyle hreserved

theorem renderEach_agree (hpath : engine.evaluator = .path)
    (hr : engine.registry.IgnoresContext) (hreserved : AgreeOn Names.reserved ctx ctx') :
    ∀ cs : List Component, AgreeOn (Component.mentionsAll cs) ctx ctx' →
      engine.renderEach ctx cs = engine.renderEach ctx' cs
  | [], _ => rfl
  | c :: cs, h => by
    obtain ⟨hc, hcs⟩ := agreeOn_append.mp h
    rw [renderEach, renderEach, render_agree hpath hr hreserved c hc,
      renderEach_agree hpath hr hreserved cs hcs]

end

/-- The one layer of its visible bindings looks like the context itself. -/
theorem lookup_child_flatten (ctx : Context) (name : String) :
    (Context.empty.child ctx.flatten.entries).lookup name = ctx.lookup name := by
  rw [lookup_child, KeyMap.ofList_eq_of_ascending ctx.flatten.ascending, lookup_empty,
    Option.or_none]
  exact get?_flatten ctx name

/-- **A rendering depends on the mentioned names only.** With the built-in renderers and path
expressions, two contexts in which the names that the tree mentions and the reserved words stand for
the same give the same output and the same reports. So does the context whose one layer are the
visible bindings of another. -/
theorem render_builtins_agree (catchPanics : Bool) (tree : Component) :
    (∀ ctx ctx' : Context,
      (∀ name, name ∈ tree.mentions ∨ name ∈ Names.reserved →
        ctx.lookup name = ctx'.lookup name) →
      render ⟨Registry.builtins, .path, catchPanics⟩ ctx tree =
        render ⟨Registry.builtins, .path, catchPanics⟩ ctx' tree) ∧
    ∀ ctx : Context,
      render ⟨Registry.builtins, .path, catchPanics⟩ ctx tree =
        render ⟨Registry.builtins, .path, catchPanics⟩
          (Context.empty.child ctx.flatten.entries) tree := by
  have hagree (ctx ctx' : Context) (h : ∀ name, name ∈ tree.mentions ∨ name ∈ Names.reserved →
      ctx.lookup name = ctx'.lookup name) :
      render ⟨Registry.builtins, .path, catchPanics⟩ ctx tree =
        render ⟨Registry.builtins, .path, catchPanics⟩ ctx' tree :=
    render_agree rfl Registry.ignoresContext_builtins (fun name hname => h name (.inr hname)) tree
      fun name hname => h name (.inl hname)
  exact ⟨hagree, fun ctx => hagree _ _ fun name _ => (lookup_child_flatten ctx name).symm⟩

/-- A page that greets a user, in a colour that hangs on a source. -/
def greetingPage : Component :=
  (Component.new "page" "View").withChild
    (((Component.new "hello" "Text").bindProp "content" "Hello, $\x7buser.name\x7d!").bindStyle
      "color" "night ? 'white' : ink")

/-- Three layers, of which the inner ones hide a name of the outermost. -/
def layeredContext : Context :=
  ((Context.empty.child [("user", .error "timeout"), ("ink", .value (.str "navy"))]).withBinding
    "night" .pending).withValue "user" (.obj [("name", .str "Ada")])

/-- One layer with the same bindings and one more. -/
def crowdedContext : Context :=
  Context.empty.child [("orders", .error "refused"), ("night", .pending),
    ("ink", .value (.str "navy")), ("user", .value (.obj [("name", .str "Ada")]))]

theorem render_builtins_agree_greetingPage :
    (∀ name, name ∈ greetingPage.mentions ∨ name ∈ Names.reserved →
      layeredContext.lookup name = crowdedContext.lookup name) ∧
    render ⟨Registry.builtins, .path, true⟩ layeredContext greetingPage =
      render ⟨Registry.builtins, .path, true⟩ crowdedContext greetingPage := by
  have hmentions : greetingPage.mentions = ["user", "night", "ink"] := by decide +kernel
  have hunbound : ∀ name ∈ Names.reserved,
      (layeredContext.lookup name).isNone ∧ (crowdedContext.lookup name).isNone := by
    decide +kernel
  have hagree : ∀ name, name ∈ greetingPage.mentions ∨ name ∈ Names.reserved →
      layeredContext.lookup name = crowdedContext.lookup name := by
    rintro name (hname | hname)
    · rw [hmentions] at hname
      simp only [List.mem_cons, List.not_mem_nil, or_false] at hname
      rcases hname with rfl | rfl | rfl <;> rfl
    · obtain ⟨hl, hc⟩ := hunbound name hname
      rw [Option.isNone_iff_eq_none.mp hl, Option.isNone_iff_eq_none.mp hc]
  exact ⟨hagree, (render_builtins_agree true greetingPage).1 _ _ hagree⟩

end Engine

end LivePage
