import LivePage.Proofs.Render.Visit

/-!
# Panics, caught and not caught

A rendering that catches no panics goes like one that catches them, up to the first panic. There it
ends, while the other reports the component whose renderer panicked and goes on.

* `Action.PanicsItself`: actions that end in a panic of their own, not in one of the children.
* `Engine.PanicsAt`: the component whose renderer ends a rendering that catches no panics.
* `Pass.Caught`: a step without and with catching, side by side.
* `Engine.caught_render`: all trees; `Engine.render_uncaught` says what it means for the outcome and
  the reports.
-/

namespace LivePage

/-! ## Where a panic starts -/

/-- Actions end in a panic of their own; `rendered` is the rendering of the children. -/
inductive Action.PanicsItself (rendered : Pass (List Output)) (p : Panic) : Action → Prop
  | panic : PanicsItself rendered p (.panic p)
  | children {next : List Output → Action} {outputs : List Output} {reports : List Diagnostic}
    (hrendered : rendered = ⟨.ok outputs, reports⟩) (h : PanicsItself rendered p (next outputs)) :
    PanicsItself rendered p (.children next)

namespace Engine

variable (engine : Engine) (ctx : Context) (p : Panic) (n : Component)

mutual

/-- The rendering of a tree ends at the component `n`, whose renderer panics with `p`: at the root
itself, or below it the first time that the root has its children rendered. -/
inductive PanicsAt : Component → Prop
  | own {renderer : Renderer} (hget : engine.registry.get? n.type = some renderer)
    (h : (renderer (input engine.evaluator ctx n)).PanicsItself
      (engine.renderEach ctx n.children) p) : PanicsAt n
  | inside {c : Component} {renderer : Renderer} {next : List Output → Action}
    (hget : engine.registry.get? c.type = some renderer)
    (hasks : renderer (input engine.evaluator ctx c) = .children next)
    (h : PanicsAmong c.children) : PanicsAt c

/-- The rendering of a row of trees ends at the component `n`, the trees before that return. -/
inductive PanicsAmong : List Component → Prop
  | here {c : Component} {cs : List Component} (h : PanicsAt c) : PanicsAmong (c :: cs)
  | later {c : Component} {cs : List Component} {output : Output} {reports : List Diagnostic}
    (hc : engine.render ctx c = ⟨.ok output, reports⟩) (h : PanicsAmong cs) :
    PanicsAmong (c :: cs)

end

end Engine

namespace Action

variable {rendered : Pass (List Output)} {p : Panic} {reports : List Diagnostic}

theorem PanicsItself.run {a : Action} (h : a.PanicsItself rendered p) :
    ∃ reports, a.run rendered = ⟨.error p, reports⟩ := by
  induction h with
  | panic => exact ⟨[], rfl⟩
  | @children next outputs reports hrendered _ ih =>
    obtain ⟨more, hrun⟩ := ih
    refine ⟨reports ++ more, ?_⟩
    rw [hrendered] at hrun ⊢
    rw [Action.run, Pass.andThen]
    dsimp only
    rw [hrun]

/-- Actions that end in a panic end in one of their own, or begin by asking for children that
panic. -/
theorem panicsItself_or_of_run {a : Action} (h : a.run rendered = ⟨.error p, reports⟩) :
    a.PanicsItself rendered p ∨
      ∃ next, a = .children next ∧ rendered = ⟨.error p, reports⟩ := by
  induction a generalizing reports with
  | done output => cases h
  | fail e => cases h
  | panic q =>
    cases h
    exact .inl .panic
  | children next ih =>
    rw [Action.run, Pass.andThen] at h
    cases hrendered : rendered with
    | mk outcome first =>
      cases outcome with
      | error q =>
        rw [hrendered] at h
        cases h
        exact .inr ⟨next, rfl, rfl⟩
      | ok outputs =>
        rw [hrendered] at h
        dsimp only at h
        rw [← hrendered] at h ⊢
        cases hrest : (next outputs).run rendered with
        | mk outcome rest =>
          rw [hrest] at h
          cases h
          -- The children return, so the panic is not theirs at any later request either.
          rcases ih outputs hrest with hown | ⟨-, -, hpanics⟩
          · exact .inl (.children hrendered hown)
          · rw [hrendered] at hpanics
            cases hpanics

end Action

/-! ## A step without and with catching -/

namespace Pass

variable {α β : Type} {entry : Panic → Diagnostic → Prop} {p q : Pass α}

/-- A step without and with catching panics: both return the same with the same reports, or the
first panics and the second has its reports, then an entry for the panic, and then any others. -/
inductive Caught (entry : Panic → Diagnostic → Prop) : Pass α → Pass α → Prop
  | returns (a : α) (reports : List Diagnostic) :
    Caught entry ⟨.ok a, reports⟩ ⟨.ok a, reports⟩
  | panics {e : Panic} {d : Diagnostic} (h : entry e d) (outcome : Except Panic α)
    (reports rest : List Diagnostic) :
    Caught entry ⟨.error e, reports⟩ ⟨outcome, reports ++ d :: rest⟩

namespace Caught

theorem mono {entry' : Panic → Diagnostic → Prop} (h : Caught entry p q)
    (himp : ∀ e d, entry e d → entry' e d) : Caught entry' p q := by
  cases h with
  | returns a reports => exact .returns a reports
  | panics hentry outcome reports rest => exact .panics (himp _ _ hentry) outcome reports rest

/-- After a panic it does not matter how the run that catches it goes on. -/
theorem panics_andThen {e : Panic} {d : Diagnostic} (h : entry e d) (outcome : Except Panic α)
    (reports rest : List Diagnostic) (g : α → Pass β) :
    Caught entry ⟨.error e, reports⟩ (andThen ⟨outcome, reports ++ d :: rest⟩ g) := by
  cases outcome with
  | error e' => exact .panics h _ reports rest
  | ok a =>
    have hmore := Caught.panics h (g a).outcome reports (rest ++ (g a).reports)
    rw [andThen]
    dsimp only
    rw [List.append_assoc, List.cons_append]
    exact hmore

theorem after (h : Caught entry p q) (reports : List Diagnostic) :
    Caught entry (p.after reports) (q.after reports) := by
  cases h with
  | returns a own => exact .returns a (reports ++ own)
  | panics hentry outcome own rest =>
    have hmore := Caught.panics hentry outcome (reports ++ own) rest
    rw [List.append_assoc] at hmore
    exact hmore

theorem andThen {f g : α → Pass β} (h : Caught entry p q)
    (hfg : ∀ a reports, p = ⟨.ok a, reports⟩ → Caught entry (f a) (g a)) :
    Caught entry (p.andThen f) (q.andThen g) := by
  cases h with
  | returns a reports => exact (hfg a reports rfl).after reports
  | panics hentry outcome reports rest => exact panics_andThen hentry outcome reports rest g

theorem eq_of_ok {a : α} {reports : List Diagnostic} (h : Caught entry ⟨.ok a, reports⟩ q) :
    q = ⟨.ok a, reports⟩ := by
  cases h
  rfl

theorem reports_of_error {e : Panic} {reports : List Diagnostic}
    (h : Caught entry ⟨.error e, reports⟩ q) :
    ∃ d rest, entry e d ∧ q.reports = reports ++ d :: rest := by
  cases h with
  | panics hentry outcome _ rest => exact ⟨_, rest, hentry, rfl⟩

end Caught

end Pass

namespace Engine

variable {registry : Registry} {evaluator : Evaluator} {ctx : Context} {c : Component} {p : Panic}

/-- The report of a component whose renderer panicked. -/
def panicReport (n : Component) (p : Panic) : Diagnostic :=
  .ofError n.id none (.renderer n.type p.message)

/-- A report of the component at which the rendering of a tree ends. -/
def ReportsPanic (registry : Registry) (evaluator : Evaluator) (ctx : Context) (c : Component)
    (e : Panic) (d : Diagnostic) : Prop :=
  ∃ n, PanicsAt ⟨registry, evaluator, false⟩ ctx e n c ∧ d = panicReport n e

/-- A report of the component at which the rendering of a row of trees ends. -/
def ReportsPanicAmong (registry : Registry) (evaluator : Evaluator) (ctx : Context)
    (cs : List Component) (e : Panic) (d : Diagnostic) : Prop :=
  ∃ n, PanicsAmong ⟨registry, evaluator, false⟩ ctx e n cs ∧ d = panicReport n e

/-! ## One visit -/

/-- A panic that is not caught ends the visit. -/
theorem visit_uncaught {rendered : Pass (List Output)} {renderer : Renderer}
    (hget : registry.get? c.type = some renderer) {reports : List Diagnostic}
    (hrun : (renderer (input evaluator ctx c)).run rendered = ⟨.error p, reports⟩) :
    visit ⟨registry, evaluator, false⟩ ctx c rendered =
      ⟨.error p, propReports evaluator ctx c ++ reports⟩ := by
  have hoff : (Engine.mk registry evaluator false).registry.get? c.type = some renderer := hget
  rw [visit_registered hoff, hrun]
  simp [contain, Pass.andThen, Pass.after]

theorem caught_settle {entry : Panic → Diagnostic → Prop} (result : Except RenderError Output) :
    Pass.Caught entry (settle c result) (settle c result) := by
  cases result with
  | ok output => exact .returns output []
  | error e => exact .returns (errorMarker c e) _

/-- A panic of the children that was caught is none of the component's. -/
theorem caught_contain {entry : Panic → Diagnostic → Prop}
    {q q' : Pass (Except RenderError Output)} (h : Pass.Caught entry q q') :
    Pass.Caught entry (contain ⟨registry, evaluator, false⟩ c q)
      (contain ⟨registry, evaluator, true⟩ c q') := by
  cases h with
  | returns a reports => exact .returns a reports
  | panics hentry outcome reports rest =>
    cases outcome with
    | ok a => exact .panics hentry _ reports rest
    | error e => exact .panics hentry _ reports rest

/-- Where the actions of a renderer come to the same in both runs, and not because its children
panic, a panic is the component's own. -/
theorem caught_visit_of_run {renderer : Renderer} (hget : registry.get? c.type = some renderer)
    {rendered : Pass (List Output)}
    (hrun : (renderer (input evaluator ctx c)).run rendered =
      (renderer (input evaluator ctx c)).run
        (renderEach ⟨registry, evaluator, false⟩ ctx c.children))
    (hchildren : ∀ next, renderer (input evaluator ctx c) = .children next →
      ∃ outputs reports,
        renderEach ⟨registry, evaluator, false⟩ ctx c.children = ⟨.ok outputs, reports⟩) :
    Pass.Caught (ReportsPanic registry evaluator ctx c)
      (visit ⟨registry, evaluator, false⟩ ctx c
        (renderEach ⟨registry, evaluator, false⟩ ctx c.children))
      (visit ⟨registry, evaluator, true⟩ ctx c rendered) := by
  have hoff : (Engine.mk registry evaluator false).registry.get? c.type = some renderer := hget
  have hon : (Engine.mk registry evaluator true).registry.get? c.type = some renderer := hget
  cases h : (renderer (input evaluator ctx c)).run
      (renderEach ⟨registry, evaluator, false⟩ ctx c.children) with
  | mk outcome reports =>
    rw [h] at hrun
    cases outcome with
    | ok result =>
      cases result with
      | ok output =>
        rw [visit_done hoff h, visit_done hon hrun]
        exact .returns _ _
      | error e =>
        rw [visit_fail hoff h, visit_fail hon hrun]
        exact .returns _ _
    | error e =>
      have hown : (renderer (input evaluator ctx c)).PanicsItself
          (renderEach ⟨registry, evaluator, false⟩ ctx c.children) e := by
        rcases Action.panicsItself_or_of_run h with hown | ⟨next, hasks, hpanics⟩
        · exact hown
        · obtain ⟨outputs, more, hreturns⟩ := hchildren next hasks
          rw [hreturns] at hpanics
          cases hpanics
      rw [visit_uncaught hget h, visit_panic rfl hon hrun, ← List.append_assoc]
      exact .panics ⟨c, .own hget hown, rfl⟩ _ _ []

/-- What holds of the row of its children holds of a component. -/
theorem caught_visit (h : Pass.Caught (ReportsPanicAmong registry evaluator ctx c.children)
      (renderEach ⟨registry, evaluator, false⟩ ctx c.children)
      (renderEach ⟨registry, evaluator, true⟩ ctx c.children)) :
    Pass.Caught (ReportsPanic registry evaluator ctx c)
      (render ⟨registry, evaluator, false⟩ ctx c) (render ⟨registry, evaluator, true⟩ ctx c) := by
  rw [render_eq, render_eq]
  cases hget : registry.get? c.type with
  | none =>
    have hoff : (Engine.mk registry evaluator false).registry.get? c.type = none := hget
    have hon : (Engine.mk registry evaluator true).registry.get? c.type = none := hget
    rw [visit_unregistered hoff, visit_unregistered hon]
    exact .returns _ _
  | some renderer =>
    have hoff : (Engine.mk registry evaluator false).registry.get? c.type = some renderer := hget
    have hon : (Engine.mk registry evaluator true).registry.get? c.type = some renderer := hget
    generalize renderEach ⟨registry, evaluator, true⟩ ctx c.children = rendered at h ⊢
    cases hrow : renderEach ⟨registry, evaluator, false⟩ ctx c.children with
    | mk outcome reports =>
      rw [hrow] at h
      cases outcome with
      | ok outputs =>
        rw [h.eq_of_ok, ← hrow]
        exact caught_visit_of_run hget rfl fun _ _ => ⟨outputs, reports, hrow⟩
      | error e =>
        cases hasks : renderer (input evaluator ctx c) with
        | children next =>
          have hrun : Pass.Caught (ReportsPanic registry evaluator ctx c)
              ((Action.children next).run ⟨.error e, reports⟩)
              ((Action.children next).run rendered) := by
            rw [Action.run, Action.run]
            refine (h.mono ?_).andThen fun _ _ hreturns => by cases hreturns
            rintro e d ⟨n, hamong, hd⟩
            exact ⟨n, .inside hget hasks hamong, hd⟩
          rw [visit_registered hoff, visit_registered hon, hasks]
          exact ((caught_contain hrun).andThen fun result _ _ => caught_settle result).after _
        | done output | fail error | panic payload =>
          rw [← hrow]
          refine caught_visit_of_run hget (by rw [hasks]; rfl) fun next hnext => ?_
          rw [hasks] at hnext
          cases hnext

/-! ## Trees and rows of trees -/

mutual

/-- Without and with catching panics a tree is rendered alike, up to the first panic. -/
theorem caught_render (registry : Registry) (evaluator : Evaluator) (ctx : Context) :
    ∀ c : Component, Pass.Caught (ReportsPanic registry evaluator ctx c)
      (render ⟨registry, evaluator, false⟩ ctx c) (render ⟨registry, evaluator, true⟩ ctx c)
  | ⟨_, _, _, _, children⟩ => caught_visit (caught_renderEach registry evaluator ctx children)

theorem caught_renderEach (registry : Registry) (evaluator : Evaluator) (ctx : Context) :
    ∀ cs : List Component, Pass.Caught (ReportsPanicAmong registry evaluator ctx cs)
      (renderEach ⟨registry, evaluator, false⟩ ctx cs)
      (renderEach ⟨registry, evaluator, true⟩ ctx cs)
  | [] => .returns [] []
  | c :: cs => by
    have hc : Pass.Caught (ReportsPanicAmong registry evaluator ctx (c :: cs))
        (render ⟨registry, evaluator, false⟩ ctx c) (render ⟨registry, evaluator, true⟩ ctx c) :=
      (caught_render registry evaluator ctx c).mono fun e d ⟨n, hat, hd⟩ => ⟨n, .here hat, hd⟩
    rw [renderEach, renderEach]
    refine hc.andThen fun output reports hreturns => ?_
    have hcs : Pass.Caught (ReportsPanicAmong registry evaluator ctx (c :: cs))
        (renderEach ⟨registry, evaluator, false⟩ ctx cs)
        (renderEach ⟨registry, evaluator, true⟩ ctx cs) :=
      (caught_renderEach registry evaluator ctx cs).mono fun e d ⟨n, hamong, hd⟩ =>
        ⟨n, .later hreturns hamong, hd⟩
    exact hcs.andThen fun outputs _ _ => .returns (output :: outputs) []

end

/-! ## The component that panics -/

mutual

/-- A rendering that ends at a component ends with its panic. -/
theorem render_of_panicsAt {n : Component} : ∀ c : Component,
    PanicsAt ⟨registry, evaluator, false⟩ ctx p n c →
      ∃ reports, render ⟨registry, evaluator, false⟩ ctx c = ⟨.error p, reports⟩
  | ⟨id, type, props, style, children⟩, h => by
    rw [render_eq]
    cases h with
    | own hget hown =>
      obtain ⟨reports, hrun⟩ := hown.run
      exact ⟨_, visit_uncaught hget hrun⟩
    | @inside _ _ next hget hasks hamong =>
      obtain ⟨reports, hrow⟩ := renderEach_of_panicsAmong children hamong
      have hrun : (Action.children next).run
          (renderEach ⟨registry, evaluator, false⟩ ctx children) = ⟨.error p, reports⟩ := by
        rw [Action.run, hrow]
        rfl
      exact ⟨_, visit_uncaught hget (by rw [hasks]; exact hrun)⟩

theorem renderEach_of_panicsAmong {n : Component} : ∀ cs : List Component,
    PanicsAmong ⟨registry, evaluator, false⟩ ctx p n cs →
      ∃ reports, renderEach ⟨registry, evaluator, false⟩ ctx cs = ⟨.error p, reports⟩
  | [], h => by cases h
  | c :: cs, h => by
    rw [renderEach]
    cases h with
    | here hat =>
      obtain ⟨reports, hc⟩ := render_of_panicsAt c hat
      exact ⟨reports, by rw [hc]; rfl⟩
    | @later _ _ output first hc hamong =>
      obtain ⟨reports, hrow⟩ := renderEach_of_panicsAmong cs hamong
      exact ⟨first ++ reports, by rw [hc, hrow]; rfl⟩

end

/-- Actions whose children panic do not panic themselves after asking for them. -/
theorem not_panicsItself_children {rendered : Pass (List Output)} {next : List Output → Action}
    {reports : List Diagnostic} (hrendered : rendered = ⟨.error p, reports⟩) {q : Panic} :
    ¬ (Action.children next).PanicsItself rendered q := by
  rintro (_ | ⟨hreturns, _⟩)
  rw [hrendered] at hreturns
  cases hreturns

mutual

/-- A rendering ends at one component only. -/
theorem panicsAt_unique {q : Panic} {n m : Component} : ∀ c : Component,
    PanicsAt ⟨registry, evaluator, false⟩ ctx p n c →
      PanicsAt ⟨registry, evaluator, false⟩ ctx q m c → m = n
  | ⟨id, type, props, style, children⟩, hn, hm => by
    cases hn with
    | own hget hown =>
      cases hm with
      | own _ _ => rfl
      | inside hget' hasks hamong =>
        obtain ⟨reports, hrow⟩ := renderEach_of_panicsAmong children hamong
        cases hget.symm.trans hget'
        rw [hasks] at hown
        exact absurd hown (not_panicsItself_children hrow)
    | inside hget hasks hamong =>
      cases hm with
      | own hget' hown =>
        obtain ⟨reports, hrow⟩ := renderEach_of_panicsAmong children hamong
        cases hget.symm.trans hget'
        rw [hasks] at hown
        exact absurd hown (not_panicsItself_children hrow)
      | inside _ _ hamong' => exact panicsAmong_unique children hamong hamong'

theorem panicsAmong_unique {q : Panic} {n m : Component} : ∀ cs : List Component,
    PanicsAmong ⟨registry, evaluator, false⟩ ctx p n cs →
      PanicsAmong ⟨registry, evaluator, false⟩ ctx q m cs → m = n
  | [], hn, _ => by cases hn
  | c :: cs, hn, hm => by
    cases hn with
    | here hat =>
      cases hm with
      | here hat' => exact panicsAt_unique c hat hat'
      | later hc _ =>
        obtain ⟨reports, hpanics⟩ := render_of_panicsAt c hat
        cases hpanics.symm.trans hc
    | later hc hamong =>
      cases hm with
      | here hat =>
        obtain ⟨reports, hpanics⟩ := render_of_panicsAt c hat
        cases hpanics.symm.trans hc
      | later _ hamong' => exact panicsAmong_unique cs hamong hamong'

end

/-- **Catching panics changes nothing but panics.** A rendering that catches no panics and returns
gives the same output and the same reports as one that catches them. One that panics does so at one
component, and the rendering that catches panics returns, with the reports up to the panic first and
right after them the report that this component failed, in which its type and the message of the
panic are named. -/
theorem render_uncaught (registry : Registry) (evaluator : Evaluator) (ctx : Context)
    (c : Component) :
    (∀ output reports, render ⟨registry, evaluator, false⟩ ctx c = ⟨.ok output, reports⟩ →
      render ⟨registry, evaluator, true⟩ ctx c = ⟨.ok output, reports⟩) ∧
    ∀ p reports, render ⟨registry, evaluator, false⟩ ctx c = ⟨.error p, reports⟩ →
      ∃ n, (∀ m q, PanicsAt ⟨registry, evaluator, false⟩ ctx q m c ↔ m = n ∧ q = p) ∧
        ∃ output rest, render ⟨registry, evaluator, true⟩ ctx c =
          ⟨.ok output, reports ++ ⟨n.id, none, .renderer,
            "renderer `" ++ n.type ++ "` failed: " ++ p.message⟩ :: rest⟩ := by
  have hcaught := caught_render registry evaluator ctx c
  refine ⟨fun output reports hreturns => ?_, fun p reports hpanics => ?_⟩
  · rw [hreturns] at hcaught
    exact hcaught.eq_of_ok
  · rw [hpanics] at hcaught
    obtain ⟨d, rest, ⟨n, hat, rfl⟩, hreports⟩ := hcaught.reports_of_error
    obtain ⟨output, all, hc⟩ : ∃ output all,
        render ⟨registry, evaluator, true⟩ ctx c = ⟨.ok output, all⟩ := exists_render rfl ctx c
    refine ⟨n, fun m q => ⟨fun hm => ?_, ?_⟩, output, rest, ?_⟩
    · obtain ⟨more, hq⟩ := render_of_panicsAt c hm
      cases hq.symm.trans hpanics
      exact ⟨panicsAt_unique c hat hm, rfl⟩
    · rintro ⟨rfl, rfl⟩
      exact hat
    · rw [hc] at hreports ⊢
      cases hreports
      rfl

/-- A renderer that has the children rendered twice and then panics. -/
def doubled : Renderer := fun input =>
  .children fun _ => .children fun _ => .panic (.text ("no room for " ++ input.component.id))

/-- A registry with this renderer. -/
def doubledRegistry : Registry := Registry.builtins.register "Doubled" doubled

/-- A text whose content has no value. -/
def unnamed : Component := (Component.new "name" "Text").bindProp "content" "user"

/-- The report of its content. -/
def unnamedReport : Diagnostic :=
  .ofError "name" (some "content") (.expression "content" (.unresolved "user"))

/-- A component that has this text rendered twice. -/
def doubledName : Component := (Component.new "left" "Doubled").withChild unnamed

/-- A page on which two components panic. -/
def crowdedPage : Component :=
  (Component.new "page" "View").withChildren [doubledName, .new "right" "Doubled"]

theorem render_uncaught_crowdedPage :
    (∃ output,
      render ⟨doubledRegistry, .path, false⟩ .empty unnamed = ⟨.ok output, [unnamedReport]⟩ ∧
      render ⟨doubledRegistry, .path, true⟩ .empty unnamed = ⟨.ok output, [unnamedReport]⟩) ∧
    render ⟨doubledRegistry, .path, false⟩ .empty crowdedPage =
      ⟨.error (.text "no room for left"), [unnamedReport, unnamedReport]⟩ ∧
    PanicsAt ⟨doubledRegistry, .path, false⟩ .empty (.text "no room for left") doubledName
      crowdedPage ∧
    ∃ output rest, render ⟨doubledRegistry, .path, true⟩ .empty crowdedPage =
      ⟨.ok output, [unnamedReport, unnamedReport] ++ ⟨"left", none, .renderer,
        "renderer `Doubled` failed: no room for left"⟩ :: rest⟩ := by
  obtain ⟨hreturns, -⟩ := render_uncaught doubledRegistry .path .empty unnamed
  obtain ⟨-, hpanics⟩ := render_uncaught doubledRegistry .path .empty crowdedPage
  have hpage : render ⟨doubledRegistry, .path, false⟩ .empty crowdedPage =
      ⟨.error (.text "no room for left"), [unnamedReport, unnamedReport]⟩ := by rfl
  have hat : PanicsAt ⟨doubledRegistry, .path, false⟩ .empty (.text "no room for left") doubledName
      crowdedPage := by
    obtain ⟨outputs, reports, hrow⟩ : ∃ outputs reports,
        renderEach ⟨doubledRegistry, .path, false⟩ .empty doubledName.children =
          ⟨.ok outputs, reports⟩ := ⟨_, _, rfl⟩
    have hview : doubledRegistry.get? "View" = some (Renderer.container "div") := rfl
    have hdoubled : doubledRegistry.get? "Doubled" = some doubled := rfl
    exact .inside hview rfl (.here (.own hdoubled (.children hrow (.children hrow .panic))))
  obtain ⟨n, hn, output, rest, hcaught⟩ := hpanics _ _ hpage
  obtain ⟨rfl, -⟩ := (hn _ _).mp hat
  exact ⟨⟨_, rfl, hreturns _ _ rfl⟩, hpage, hat, output, rest, hcaught⟩

end Engine

end LivePage
