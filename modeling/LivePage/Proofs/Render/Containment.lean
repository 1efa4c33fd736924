import LivePage.Proofs.Render.Position

/-!
# Failures stay where they are

A subtree below containers can be replaced by any other, failing ones included, and nothing but its
own output and its own reports changes.

* `exists_renderEach_set`: a row of trees, one of which is replaced.
* `render_replace`: a tree, a subtree of which is replaced.
-/

namespace LivePage.Engine

variable {engine : Engine} {ctx : Context}

/-- In a row of trees the reports of each stand together, and its output stands at its index. -/
theorem exists_renderEach_set (hcatch : engine.catchPanics = true) {cs : List Component} {i : Nat}
    {c : Component} (hc : cs[i]? = some c) {o : Output} {reports : List Diagnostic}
    (h : engine.render ctx c = ⟨.ok o, reports⟩) :
    ∃ outputs before after,
      engine.renderEach ctx cs = ⟨.ok outputs, before ++ reports ++ after⟩ ∧
      outputs[i]? = some o ∧
      ∀ new newOut newReports, engine.render ctx new = ⟨.ok newOut, newReports⟩ →
        engine.renderEach ctx (cs.set i new) =
          ⟨.ok (outputs.set i newOut), before ++ newReports ++ after⟩ := by
  induction cs generalizing i with
  | nil => simp at hc
  | cons d ds ih =>
    cases i with
    | zero =>
      obtain rfl : d = c := by simpa using hc
      obtain ⟨outputs, after, hs⟩ := exists_renderEach hcatch ctx ds
      refine ⟨o :: outputs, [], after, renderEach_cons h hs, rfl, ?_⟩
      intro new newOut newReports hnew
      exact renderEach_cons hnew hs
    | succ i =>
      obtain ⟨first, reports₁, hd⟩ := exists_render hcatch ctx d
      obtain ⟨outputs, before, after, hs, hi, hset⟩ := ih (by simpa using hc)
      refine ⟨first :: outputs, reports₁ ++ before, after, ?_, by simpa using hi, ?_⟩
      · rw [renderEach_cons hd hs]
        simp
      · intro new newOut newReports hnew
        rw [List.set_cons_succ, List.set_cons_succ, renderEach_cons hd (hset _ _ _ hnew)]
        simp

/-- What `render_replace` says of one position, as the induction along the position needs it. -/
theorem exists_render_replace (hcatch : engine.catchPanics = true)
    (hr : engine.registry.KeepsBuiltins) (ctx : Context) {root old : Component} {path : List Nat}
    (hold : root.subtree? path = some old)
    (habove : ∀ a ∈ root.ancestors path, a.type ∈ containerTypes) :
    ∃ out before after oldOut oldReports,
      engine.render ctx old = ⟨.ok oldOut, oldReports⟩ ∧
      engine.render ctx root = ⟨.ok out, before ++ oldReports ++ after⟩ ∧
      out.subtree? (place engine.evaluator ctx root path) = some oldOut ∧
      ∀ new newOut newReports, engine.render ctx new = ⟨.ok newOut, newReports⟩ →
        engine.render ctx (root.replace path new) =
          ⟨.ok (out.replace (place engine.evaluator ctx root path) newOut),
            before ++ newReports ++ after⟩ := by
  induction path generalizing root with
  | nil =>
    obtain rfl : root = old := by simpa [Component.subtree?] using hold
    obtain ⟨out, reports, h⟩ := exists_render hcatch ctx root
    refine ⟨out, [], [], out, reports, h, by simpa using h, rfl, ?_⟩
    intro new newOut newReports hnew
    simpa [Component.replace, place, Output.replace] using hnew
  | cons i path ih =>
    obtain ⟨child, hchild, hold⟩ := Component.subtree?_cons_eq_some.mp hold
    rw [Component.ancestors_cons hchild] at habove
    obtain ⟨hroot, habove⟩ := List.forall_mem_cons.mp habove
    obtain ⟨out, before, after, oldOut, oldReports, ho, h, hat, hnew⟩ := ih hold habove
    obtain ⟨outputs, first, last, hs, hi, hset⟩ := exists_renderEach_set hcatch hchild h
    obtain ⟨tag, attrs, style, hwrap⟩ := render_container hr ctx hroot
    -- the reports of the root and of the earlier siblings come first, those of the later ones last
    refine ⟨.element tag root.id attrs style (label engine.evaluator ctx root ++ outputs),
      propReports engine.evaluator ctx root ++ first ++ before, after ++ last, oldOut, oldReports,
      ho, ?_, ?_, ?_⟩
    · have hc := hwrap root.children outputs _ hs
      rw [Component.mk_fields] at hc
      rw [hc]
      simp
    · rw [place_cons hchild, Output.subtree?_element hi, hat]
    · intro new newOut newReports hn
      have hc := hwrap _ _ _ (hset _ _ _ (hnew _ _ _ hn))
      rw [Component.replace_cons hchild, place_cons hchild, Output.replace_element hi, hc]
      simp

/-- **Failures are contained.** Every tree has an output. A subtree all of whose ancestors are
containers has its output at one place of the output of the tree and its reports in one block of
the reports, and with another subtree in its position only these two change: they become the output
and the reports of the new subtree rendered alone, whatever fails or panics in it. -/
theorem render_replace (hcatch : engine.catchPanics = true)
    (hr : engine.registry.KeepsBuiltins) (ctx : Context) :
    (∀ c, ∃ out reports, engine.render ctx c = ⟨.ok out, reports⟩) ∧
    ∀ root path old, root.subtree? path = some old →
      (∀ a ∈ root.ancestors path, a.type ∈ containerTypes) →
      ∃ out before after oldOut oldReports,
        engine.render ctx old = ⟨.ok oldOut, oldReports⟩ ∧
        engine.render ctx root = ⟨.ok out, before ++ oldReports ++ after⟩ ∧
        out.subtree? (place engine.evaluator ctx root path) = some oldOut ∧
        ∀ new, ∃ newOut newReports,
          engine.render ctx new = ⟨.ok newOut, newReports⟩ ∧
          engine.render ctx (root.replace path new) =
            ⟨.ok (out.replace (place engine.evaluator ctx root path) newOut),
              before ++ newReports ++ after⟩ := by
  refine ⟨exists_render hcatch ctx, ?_⟩
  intro root path old hold habove
  obtain ⟨out, before, after, oldOut, oldReports, ho, h, hat, hset⟩ :=
    exists_render_replace hcatch hr ctx hold habove
  refine ⟨out, before, after, oldOut, oldReports, ho, h, hat, ?_⟩
  intro new
  obtain ⟨newOut, newReports, hn⟩ := exists_render hcatch ctx new
  exact ⟨newOut, newReports, hn, hset new newOut newReports hn⟩

/-- A registry with a renderer that has its children rendered twice and then panics. -/
def alarmRegistry : Registry :=
  Registry.builtins.register "Alarm" fun _ => .children fun _ => .children fun _ => .panic .other

/-- A page with a labelled button around an image. -/
def buttonPage : Component :=
  (Component.new "page" "View").withChild
    (((Component.new "save" "Button").withProp "content" (.str "Save")).withChild
      (Component.new "icon" "Image"))

theorem render_replace_buttonPage :
    ∃ out before after oldOut oldReports,
      render ⟨alarmRegistry, .path, true⟩ .empty (.new "icon" "Image") = ⟨.ok oldOut, oldReports⟩ ∧
      render ⟨alarmRegistry, .path, true⟩ .empty buttonPage =
        ⟨.ok out, before ++ oldReports ++ after⟩ ∧
      out.subtree? (place .path .empty buttonPage [0, 0]) = some oldOut ∧
      ∀ new, ∃ newOut newReports,
        render ⟨alarmRegistry, .path, true⟩ .empty new = ⟨.ok newOut, newReports⟩ ∧
        render ⟨alarmRegistry, .path, true⟩ .empty (buttonPage.replace [0, 0] new) =
          ⟨.ok (out.replace (place .path .empty buttonPage [0, 0]) newOut),
            before ++ newReports ++ after⟩ :=
  (@render_replace ⟨alarmRegistry, .path, true⟩ rfl
    (Registry.keepsBuiltins_builtins.register (by decide) _) .empty).2
    buttonPage [0, 0] (.new "icon" "Image") rfl (by decide)

end LivePage.Engine
