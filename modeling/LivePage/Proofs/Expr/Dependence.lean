import LivePage.Proofs.Expr.DataStates

/-!
# On which names a value depends

A path expression sees a context only through look-up, and looks up only names that it mentions and
reserved words. So contexts that agree on these give it the same value or the same failure, however
their layers are arranged.

* `Context.AgreeOn`: some names stand for the same in two contexts, or for nothing in both.
* `Term.eval_congr`: a term depends on its identifiers.
* `evaluateGuarded_congr`: an expression depends on the names that are found in its text and on the
  reserved words, also if it does not parse.
* `evaluateSource_congr`: a source depends on the names that its expressions mention.
-/

namespace LivePage

/-- Some names stand for the same in two contexts, or for nothing in both. -/
def Context.AgreeOn (names : List String) (ctx ctx' : Context) : Prop :=
  ∀ name ∈ names, ctx.lookup name = ctx'.lookup name

namespace Context

variable {names names' : List String} {ctx ctx' : Context}

theorem AgreeOn.mono (h : AgreeOn names ctx ctx') (hsub : ∀ name ∈ names', name ∈ names) :
    AgreeOn names' ctx ctx' :=
  fun name hname => h name (hsub name hname)

theorem agreeOn_append :
    AgreeOn (names ++ names') ctx ctx' ↔ AgreeOn names ctx ctx' ∧ AgreeOn names' ctx ctx' :=
  List.forall_mem_append

end Context

open Context

variable {ctx ctx' : Context}

/-! ## Terms -/

namespace Term

/-- The value of a term depends on its identifiers. -/
theorem eval_congr {t : Term} (h : AgreeOn t.idents ctx ctx') : t.eval ctx = t.eval ctx' := by
  induction t with
  | literal v => rfl
  | ident name =>
    have hname : ctx.lookup name = ctx'.lookup name := h name (by simp [idents])
    rw [eval, eval, evalIdent, evalIdent, hname]
  | not operand ih | neg operand ih => rw [eval, eval, ih h]
  | member left right ihl ihr | compare _ left right ihl ihr | and left right ihl ihr
  | or left right ihl ihr =>
    obtain ⟨hl, hr⟩ := agreeOn_append.mp h
    rw [eval, eval, ihl hl, ihr hr]
  | cond test yes no iht ihy ihn =>
    obtain ⟨hty, hn⟩ := agreeOn_append.mp h
    obtain ⟨ht, hy⟩ := agreeOn_append.mp hty
    rw [eval, eval, iht ht, ihy hy, ihn hn]

/-- An identifier of an expression is among the names that are found in it, or a reserved word. -/
theorem mem_freeIdentifiers_or_reserved {expression : String} {t : Term}
    (h : parse expression = .ok t) {name : String} (hname : name ∈ t.idents) :
    name ∈ freeIdentifiers expression ∨ name ∈ Names.reserved := by
  by_cases hreserved : name ∈ Names.reserved
  · exact .inr hreserved
  · refine .inl ?_
    rw [freeIdentifiers_eq h, List.mem_eraseDups]
    exact List.mem_filter.mpr ⟨hname, by simpa using hreserved⟩

end Term

/-! ## Expressions and sources -/

section

variable {expression : String}

theorem firstFailure?_congr {names : List String} (h : AgreeOn names ctx ctx') :
    firstFailure? ctx names = firstFailure? ctx' names := by
  unfold firstFailure?
  induction names with
  | nil => rfl
  | cons name names ih =>
    obtain ⟨hname, hnames⟩ := List.forall_mem_cons.mp h
    rw [List.findSome?_cons, List.findSome?_cons, hname, ih hnames]

theorem anyPending_congr {names : List String} (h : AgreeOn names ctx ctx') :
    anyPending ctx names = anyPending ctx' names := by
  unfold anyPending
  induction names with
  | nil => rfl
  | cons name names ih =>
    obtain ⟨hname, hnames⟩ := List.forall_mem_cons.mp h
    rw [List.any_cons, List.any_cons, hname, ih hnames]

theorem evaluateExpression_congr (h : AgreeOn (freeIdentifiers expression) ctx ctx')
    (hreserved : AgreeOn Names.reserved ctx ctx') :
    evaluateExpression ctx expression = evaluateExpression ctx' expression := by
  unfold evaluateExpression
  cases hparse : Term.parse expression with
  | error fault => rfl
  | ok t =>
    refine Term.eval_congr fun name hname => ?_
    rcases Term.mem_freeIdentifiers_or_reserved hparse hname with hfree | hword
    · exact h name hfree
    · exact hreserved name hword

/-- The value of an expression depends on the names that are found in its text and on the reserved
words. -/
theorem evaluateGuarded_congr (h : AgreeOn (freeIdentifiers expression) ctx ctx')
    (hreserved : AgreeOn Names.reserved ctx ctx') :
    evaluateGuarded .path ctx expression = evaluateGuarded .path ctx' expression := by
  unfold evaluateGuarded
  dsimp only
  rw [firstFailure?_congr h, anyPending_congr h, Evaluator.evaluate_path, Evaluator.evaluate_path,
    evaluateExpression_congr h hreserved]

end

/-- The names that the expressions of a template mention. -/
def Template.mentions (t : Template) : List String := t.expressions.flatMap freeIdentifiers

theorem evaluateSegments_congr {segments : List Segment}
    (h : AgreeOn (Template.interpolated segments).mentions ctx ctx')
    (hreserved : AgreeOn Names.reserved ctx ctx') :
    evaluateSegments .path ctx segments = evaluateSegments .path ctx' segments := by
  induction segments with
  | nil => rfl
  | cons segment segments ih =>
    rw [evaluateSegments, evaluateSegments]
    cases segment with
    | text text => rw [ih h, evaluateSegment, evaluateSegment]
    | expr expression =>
      obtain ⟨hhead, htail⟩ := agreeOn_append.mp h
      rw [ih htail, evaluateSegment, evaluateSegment, evaluateGuarded_congr hhead hreserved]

/-- The names that the expressions of a source mention; a source that is no template has none. -/
def sourceMentions (source : String) : List String :=
  match Template.parse source with
  | .ok template => template.mentions
  | .error _ => []

/-- The value of a source depends on the names that its expressions mention and on the reserved
words. -/
theorem evaluateSource_congr {source : String} (h : AgreeOn (sourceMentions source) ctx ctx')
    (hreserved : AgreeOn Names.reserved ctx ctx') :
    evaluateSource .path ctx source = evaluateSource .path ctx' source := by
  unfold evaluateSource
  unfold sourceMentions at h
  cases hparse : Template.parse source with
  | error fault => rfl
  | ok template =>
    rw [hparse] at h
    cases template with
    | expr expression =>
      have hone : AgreeOn (freeIdentifiers expression) ctx ctx' := by
        simpa [Template.mentions, Template.expressions] using h
      exact evaluateGuarded_congr hone hreserved
    | interpolated segments =>
      dsimp only
      rw [evaluateSegments_congr h hreserved]

end LivePage
