import LivePage.Expr.Source
import LivePage.Proofs.Expr.FreeNames
import LivePage.Proofs.Expr.Spacing
import LivePage.Proofs.Template.Pieces

/-!
# Data sources before values

A data source that failed or is loading decides the value of every expression that mentions it,
wherever it stands there, unless its name is a reserved word.

* `DecidedBy`: what the states of some names make of a result.
* `evaluateSource_of_parse`: the value of an expression that the parser accepts.
* `not_forall_decidedBy`: a source under a reserved name does not decide.
-/

namespace LivePage

/-- Among some names one is the first that is bound to a failure, with this message. -/
def Context.FirstFailing (ctx : Context) (names : List String) (name message : String) : Prop :=
  ctx.lookup name = some (.error message) ∧
    ∃ before after, names = before ++ name :: after ∧
      ∀ earlier ∈ before, ∀ m, ctx.lookup earlier ≠ some (.error m)

/-- The states of some names decide a result: with a failure among them it is the first one, and
else, with a source among them that is loading, it is undefined. -/
structure DecidedBy (ctx : Context) (names : List String) (result : Except EvalError Value) :
    Prop where
  failing : ∀ name message, ctx.FirstFailing names name message →
    result = .error (.dataSource name message)
  pending : (∀ name ∈ names, ∀ m, ctx.lookup name ≠ some (.error m)) →
    (∃ name ∈ names, ctx.lookup name = some .pending) → result = .ok .undefined

/-! ## States of names -/

section

variable {ctx : Context} {names : List String}

theorem firstFailure?_eq_some {name message : String} (h : ctx.FirstFailing names name message) :
    firstFailure? ctx names = some (.dataSource name message) := by
  obtain ⟨hname, before, after, rfl, hbefore⟩ := h
  have hnone : firstFailure? ctx before = none := by
    unfold firstFailure?
    rw [List.findSome?_eq_none_iff]
    intro earlier he
    split
    · rename_i m hm
      exact absurd hm (hbefore earlier he m)
    · rfl
  unfold firstFailure? at hnone ⊢
  rw [List.findSome?_append, hnone, Option.none_or, List.findSome?_cons, hname]

theorem firstFailure?_eq_none (h : ∀ name ∈ names, ∀ m, ctx.lookup name ≠ some (.error m)) :
    firstFailure? ctx names = none := by
  unfold firstFailure?
  rw [List.findSome?_eq_none_iff]
  intro name hname
  split
  · rename_i m hm
    exact absurd hm (h name hname m)
  · rfl

theorem anyPending_iff :
    anyPending ctx names = true ↔ ∃ name ∈ names, ctx.lookup name = some .pending := by
  unfold anyPending
  rw [List.any_eq_true]
  refine exists_congr fun name => and_congr_right fun _ => ?_
  cases h : ctx.lookup name with
  | none => simp
  | some binding => cases binding <;> simp

namespace Context.FirstFailing

variable {name message : String}

/-- The first failure among names is the first one where repetitions are left out. -/
theorem eraseDups (h : ctx.FirstFailing names name message) :
    ctx.FirstFailing names.eraseDups name message := by
  obtain ⟨hname, before, after, rfl, hbefore⟩ := h
  have hnot : name ∉ before := fun hmem => hbefore name hmem message hname
  have hremove : (name :: after).removeAll before = name :: after.removeAll before := by
    simp [List.removeAll, hnot]
  rw [List.eraseDups_append, hremove, List.eraseDups_cons]
  exact ⟨hname, _, _, rfl, fun earlier he => hbefore earlier (List.mem_eraseDups.mp he)⟩

/-- The first failure among names is the first one among some of them, if it is one of these. -/
theorem filter {p : String → Bool} (hp : p name = true) (h : ctx.FirstFailing names name message) :
    ctx.FirstFailing (names.filter p) name message := by
  obtain ⟨hname, before, after, rfl, hbefore⟩ := h
  rw [List.filter_append, List.filter_cons_of_pos hp]
  exact ⟨hname, _, _, rfl, fun earlier he => hbefore earlier (List.mem_of_mem_filter he)⟩

end Context.FirstFailing

/-- What the states of names make of a result they make of it also where repetitions count. -/
theorem decidedBy_of_eraseDups {result : Except EvalError Value}
    (h : DecidedBy ctx names.eraseDups result) : DecidedBy ctx names result where
  failing name message hfirst := h.failing name message hfirst.eraseDups
  pending hnone := by
    rintro ⟨name, hname, hpending⟩
    exact h.pending (fun name hmem => hnone name (List.mem_eraseDups.mp hmem))
      ⟨name, List.mem_eraseDups.mpr hname, hpending⟩

end

/-! ## The guard -/

/-- The states of the names that are found in an expression decide its value. -/
theorem decidedBy_evaluateGuarded (evaluator : Evaluator) (ctx : Context) (expression : String) :
    DecidedBy ctx (freeIdentifiers expression) (evaluateGuarded evaluator ctx expression) where
  failing name message hfirst := by
    unfold evaluateGuarded
    dsimp only
    rw [firstFailure?_eq_some hfirst]
  pending hnone hpending := by
    unfold evaluateGuarded
    dsimp only
    rw [firstFailure?_eq_none hnone, anyPending_iff.mpr hpending]
    rfl

/-- With all the data there, an expression has the value that it evaluates to. -/
theorem evaluateGuarded_of_ready {evaluator : Evaluator} {ctx : Context} {expression : String}
    (hready : ∀ name ∈ freeIdentifiers expression,
      (∀ m, ctx.lookup name ≠ some (.error m)) ∧ ctx.lookup name ≠ some .pending) :
    evaluateGuarded evaluator ctx expression = evaluator.evaluate ctx expression := by
  have hpending : ¬anyPending ctx (freeIdentifiers expression) = true := by
    rw [anyPending_iff]
    rintro ⟨name, hname, h⟩
    exact (hready name hname).2 h
  unfold evaluateGuarded
  dsimp only
  rw [firstFailure?_eq_none fun name hname => (hready name hname).1]
  exact if_neg hpending

/-- The names that are no reserved words decide together with the reserved words, if none of these
is bound to a source that failed or is loading. -/
theorem decidedBy_idents {ctx : Context} {t : Term} {result : Except EvalError Value}
    (h : DecidedBy ctx t.references result)
    (hreserved : ∀ name ∈ t.idents, name ∈ Names.reserved →
      (∀ m, ctx.lookup name ≠ some (.error m)) ∧ ctx.lookup name ≠ some .pending) :
    DecidedBy ctx t.idents result := by
  have hkept {name : String} (hname : name ∈ t.idents)
      (hstate : (∃ m, ctx.lookup name = some (.error m)) ∨ ctx.lookup name = some .pending) :
      (!Names.reserved.contains name) = true := by
    by_contra hcontains
    have hready := hreserved name hname (by simpa using hcontains)
    rcases hstate with ⟨m, hm⟩ | hpending
    · exact hready.1 m hm
    · exact hready.2 hpending
  constructor
  · intro name message hfirst
    have hmem : name ∈ t.idents := by
      obtain ⟨-, before, after, hsplit, -⟩ := hfirst
      simp [hsplit]
    exact h.failing name message (hfirst.filter (hkept hmem (.inl ⟨_, hfirst.1⟩)))
  · rintro hnone ⟨name, hname, hpending⟩
    have hmem : name ∈ t.references := List.mem_filter.mpr ⟨hname, hkept hname (.inr hpending)⟩
    exact h.pending (fun name hmem => hnone name (List.mem_of_mem_filter hmem))
      ⟨name, hmem, hpending⟩

/-- A source that is one expression has its value. -/
theorem evaluateSource_eq_of_parse {source expression : String}
    (h : Template.parse source = .ok (.expr expression)) (evaluator : Evaluator) (ctx : Context) :
    evaluateSource evaluator ctx source = evaluateGuarded evaluator ctx expression := by
  rw [evaluateSource, h]

/-- A source without a group is evaluated as the expression that it trims to. -/
theorem evaluateSource_of_no_group {source : String} (hno : ¬['$', '\x7b'] <:+: source.toList)
    (evaluator : Evaluator) (ctx : Context) :
    evaluateSource evaluator ctx source =
      evaluateGuarded evaluator ctx (String.ofList (Text.trim source.toList)) := by
  have hgroup : ¬Template.hasGroup source.toList = true := fun h => hno (Template.hasGroup_iff.mp h)
  exact evaluateSource_eq_of_parse (by rw [Template.parse, if_neg hgroup]) evaluator ctx

/-- **The states of data sources decide.** Let the parser accept an expression without groups. The
names that it reads decide its value, reserved words left out, and with the data of these there, it
is the value of the term. So all names that are read decide it, reserved words among them, unless
one of these is bound to a source that failed or is loading. -/
theorem evaluateSource_of_parse {source : String} {t : Term}
    (hno : ¬['$', '\x7b'] <:+: source.toList) (h : Term.parse source = .ok t) (ctx : Context) :
    DecidedBy ctx t.references (evaluateSource .path ctx source) ∧
    ((∀ name ∈ t.references,
        (∀ m, ctx.lookup name ≠ some (.error m)) ∧ ctx.lookup name ≠ some .pending) →
      evaluateSource .path ctx source = t.eval ctx) ∧
    ((∀ name ∈ t.idents, name ∈ Names.reserved →
        (∀ m, ctx.lookup name ≠ some (.error m)) ∧ ctx.lookup name ≠ some .pending) →
      DecidedBy ctx t.idents (evaluateSource .path ctx source)) := by
  have htrim := Term.parse_trim h
  have hnames := Term.freeIdentifiers_eq htrim
  rw [evaluateSource_of_no_group hno]
  have hguard : DecidedBy ctx t.references
      (evaluateGuarded .path ctx (String.ofList (Text.trim source.toList))) := by
    refine decidedBy_of_eraseDups ?_
    rw [← hnames]
    exact decidedBy_evaluateGuarded .path ctx _
  refine ⟨hguard, fun hready => ?_, fun hreserved => ?_⟩
  · rw [evaluateGuarded_of_ready, Evaluator.evaluate_path, evaluateExpression, htrim]
    intro name hname
    rw [hnames, List.mem_eraseDups] at hname
    exact hready name hname
  · exact decidedBy_idents hguard hreserved

/-- A context in which a source is loading, one has failed and one is there. -/
def loadingContext : Context :=
  ((Context.empty.withBinding "orders" .pending).withBinding "users" (.error "timeout")).withValue
    "flag" (.bool false)

theorem evaluateSource_of_parse_users :
    ¬['$', '\x7b'] <:+: " orders || flag && users ".toList ∧
      Term.parse " orders || flag && users " =
        .ok (.or (.ident "orders") (.and (.ident "flag") (.ident "users"))) ∧
      evaluateSource .path loadingContext " orders || flag && users " =
        .error (.dataSource "users" "timeout") := by
  have hno : ¬['$', '\x7b'] <:+: " orders || flag && users ".toList := by decide +kernel
  have htokens : Token.ofText " orders || flag && users " =
      .ok [.ident "orders", .op .or, .ident "flag", .op .and, .ident "users"] := by
    decide +kernel
  have hparse : Term.parse " orders || flag && users " =
      .ok (.or (.ident "orders") (.and (.ident "flag") (.ident "users"))) :=
    Term.bind_eq_ok.mpr ⟨_, htokens, rfl⟩
  refine ⟨hno, hparse, (evaluateSource_of_parse hno hparse loadingContext).1.failing _ _ ?_⟩
  refine ⟨rfl, ["orders", "flag"], [], by decide +kernel, ?_⟩
  intro earlier he m hm
  simp only [List.mem_cons, List.not_mem_nil, or_false] at he
  rcases he with rfl | rfl <;> cases hm

/-- A failed source under a reserved name. -/
def reservedContext : Context :=
  (Context.empty.withBinding "of" (.error "timeout")).withValue "flag" (.bool false)

/-- A source that failed does not decide the value of an expression that reads it, if its name is a
reserved word and the evaluation does not get to it. -/
theorem not_forall_decidedBy :
    ¬∀ (source : String) (t : Term) (ctx : Context), ¬['$', '\x7b'] <:+: source.toList →
      Term.parse source = .ok t → DecidedBy ctx t.idents (evaluateSource .path ctx source) := by
  intro hall
  have hno : ¬['$', '\x7b'] <:+: "flag && of".toList := by decide +kernel
  have htokens : Token.ofText "flag && of" = .ok [.ident "flag", .op .and, .ident "of"] := by
    decide +kernel
  have hparse : Term.parse "flag && of" = .ok (.and (.ident "flag") (.ident "of")) :=
    Term.bind_eq_ok.mpr ⟨_, htokens, rfl⟩
  have hvalue : (evaluateSource .path reservedContext "flag && of").isOk = true := by decide +kernel
  have hfirst : reservedContext.FirstFailing ["flag", "of"] "of" "timeout" := by
    refine ⟨rfl, ["flag"], [], rfl, ?_⟩
    intro earlier he m hm
    obtain rfl := List.mem_singleton.mp he
    cases hm
  rw [(hall _ _ reservedContext hno hparse).failing _ _ hfirst] at hvalue
  cases hvalue

end LivePage
