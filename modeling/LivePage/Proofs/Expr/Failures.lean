import LivePage.Proofs.Expr.DataStates
import LivePage.Proofs.Expr.Occurrences
import LivePage.Proofs.Expr.SyntaxTree

/-!
# What failures say

A failure of a source tells a fact about the source and the context: a name that one of its
expressions reads and that is not bound, or is bound to a failure, or a text that is not
well-formed, whatever is bound. Where all expressions are well-formed and all that they read is
there, a source has a value.

* `Blames`, `Term.blames_of_eval`: the failures of terms are those of their identifiers.
* `HasExpression`, `IsIdentifierOf`: the expressions of a source and their identifiers.
* `evaluateSource_eq_error`: a source fails as a template or as one of its expressions does.
* `failure_of_evaluateSource`: what the failures of a source say.
* `not_forall_isIdentifierOf`: a name that is blamed may be no identifier, but the rest of one.
-/

namespace LivePage

theorem eq_error_of_map {ε α β : Type} {x : Except ε α} {f : α → β} {e : ε}
    (h : x.map f = .error e) : x = .error e := by
  cases x with
  | error e' => exact congrArg Except.error (Except.error.inj h)
  | ok a => cases h

/-! ## Terms -/

/-- A failure of one of some names: it is not bound, or it is bound to a failure. -/
inductive Blames (ctx : Context) (names : List String) : EvalError → Prop
  | unresolved {name : String} : name ∈ names → ctx.lookup name = none →
      Blames ctx names (.unresolved name)
  | dataSource {name message : String} : name ∈ names → ctx.lookup name = some (.error message) →
      Blames ctx names (.dataSource name message)

section

variable {ctx : Context} {names more : List String} {failure : EvalError}

theorem Blames.mono (h : Blames ctx names failure) (hsub : names ⊆ more) :
    Blames ctx more failure := by
  cases h with
  | unresolved hname hnone => exact .unresolved (hsub hname) hnone
  | dataSource hname herror => exact .dataSource (hsub hname) herror

namespace Term

theorem bind_eq_error {ε α β : Type} {x : Except ε α} {f : α → Except ε β} {e : ε} :
    x >>= f = .error e ↔ x = .error e ∨ ∃ a, x = .ok a ∧ f a = .error e := by
  cases x with
  | error e' =>
    refine ⟨fun h => .inl (congrArg Except.error (Except.error.inj h)), ?_⟩
    rintro (h | ⟨a, ha, -⟩)
    · exact congrArg Except.error (Except.error.inj h)
    · cases ha
  | ok a => exact ⟨fun h => .inr ⟨a, rfl, h⟩, fun h => h.elim nofun fun ⟨_, rfl, h⟩ => h⟩

/-- A term fails as one of its identifiers does. -/
theorem blames_of_eval {t : Term} (h : t.eval ctx = .error failure) :
    Blames ctx t.idents failure := by
  induction t with
  | literal v => cases h
  | ident name =>
    rw [eval, evalIdent] at h
    have hname : name ∈ [name] := List.mem_singleton.mpr rfl
    split at h
    · cases h
    · cases h
    · cases h
      exact .dataSource hname ‹_›
    · cases h
      exact .unresolved hname ‹_›
  | not operand ih | neg operand ih =>
    rcases bind_eq_error.mp h with h | ⟨v, -, h⟩
    · exact ih h
    · cases h
  | member left right ihl ihr | compare _ left right ihl ihr =>
    rcases bind_eq_error.mp h with h | ⟨l, -, h⟩
    · exact (ihl h).mono (List.subset_append_left _ _)
    rcases bind_eq_error.mp h with h | ⟨r, -, h⟩
    · exact (ihr h).mono (List.subset_append_right _ _)
    · cases h
  | and left right ihl ihr =>
    rcases bind_eq_error.mp h with h | ⟨l, -, h⟩
    · exact (ihl h).mono (List.subset_append_left _ _)
    split at h
    · exact (ihr h).mono (List.subset_append_right _ _)
    · cases h
  | or left right ihl ihr =>
    rcases bind_eq_error.mp h with h | ⟨l, -, h⟩
    · exact (ihl h).mono (List.subset_append_left _ _)
    split at h
    · cases h
    · exact (ihr h).mono (List.subset_append_right _ _)
  | cond test yes no iht ihy ihn =>
    rcases bind_eq_error.mp h with h | ⟨v, -, h⟩
    · exact (iht h).mono fun name hname => by simp [idents, hname]
    split at h
    · exact (ihy h).mono fun name hname => by simp [idents, hname]
    · exact (ihn h).mono fun name hname => by simp [idents, hname]

/-- A term is evaluated without a fault of syntax. -/
theorem eval_ne_malformed (ctx : Context) (t : Term) (fault : SyntaxFault) :
    t.eval ctx ≠ .error (.malformed fault) := fun h => nomatch blames_of_eval h

end Term

end

/-! ## Sources -/

/-- An expression is one of those of a source. -/
def HasExpression (source expression : String) : Prop :=
  ∃ t, Template.parse source = .ok t ∧ expression ∈ t.expressions

/-- A name is an identifier of an expression: of its term, or if there is none, of its text. -/
def IsIdentifierOf (name expression : String) : Prop :=
  match Term.parse expression with
  | .ok t => name ∈ t.idents
  | .error _ => Names.Occurs name.toList expression.toList

section

variable {evaluator : Evaluator} {ctx : Context} {failure : EvalError}

/-- An expression fails with a failure of one of the names that are found in it, or as its evaluator
does. -/
theorem evaluateGuarded_eq_error {expression : String}
    (h : evaluateGuarded evaluator ctx expression = .error failure) :
    (∃ name message, failure = .dataSource name message ∧ name ∈ freeIdentifiers expression ∧
      ctx.lookup name = some (.error message)) ∨
    evaluator.evaluate ctx expression = .error failure := by
  unfold evaluateGuarded at h
  dsimp only at h
  split at h
  · rename_i first hfirst
    cases h
    obtain ⟨name, hname, hlookup⟩ := List.exists_of_findSome?_eq_some hfirst
    split at hlookup
    · rename_i message hmessage
      cases hlookup
      exact .inl ⟨name, message, rfl, hname, hmessage⟩
    · cases hlookup
  split at h
  · cases h
  · exact .inr h

/-- A path expression fails with its fault of syntax, or as its term does. -/
theorem evaluateExpression_eq_error {expression : String}
    (h : evaluateExpression ctx expression = .error failure) :
    (∃ fault, failure = .malformed fault ∧ Term.parse expression = .error fault) ∨
    ∃ t, Term.parse expression = .ok t ∧ Blames ctx t.idents failure := by
  rw [evaluateExpression] at h
  cases hparse : Term.parse expression with
  | error fault =>
    rw [hparse] at h
    cases h
    exact .inl ⟨fault, rfl, rfl⟩
  | ok t =>
    rw [hparse] at h
    exact .inr ⟨t, rfl, Term.blames_of_eval h⟩

theorem evaluateSegments_eq_error {segments : List Segment}
    (h : evaluateSegments evaluator ctx segments = .error failure) :
    ∃ expression, .expr expression ∈ segments ∧
      evaluateGuarded evaluator ctx expression = .error failure := by
  induction segments with
  | nil => cases h
  | cons segment segments ih =>
    rcases Term.bind_eq_error.mp h with h | ⟨text, -, h⟩
    · cases segment with
      | text text => cases h
      | expr expression => exact ⟨expression, List.mem_cons_self, eq_error_of_map h⟩
    rcases Term.bind_eq_error.mp h with h | ⟨rest, -, h⟩
    · obtain ⟨expression, hmem, hfails⟩ := ih h
      exact ⟨expression, List.mem_cons_of_mem _ hmem, hfails⟩
    · cases h

/-- A source that fails is no template, or one of its expressions fails. -/
theorem evaluateSource_eq_error {source : String}
    (h : evaluateSource evaluator ctx source = .error failure) :
    (∃ fault, failure = .malformed fault ∧ Template.parse source = .error fault) ∨
    ∃ expression, HasExpression source expression ∧
      evaluateGuarded evaluator ctx expression = .error failure := by
  unfold evaluateSource at h
  split at h
  · rename_i fault hparse
    cases h
    exact .inl ⟨fault, rfl, hparse⟩
  · rename_i expression hparse
    exact .inr ⟨expression, ⟨_, hparse, List.mem_singleton.mpr rfl⟩, h⟩
  · rename_i segments hparse
    obtain ⟨expression, hmem, hfails⟩ := evaluateSegments_eq_error (eq_error_of_map h)
    exact .inr ⟨expression, ⟨_, hparse, List.mem_filterMap.mpr ⟨_, hmem, rfl⟩⟩, hfails⟩

/-- The names for which an expression is guarded are identifiers of it, but for those that are left
of a word in a text that does not parse. -/
theorem isIdentifierOf_or_cutOff {name expression : String}
    (h : name ∈ freeIdentifiers expression) :
    IsIdentifierOf name expression ∨
      (∃ fault, Term.parse expression = .error fault) ∧
        Names.CutOff name.toList expression.toList := by
  unfold IsIdentifierOf
  cases hparse : Term.parse expression with
  | ok t =>
    rw [Term.freeIdentifiers_eq hparse, List.mem_eraseDups] at h
    exact .inl (List.mem_of_mem_filter h)
  | error fault => exact (Names.occurs_or_cutOff_of_mem h).imp_right fun hcut => ⟨⟨_, rfl⟩, hcut⟩

/-- What a failure of a source says of the source and the context. -/
inductive Explained (ctx : Context) (source : String) : EvalError → Prop
  | template {fault : SyntaxFault} : Template.parse source = .error fault →
      Explained ctx source (.malformed fault)
  | expression {e : String} {fault : SyntaxFault} : HasExpression source e →
      Term.parse e = .error fault → Explained ctx source (.malformed fault)
  | unresolved {e name : String} {t : Term} : HasExpression source e → Term.parse e = .ok t →
      name ∈ t.idents → ctx.lookup name = none → Explained ctx source (.unresolved name)
  | dataSource {e id message : String} : HasExpression source e →
      (IsIdentifierOf id e ∨
        (∃ fault, Term.parse e = .error fault) ∧ Names.CutOff id.toList e.toList) →
      ctx.lookup id = some (.error message) → Explained ctx source (.dataSource id message)

theorem explained_of_evaluateSource {source : String}
    (h : evaluateSource .path ctx source = .error failure) : Explained ctx source failure := by
  rcases evaluateSource_eq_error h with ⟨fault, rfl, hparse⟩ | ⟨e, he, h⟩
  · exact .template hparse
  rcases evaluateGuarded_eq_error h with ⟨name, message, rfl, hname, herror⟩ | h
  · exact .dataSource he (isIdentifierOf_or_cutOff hname) herror
  rcases evaluateExpression_eq_error h with ⟨fault, rfl, hparse⟩ | ⟨t, hparse, hblames⟩
  · exact .expression he hparse
  · cases hblames with
    | unresolved hname hnone => exact .unresolved he hparse hname hnone
    | dataSource hname herror =>
      exact .dataSource he (.inl (by rw [IsIdentifierOf, hparse]; exact hname)) herror

/-- Where all expressions parse and all that they read is bound to values, nothing fails. -/
theorem not_explained {source : String} {t : Template} (ht : Template.parse source = .ok t)
    (hready : ∀ e ∈ t.expressions, ∃ u, Term.parse e = .ok u ∧
      ∀ name ∈ u.idents, ∃ v, ctx.lookup name = some (.value v)) :
    ¬Explained ctx source failure := by
  have hexpression {e : String} (he : HasExpression source e) : ∃ u, Term.parse e = .ok u ∧
      ∀ name ∈ u.idents, ∃ v, ctx.lookup name = some (.value v) := by
    obtain ⟨t', ht', he⟩ := he
    rw [ht] at ht'
    cases ht'
    exact hready e he
  intro h
  cases h with
  | template hparse =>
    rw [ht] at hparse
    cases hparse
  | expression he hparse =>
    obtain ⟨u, hu, -⟩ := hexpression he
    rw [hu] at hparse
    cases hparse
  | unresolved he hparse hname hnone =>
    obtain ⟨u, hu, hvalues⟩ := hexpression he
    rw [hu] at hparse
    cases hparse
    obtain ⟨v, hv⟩ := hvalues _ hname
    rw [hnone] at hv
    cases hv
  | dataSource he hid herror =>
    obtain ⟨u, hu, hvalues⟩ := hexpression he
    rw [IsIdentifierOf, hu] at hid
    rcases hid with hname | ⟨⟨fault, hfault⟩, -⟩
    · obtain ⟨v, hv⟩ := hvalues _ hname
      rw [herror] at hv
      cases hv
    · cases hfault

end

/-- The syntax tree that is parsed from an expression. -/
theorem exists_syntaxTree {e : String} {t : Term} (h : Term.parse e = .ok t) :
    ∃ d : Term.ParseTree (.phrase .expr), Token.ofText e = .ok d.tokens ∧ d.term = t ∧
      d.syntaxTree.Reads t := by
  obtain ⟨ts, htokens, hderives⟩ := Term.parse_sound h
  obtain ⟨d, rfl, rfl⟩ := Term.derives_iff.mp hderives
  exact ⟨d, htokens, rfl, d.read⟩

/-- **Failures say what is true.** If a source fails for a name that is not bound, then the name is
not bound and the term of one of its expressions has it as an identifier. If it fails for a data
source, then this is bound to the failure with that message, and it is an identifier of one of the
expressions, or the expression does not parse and the name is what is left in it of a word that was
taken for a part of a number. If it fails for a fault of syntax, this is the fault of the template
or of one of the expressions, whatever is bound. No script fails. If all expressions parse and all
their identifiers are bound to values, the source has a value. In the syntax tree that is parsed
from an expression only known operators stand between operands, so its evaluation, which is that of
the term, never meets another one. -/
theorem failure_of_evaluateSource (ctx : Context) (source : String) :
    (∀ name, evaluateSource .path ctx source = .error (.unresolved name) →
      ctx.lookup name = none ∧ ∃ e t, HasExpression source e ∧ Term.parse e = .ok t ∧
        name ∈ t.idents) ∧
    (∀ id message, evaluateSource .path ctx source = .error (.dataSource id message) →
      ctx.lookup id = some (.error message) ∧ ∃ e, HasExpression source e ∧
        (IsIdentifierOf id e ∨
          (∃ fault, Term.parse e = .error fault) ∧ Names.CutOff id.toList e.toList)) ∧
    (∀ fault, evaluateSource .path ctx source = .error (.malformed fault) →
      Template.parse source = .error fault ∨
        ∃ e, HasExpression source e ∧ Term.parse e = .error fault) ∧
    (∀ message, evaluateSource .path ctx source ≠ .error (.script message)) ∧
    (∀ t, Template.parse source = .ok t →
      (∀ e ∈ t.expressions, ∃ u, Term.parse e = .ok u ∧
        ∀ name ∈ u.idents, ∃ v, ctx.lookup name = some (.value v)) →
      ∃ v, evaluateSource .path ctx source = .ok v) ∧
    ∀ e t, Term.parse e = .ok t →
      ∃ d : Term.ParseTree (.phrase .expr), Token.ofText e = .ok d.tokens ∧ d.term = t ∧
        d.syntaxTree.Supported ∧ d.syntaxTree.eval ctx = t.eval ctx ∧
        ∀ o, d.syntaxTree.eval ctx ≠ .error (.malformed (.unsupported o)) := by
  refine ⟨fun name h => ?_, fun id message h => ?_, fun fault h => ?_, fun message h => ?_,
    fun t ht hready => ?_, fun e t h => ?_⟩
  · cases explained_of_evaluateSource h with
    | unresolved he hparse hname hnone => exact ⟨hnone, _, _, he, hparse, hname⟩
  · cases explained_of_evaluateSource h with
    | dataSource he hid herror => exact ⟨herror, _, he, hid⟩
  · cases explained_of_evaluateSource h with
    | template hparse => exact .inl hparse
    | expression he hparse => exact .inr ⟨_, he, hparse⟩
  · cases explained_of_evaluateSource h
  · cases hvalue : evaluateSource .path ctx source with
    | ok v => exact ⟨v, rfl⟩
    | error failure => exact absurd (explained_of_evaluateSource hvalue) (not_explained ht hready)
  · obtain ⟨d, htokens, rfl, hreads⟩ := exists_syntaxTree h
    refine ⟨d, htokens, rfl, hreads.supported, hreads.eval_eq ctx, fun o => ?_⟩
    rw [hreads.eval_eq]
    exact Term.eval_ne_malformed ctx d.term (.unsupported o)

theorem failure_of_evaluateSource_users :
    (evaluateSource .path loadingContext "$\x7bflag || missing\x7d" =
        .error (.unresolved "missing") ∧
      loadingContext.lookup "missing" = none) ∧
    (evaluateSource .path loadingContext "by $\x7busers\x7d" =
        .error (.dataSource "users" "timeout") ∧
      loadingContext.lookup "users" = some (.error "timeout")) ∧
    (evaluateSource .path loadingContext "$\x7busers" = .error (.malformed (.unclosedGroup 0)) ∧
      (Template.parse "$\x7busers" = .error (.unclosedGroup 0) ∨
        ∃ e, HasExpression "$\x7busers" e ∧ Term.parse e = .error (.unclosedGroup 0))) ∧
    (∃ v, evaluateSource .path loadingContext "$\x7bflag\x7d" = .ok v) ∧
    ∃ d : Term.ParseTree (.phrase .expr), Token.ofText "flag" = .ok d.tokens ∧
      d.term = .ident "flag" ∧ d.syntaxTree.Supported := by
  have hmissing : evaluateSource .path loadingContext "$\x7bflag || missing\x7d" =
      .error (.unresolved "missing") := eq_error_of_map (f := Value.display) (by decide +kernel)
  have husers : evaluateSource .path loadingContext "by $\x7busers\x7d" =
      .error (.dataSource "users" "timeout") :=
    eq_error_of_map (f := Value.display) (by decide +kernel)
  have hunclosed : evaluateSource .path loadingContext "$\x7busers" =
      .error (.malformed (.unclosedGroup 0)) :=
    eq_error_of_map (f := Value.display) (by decide +kernel)
  have htokens : Token.ofText "flag" = .ok [.ident "flag"] := by decide +kernel
  have hparse : Term.parse "flag" = .ok (.ident "flag") := Term.bind_eq_ok.mpr ⟨_, htokens, rfl⟩
  have htemplate : Template.parse "$\x7bflag\x7d" = .ok (.expr "flag") := by decide +kernel
  obtain ⟨-, -, -, -, hready, htree⟩ := failure_of_evaluateSource loadingContext "$\x7bflag\x7d"
  refine ⟨⟨hmissing, ((failure_of_evaluateSource loadingContext _).1 _ hmissing).1⟩,
    ⟨husers, ((failure_of_evaluateSource loadingContext _).2.1 _ _ husers).1⟩,
    ⟨hunclosed, (failure_of_evaluateSource loadingContext _).2.2.1 _ hunclosed⟩,
    hready _ htemplate fun e he => ?_, ?_⟩
  · obtain rfl := List.mem_singleton.mp he
    refine ⟨_, hparse, fun name hname => ?_⟩
    obtain rfl := List.mem_singleton.mp hname
    exact ⟨_, rfl⟩
  · obtain ⟨d, hd, hterm, hsupported, -⟩ := htree _ _ hparse
    exact ⟨d, hd, hterm, hsupported⟩

/-- A failed source under the name that is left of a word after a number. -/
def leftContext : Context := Context.empty.withBinding "_b" (.error "timeout")

/-- The text has the word `a_b` after a number and no word `_b`. -/
theorem not_occurs_rest : ¬Names.Occurs "_b".toList "2a_b".toList := by
  rintro ⟨before, after, hsplit, -, hwhole⟩
  have hlength : before.length ≤ 2 := by
    have hsum := congrArg List.length hsplit
    have htext : "2a_b".toList.length = 4 := by decide
    have hname : "_b".toList.length = 2 := by decide
    rw [List.length_append, List.length_append, htext, hname] at hsum
    omega
  have hbefore : before = ['2', 'a'] := by
    have hchars : ['2', 'a', '_', 'b'] = before ++ '_' :: 'b' :: after := hsplit
    rcases before with _ | ⟨c, _ | ⟨d, _ | ⟨e, before⟩⟩⟩
    · simp at hchars
    · simp at hchars
    · simp only [List.cons_append, List.cons.injEq] at hchars
      rw [← hchars.1, ← hchars.2.1]
    · simp at hlength
  subst hbefore
  exact hwhole ['a'] ⟨['2'], rfl⟩ (List.cons_ne_nil _ _) (by decide +kernel)

/-- A source may fail for a name that is no identifier of its expressions. -/
theorem not_forall_isIdentifierOf :
    ¬∀ (ctx : Context) (source id message : String),
      evaluateSource .path ctx source = .error (.dataSource id message) →
      ∃ e, HasExpression source e ∧ IsIdentifierOf id e := by
  intro hall
  have hfails : evaluateSource .path leftContext "2a_b" = .error (.dataSource "_b" "timeout") :=
    eq_error_of_map (f := Value.display) (by decide +kernel)
  obtain ⟨e, ⟨t, ht, he⟩, hid⟩ := hall _ _ _ _ hfails
  have htemplate : Template.parse "2a_b" = .ok (.expr "2a_b") := by decide +kernel
  rw [htemplate] at ht
  cases ht
  obtain rfl := List.mem_singleton.mp he
  have hparse : (Term.parse "2a_b").isOk = false := by decide +kernel
  unfold IsIdentifierOf at hid
  cases hterm : Term.parse "2a_b" with
  | ok t =>
    rw [hterm] at hparse
    cases hparse
  | error fault =>
    rw [hterm] at hid
    exact not_occurs_rest hid

end LivePage
