import LivePage.Proofs.Expr.Grammar

/-!
# The recursion of the parser

The functions of the parser call each other with one unit of fuel less. Here the calls are data:
`Call.body` is what a call returns when the calls that it makes are answered by a given function,
and says nothing of fuel. Every call that is made has fewer tokens left, or the same tokens and a
lower rank, so the recursion ends. A call that went on for ever would leave its own answer open;
instead the recursion determines all answers, and the fuel of `Term.ofTokens` carries to them.

* `Call`, `Call.body`, `Call.run`: the calls, what they return, and the functions of the parser.
* `Call.body_congr`: a call depends on lighter calls only.
* `Call.run_eq_result`: more fuel than the weight of a call makes no difference.
* `Call.eq_result`: the results are the only answers that satisfy the recursion.
-/

namespace LivePage

namespace Term

/-- A phrase of any level has tokens. -/
theorem Derives.tokens_ne_nil {level : Level} {ts : List Token} {t : Term}
    (h : Derives level ts t) : ts ≠ [] := by
  induction h <;> simp_all

/-- The calls of the functions of the parser. -/
inductive Call
  | expr (ts : List Token)
  | or (ts : List Token)
  | orRest (left : Term) (ts : List Token)
  | and (ts : List Token)
  | andRest (left : Term) (ts : List Token)
  | comparison (ts : List Token)
  | unary (ts : List Token)
  | members (target : Term) (ts : List Token)
  | named (target : Term) (ts : List Token)
  | operand (ts : List Token)

namespace Call

/-- The tokens that are left when a call is made. -/
@[simp]
def tokens : Call → List Token
  | .expr ts | .or ts | .orRest _ ts | .and ts | .andRest _ ts | .comparison ts | .unary ts
  | .members _ ts | .named _ ts | .operand ts => ts

/-- The calls that read a phrase from its first token, not what goes on after one. -/
def ReadsPhrase : Call → Prop
  | .orRest .. | .andRest .. | .members .. | .named .. => False
  | _ => True

/-- The place of a function in a chain of calls that reads no token. -/
@[simp]
def rank : Call → Nat
  | .expr _ => 5
  | .or _ => 4
  | .and _ => 3
  | .comparison _ => 2
  | .unary _ => 1
  | _ => 0

/-- What decreases from a call to the calls that it makes. -/
def weight (c : Call) : Nat := 8 * c.tokens.length + c.rank

/-- What a call returns when `f` answers the calls that it makes. -/
def body (f : Call → Parsed) : Call → Parsed
  | .expr ts => do
    let (test, ts) ← f (.or ts)
    match ts with
    | .op .question :: ts =>
      let (yes, ts) ← f (.expr ts)
      let ts ← expect .colon ts
      let (no, ts) ← f (.expr ts)
      return (.cond test yes no, ts)
    | ts => return (test, ts)
  | .or ts => do
    let (left, ts) ← f (.and ts)
    f (.orRest left ts)
  | .orRest left (.op .or :: ts) => do
    let (right, ts) ← f (.and ts)
    f (.orRest (.or left right) ts)
  | .orRest left ts => .ok (left, ts)
  | .and ts => do
    let (left, ts) ← f (.comparison ts)
    f (.andRest left ts)
  | .andRest left (.op .and :: ts) => do
    let (right, ts) ← f (.comparison ts)
    f (.andRest (.and left right) ts)
  | .andRest left ts => .ok (left, ts)
  | .comparison ts => do
    let (left, ts) ← f (.unary ts)
    match ts with
    | .op o :: rest =>
      match o.comparison? with
      | some kind =>
        let (right, ts) ← f (.unary rest)
        return (.compare kind left right, ts)
      | none => return (left, ts)
    | ts => return (left, ts)
  | .unary (.op .not :: ts) => do
    let (inner, ts) ← f (.unary ts)
    return (.not inner, ts)
  | .unary (.op .minus :: ts) => do
    let (inner, ts) ← f (.unary ts)
    return (.neg inner, ts)
  | .unary ts => do
    let (target, ts) ← f (.operand ts)
    f (.members target ts)
  | .members target (.op .dot :: ts) => f (.named target ts)
  | .members target (.op .optionalDot :: ts) => f (.named target ts)
  | .members target (.op .openBracket :: ts) => do
    let (key, ts) ← f (.expr ts)
    let ts ← expect .closeBracket ts
    f (.members (.member target key) ts)
  | .members target ts => .ok (target, ts)
  | .named target (.ident name :: ts) =>
    f (.members (.member target (.literal (.json (.str name)))) ts)
  | .named _ _ => .error .expectedName
  | .operand [] => .error .unexpectedEnd
  | .operand (.num x :: ts) => .ok (.literal (.json (numberJson x)), ts)
  | .operand (.str content :: ts) => .ok (.literal (.json (.str content)), ts)
  | .operand (.ident name :: ts) => .ok (ofWord name, ts)
  | .operand (.op .openParen :: ts) => do
    let (inner, ts) ← f (.expr ts)
    let ts ← expect .closeParen ts
    return (inner, ts)
  | .operand (.op o :: _) => .error (.unexpected o)

/-- What the function of the parser returns, as far as some fuel carries. -/
def run (fuel : Nat) : Call → Parsed
  | .expr ts => parseExpr fuel ts
  | .or ts => parseOr fuel ts
  | .orRest left ts => parseOrRest fuel left ts
  | .and ts => parseAnd fuel ts
  | .andRest left ts => parseAndRest fuel left ts
  | .comparison ts => parseComparison fuel ts
  | .unary ts => parseUnary fuel ts
  | .members target ts => parseMembers fuel target ts
  | .named target ts => parseNamed fuel target ts
  | .operand ts => parseOperand fuel ts

/-- A unit of fuel is spent on one call. -/
theorem run_succ (fuel : Nat) (c : Call) : c.run (fuel + 1) = c.body (run fuel) := by
  fun_cases body
  case case4 h => exact parseOrRest.eq_3 _ _ _ h
  case case7 h => exact parseAndRest.eq_3 _ _ _ h
  case case11 hnot hminus => exact parseUnary.eq_4 _ _ hnot hminus
  case case15 hdot hopt hopen => exact parseMembers.eq_5 _ _ _ hdot hopt hopen
  case case17 h => exact parseNamed.eq_3 _ _ _ h
  case case23 h => exact parseOperand.eq_7 _ _ _ h
  all_goals rfl

/-! ## Lighter calls -/

theorem rank_le (c : Call) : c.rank ≤ 5 := by
  cases c <;> simp

theorem weight_lt_of_length_lt {c c' : Call} (h : c'.tokens.length < c.tokens.length) :
    c'.weight < c.weight := by
  have := c'.rank_le
  unfold weight
  omega

/-- Answers to the calls that read a phrase leave fewer tokens than there were. -/
def Consumes (f : Call → Parsed) : Prop :=
  ∀ {c : Call} {t : Term} {rest : List Token},
    c.ReadsPhrase → f c = .ok (t, rest) → rest.length < c.tokens.length

theorem bind_congr_of_ok {ε α β : Type} {x y : Except ε α} {k l : α → Except ε β} (hxy : x = y)
    (h : ∀ a, y = .ok a → k a = l a) : x >>= k = y >>= l := by
  subst hxy
  cases x with
  | error e => rfl
  | ok a => exact h a rfl

theorem expect_length_lt {o : Operator} {ts rest : List Token} (h : expect o ts = .ok rest) :
    rest.length < ts.length := by
  simp [expect_eq_ok h]

/-- Two functions answer alike the calls that are lighter than `c`. -/
def Agree (f g : Call → Parsed) (c : Call) : Prop := ∀ c' : Call, c'.weight < c.weight → f c' = g c'

section

variable {f g : Call → Parsed} {ts : List Token}

/-- Calls that come after a token has been read are answered alike. -/
theorem Agree.shorter {c c' : Call} (h : Agree f g c) (hc' : c'.tokens.length < c.tokens.length) :
    f c' = g c' :=
  h c' (weight_lt_of_length_lt hc')

theorem body_expr_congr (h : Agree f g (.expr ts)) (hg : Consumes g) :
    body f (.expr ts) = body g (.expr ts) := by
  refine bind_congr_of_ok (h (.or ts) (by simp [weight])) fun (test, us) hor => ?_
  have hus : us.length < ts.length := hg (c := .or ts) trivial hor
  dsimp only
  split
  · rename_i vs
    have hvs : vs.length < ts.length := Nat.lt_of_succ_lt hus
    refine bind_congr_of_ok (h.shorter hvs) fun (yes, ws) hyes => ?_
    refine bind_congr_of_ok rfl fun xs hcolon => ?_
    have hxs := Nat.lt_trans (expect_length_lt hcolon) (hg (c := .expr vs) trivial hyes)
    exact bind_congr_of_ok (h.shorter (Nat.lt_trans hxs hvs)) fun _ _ => rfl
  · rfl

theorem body_comparison_congr (h : Agree f g (.comparison ts)) (hg : Consumes g) :
    body f (.comparison ts) = body g (.comparison ts) := by
  refine bind_congr_of_ok (h (.unary ts) (by simp [weight])) fun (left, us) hunary => ?_
  have hus : us.length < ts.length := hg (c := .unary ts) trivial hunary
  dsimp only
  split
  · split
    · exact bind_congr_of_ok (h.shorter (Nat.lt_of_succ_lt hus)) fun _ _ => rfl
    · rfl
  · rfl

/-- What a call returns depends on lighter calls only. -/
theorem body_congr {c : Call} (h : Agree f g c) (hg : Consumes g) : c.body f = c.body g := by
  fun_cases body f c with
  | case1 ts => exact body_expr_congr h hg
  | case2 ts =>
    refine bind_congr_of_ok (h (.and ts) (by simp [weight])) fun _ hand => ?_
    exact h.shorter (hg (c := .and ts) trivial hand)
  | case3 left ts =>
    refine bind_congr_of_ok (h.shorter (by simp)) fun _ hand => ?_
    exact h.shorter (Nat.lt_succ_of_lt (hg (c := .and ts) trivial hand))
  | case4 left ts hts => exact (body.eq_4 g left ts hts).symm
  | case5 ts =>
    refine bind_congr_of_ok (h (.comparison ts) (by simp [weight])) fun _ hcomparison => ?_
    exact h.shorter (hg (c := .comparison ts) trivial hcomparison)
  | case6 left ts =>
    refine bind_congr_of_ok (h.shorter (by simp)) fun _ hcomparison => ?_
    exact h.shorter (Nat.lt_succ_of_lt (hg (c := .comparison ts) trivial hcomparison))
  | case7 left ts hts => exact (body.eq_7 g left ts hts).symm
  | case8 ts => exact body_comparison_congr h hg
  | case9 ts | case10 ts => exact bind_congr_of_ok (h.shorter (by simp)) fun _ _ => rfl
  | case11 ts hnot hminus =>
    rw [body.eq_11 g ts hnot hminus]
    refine bind_congr_of_ok (h (.operand ts) (by simp [weight])) fun _ hoperand => ?_
    exact h.shorter (hg (c := .operand ts) trivial hoperand)
  | case12 target ts | case13 target ts => exact h.shorter (by simp)
  | case14 target ts =>
    refine bind_congr_of_ok (h.shorter (by simp)) fun _ hexpr => ?_
    refine bind_congr_of_ok rfl fun _ hclose => ?_
    have hlen := Nat.lt_trans (expect_length_lt hclose) (hg (c := .expr ts) trivial hexpr)
    exact h.shorter (Nat.lt_succ_of_lt hlen)
  | case15 target ts hdot hopt hopen => exact (body.eq_15 g target ts hdot hopt hopen).symm
  | case16 target name ts => exact h.shorter (by simp)
  | case17 target ts hname => exact (body.eq_17 g target ts hname).symm
  | case18 | case19 | case20 | case21 => rfl
  | case22 ts => exact bind_congr_of_ok (h.shorter (by simp)) fun _ _ => rfl
  | case23 o ts ho => exact (body.eq_23 g o ts ho).symm

end

/-! ## The answers -/

theorem consumes_of_reads {level : Level} {p : List Token → Parsed} (h : Reads level p)
    {ts rest : List Token} {t : Term} (hread : p ts = .ok (t, rest)) : rest.length < ts.length := by
  obtain ⟨used, rfl, hused⟩ := h hread
  have := List.length_pos_iff.mpr hused.tokens_ne_nil
  simp only [List.length_append]
  omega

theorem run_consumes (fuel : Nat) : Consumes (run fuel) := by
  intro c t rest hc hread
  have h := sound fuel
  cases c with
  | expr ts => exact consumes_of_reads h.expr hread
  | or ts => exact consumes_of_reads h.or hread
  | and ts => exact consumes_of_reads h.and hread
  | comparison ts => exact consumes_of_reads h.comparison hread
  | unary ts => exact consumes_of_reads h.unary hread
  | operand ts => exact consumes_of_reads h.operand hread
  | orRest | andRest | members | named => exact hc.elim

theorem run_eq_run_succ {fuel : Nat} {c : Call} (h : c.weight < fuel) :
    c.run fuel = c.run (fuel + 1) := by
  induction fuel generalizing c with
  | zero => omega
  | succ fuel ih =>
    rw [run_succ, run_succ]
    exact body_congr (fun c' hc' => ih (by omega)) (run_consumes _)

/-- What the parser returns for a call. -/
def result (c : Call) : Parsed := c.run (c.weight + 1)

/-- More fuel than the weight of a call makes no difference. -/
theorem run_eq_result {fuel : Nat} {c : Call} (h : c.weight < fuel) : c.run fuel = c.result := by
  induction h with
  | refl => rfl
  | step h ih => rw [← run_eq_run_succ h, ih]

theorem result_consumes : Consumes result := fun hc h => run_consumes _ hc h

/-- The results of the parser satisfy its recursion. -/
theorem result_eq_body (c : Call) : c.result = c.body result := by
  rw [result, run_succ]
  exact body_congr (fun c' hc' => run_eq_result hc') result_consumes

/-- The results of the parser are the only answers that satisfy its recursion. -/
theorem eq_result {f : Call → Parsed} (hf : ∀ c : Call, f c = c.body f) : f = result := by
  funext c
  induction hw : c.weight using Nat.strongRecOn generalizing c with
  | ind w ih =>
    subst hw
    rw [hf, result_eq_body]
    exact body_congr (fun c' hc' => ih _ hc' c' rfl) result_consumes

end Call

end Term

end LivePage
