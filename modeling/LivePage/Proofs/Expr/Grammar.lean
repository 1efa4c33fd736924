import LivePage.Expr.Parser

/-!
# The grammar of expressions

The grammar is given by the tokens that each level of binding writes for a term. What the parser
returns is derived in it from the tokens that it has read.

* `Level`, `Derives`: the levels, loosest first, and their derivations.
* `parse_sound`: the term of an expression is derived from all its tokens.
-/

namespace LivePage

namespace Term

/-- The levels of binding, from the conditional to the operands. -/
inductive Level
  | expr | or | and | comparison | unary | access | primary

/-- The tokens that write a term at a level of binding. -/
inductive Derives : Level → List Token → Term → Prop
  | ofOr {ts : List Token} {t : Term} : Derives .or ts t → Derives .expr ts t
  /-- `or ? expr : expr` -/
  | cond {as bs cs : List Token} {test yes no : Term} :
      Derives .or as test → Derives .expr bs yes → Derives .expr cs no →
      Derives .expr (as ++ .op .question :: bs ++ .op .colon :: cs) (.cond test yes no)
  | ofAnd {ts : List Token} {t : Term} : Derives .and ts t → Derives .or ts t
  /-- `or || and` -/
  | or {as bs : List Token} {left right : Term} :
      Derives .or as left → Derives .and bs right →
      Derives .or (as ++ .op .or :: bs) (.or left right)
  | ofComparison {ts : List Token} {t : Term} : Derives .comparison ts t → Derives .and ts t
  /-- `and && comparison` -/
  | and {as bs : List Token} {left right : Term} :
      Derives .and as left → Derives .comparison bs right →
      Derives .and (as ++ .op .and :: bs) (.and left right)
  | ofUnary {ts : List Token} {t : Term} : Derives .unary ts t → Derives .comparison ts t
  /-- `unary op unary` -/
  | compare {as bs : List Token} {left right : Term} {o : Operator} {comparison : Comparison} :
      o.comparison? = some comparison → Derives .unary as left → Derives .unary bs right →
      Derives .comparison (as ++ .op o :: bs) (.compare comparison left right)
  | ofAccess {ts : List Token} {t : Term} : Derives .access ts t → Derives .unary ts t
  /-- `! unary` -/
  | not {ts : List Token} {t : Term} :
      Derives .unary ts t → Derives .unary (.op .not :: ts) (.not t)
  /-- `- unary` -/
  | neg {ts : List Token} {t : Term} :
      Derives .unary ts t → Derives .unary (.op .minus :: ts) (.neg t)
  | ofPrimary {ts : List Token} {t : Term} : Derives .primary ts t → Derives .access ts t
  /-- `access . name` and `access ?. name` -/
  | named {ts : List Token} {target : Term} {o : Operator} (name : String) :
      o = .dot ∨ o = .optionalDot → Derives .access ts target →
      Derives .access (ts ++ [.op o, .ident name])
        (.member target (.literal (.json (.str name))))
  /-- `access [ expr ]` -/
  | index {ts ks : List Token} {target key : Term} :
      Derives .access ts target → Derives .expr ks key →
      Derives .access (ts ++ .op .openBracket :: ks ++ [.op .closeBracket]) (.member target key)
  | num (x : Binary64) : Derives .primary [.num x] (.literal (.json (numberJson x)))
  | str (content : String) : Derives .primary [.str content] (.literal (.json (.str content)))
  | word (name : String) : Derives .primary [.ident name] (ofWord name)
  /-- `( expr )` -/
  | paren {ts : List Token} {t : Term} :
      Derives .expr ts t → Derives .primary (.op .openParen :: ts ++ [.op .closeParen]) t

/-! ## What the parser reads -/

theorem bind_eq_ok {ε α β : Type} {x : Except ε α} {f : α → Except ε β} {b : β} :
    x >>= f = .ok b ↔ ∃ a, x = .ok a ∧ f a = .ok b := by
  cases x with
  | error e => exact ⟨nofun, fun ⟨_, h, _⟩ => nomatch h⟩
  | ok a => exact ⟨fun h => ⟨a, rfl, h⟩, fun ⟨_, rfl, h⟩ => h⟩

theorem expect_eq_ok {o : Operator} {ts rest : List Token} (h : expect o ts = .ok rest) :
    ts = .op o :: rest := by
  unfold expect at h
  split at h
  · split at h
    · rename_i hp
      rw [hp, Except.ok.inj h]
    · cases h
  · cases h

/-- A parsing function reads tokens from which its term is derived. -/
def Reads (level : Level) (p : List Token → Parsed) : Prop :=
  ∀ {ts t rest}, p ts = .ok (t, rest) → ∃ used, ts = used ++ rest ∧ Derives level used t

/-- A parsing function that goes on after a term reads tokens that continue the derivation. -/
def ReadsOn (level : Level) (p : Term → List Token → Parsed) : Prop :=
  ∀ {before left ts t rest}, Derives level before left → p left ts = .ok (t, rest) →
    ∃ used, ts = used ++ rest ∧ Derives level (before ++ used) t

/-- After a point is read, the rest of a member access continues the derivation of its target. -/
def ReadsNamed (p : Term → List Token → Parsed) : Prop :=
  ∀ {o before left ts t rest}, o = Operator.dot ∨ o = .optionalDot →
    Derives .access before left → p left ts = .ok (t, rest) →
    ∃ used, ts = used ++ rest ∧ Derives .access (before ++ .op o :: used) t

/-- The functions of the parser read what they return, as far as some fuel carries. -/
structure Sound (fuel : Nat) : Prop where
  expr : Reads .expr (parseExpr fuel)
  or : Reads .or (parseOr fuel)
  orRest : ReadsOn .or (parseOrRest fuel)
  and : Reads .and (parseAnd fuel)
  andRest : ReadsOn .and (parseAndRest fuel)
  comparison : Reads .comparison (parseComparison fuel)
  unary : Reads .unary (parseUnary fuel)
  members : ReadsOn .access (parseMembers fuel)
  named : ReadsNamed (parseNamed fuel)
  operand : Reads .primary (parseOperand fuel)

namespace Sound

variable {fuel : Nat}

theorem expr_succ (h : Sound fuel) : Reads .expr (parseExpr (fuel + 1)) := by
  intro ts t rest hread
  rw [parseExpr, bind_eq_ok] at hread
  obtain ⟨⟨test, ts₁⟩, hor, hread⟩ := hread
  obtain ⟨as, rfl, ha⟩ := h.or hor
  dsimp only at hread
  split at hread
  · rw [bind_eq_ok] at hread
    obtain ⟨⟨yes, ts₂⟩, hyes, hread⟩ := hread
    rw [bind_eq_ok] at hread
    obtain ⟨ts₃, hcolon, hread⟩ := hread
    rw [bind_eq_ok] at hread
    obtain ⟨⟨no, ts₄⟩, hno, hread⟩ := hread
    obtain ⟨bs, rfl, hb⟩ := h.expr hyes
    obtain rfl := expect_eq_ok hcolon
    obtain ⟨cs, rfl, hc⟩ := h.expr hno
    cases hread
    exact ⟨_, by simp, .cond ha hb hc⟩
  · cases hread
    exact ⟨as, rfl, .ofOr ha⟩

theorem or_succ (h : Sound fuel) : Reads .or (parseOr (fuel + 1)) := by
  intro ts t rest hread
  rw [parseOr, bind_eq_ok] at hread
  obtain ⟨⟨left, ts₁⟩, hleft, hread⟩ := hread
  obtain ⟨as, rfl, ha⟩ := h.and hleft
  obtain ⟨bs, rfl, hb⟩ := h.orRest (.ofAnd ha) hread
  exact ⟨as ++ bs, by simp, hb⟩

theorem orRest_succ (h : Sound fuel) : ReadsOn .or (parseOrRest (fuel + 1)) := by
  intro before left ts t rest hb hread
  by_cases hop : ∃ us, ts = .op .or :: us
  · obtain ⟨us, rfl⟩ := hop
    rw [parseOrRest, bind_eq_ok] at hread
    obtain ⟨⟨right, ts₁⟩, hright, hread⟩ := hread
    obtain ⟨as, rfl, ha⟩ := h.and hright
    obtain ⟨cs, rfl, hc⟩ := h.orRest (.or hb ha) hread
    exact ⟨.op .or :: as ++ cs, by simp, by simpa using hc⟩
  · rw [parseOrRest.eq_3 _ _ _ fun us hus => hop ⟨us, hus⟩] at hread
    cases hread
    exact ⟨[], rfl, by simpa using hb⟩

theorem and_succ (h : Sound fuel) : Reads .and (parseAnd (fuel + 1)) := by
  intro ts t rest hread
  rw [parseAnd, bind_eq_ok] at hread
  obtain ⟨⟨left, ts₁⟩, hleft, hread⟩ := hread
  obtain ⟨as, rfl, ha⟩ := h.comparison hleft
  obtain ⟨bs, rfl, hb⟩ := h.andRest (.ofComparison ha) hread
  exact ⟨as ++ bs, by simp, hb⟩

theorem andRest_succ (h : Sound fuel) : ReadsOn .and (parseAndRest (fuel + 1)) := by
  intro before left ts t rest hb hread
  by_cases hop : ∃ us, ts = .op .and :: us
  · obtain ⟨us, rfl⟩ := hop
    rw [parseAndRest, bind_eq_ok] at hread
    obtain ⟨⟨right, ts₁⟩, hright, hread⟩ := hread
    obtain ⟨as, rfl, ha⟩ := h.comparison hright
    obtain ⟨cs, rfl, hc⟩ := h.andRest (.and hb ha) hread
    exact ⟨.op .and :: as ++ cs, by simp, by simpa using hc⟩
  · rw [parseAndRest.eq_3 _ _ _ fun us hus => hop ⟨us, hus⟩] at hread
    cases hread
    exact ⟨[], rfl, by simpa using hb⟩

theorem comparison_succ (h : Sound fuel) : Reads .comparison (parseComparison (fuel + 1)) := by
  intro ts t rest hread
  rw [parseComparison, bind_eq_ok] at hread
  obtain ⟨⟨left, ts₁⟩, hleft, hread⟩ := hread
  obtain ⟨as, rfl, ha⟩ := h.unary hleft
  dsimp only at hread
  split at hread
  · split at hread
    · rename_i hop
      rw [bind_eq_ok] at hread
      obtain ⟨⟨right, ts₂⟩, hright, hread⟩ := hread
      obtain ⟨bs, rfl, hb⟩ := h.unary hright
      cases hread
      exact ⟨_, by simp, .compare hop ha hb⟩
    · cases hread
      exact ⟨as, rfl, .ofUnary ha⟩
  · cases hread
    exact ⟨as, rfl, .ofUnary ha⟩

theorem unary_succ (h : Sound fuel) : Reads .unary (parseUnary (fuel + 1)) := by
  intro ts t rest hread
  by_cases hnot : ∃ us, ts = .op .not :: us
  · obtain ⟨us, rfl⟩ := hnot
    rw [parseUnary, bind_eq_ok] at hread
    obtain ⟨⟨operand, ts₁⟩, hoperand, hread⟩ := hread
    obtain ⟨as, rfl, ha⟩ := h.unary hoperand
    cases hread
    exact ⟨.op .not :: as, rfl, .not ha⟩
  by_cases hminus : ∃ us, ts = .op .minus :: us
  · obtain ⟨us, rfl⟩ := hminus
    rw [parseUnary, bind_eq_ok] at hread
    obtain ⟨⟨operand, ts₁⟩, hoperand, hread⟩ := hread
    obtain ⟨as, rfl, ha⟩ := h.unary hoperand
    cases hread
    exact ⟨.op .minus :: as, rfl, .neg ha⟩
  rw [parseUnary.eq_4 _ _ (fun us hus => hnot ⟨us, hus⟩) (fun us hus => hminus ⟨us, hus⟩),
    bind_eq_ok] at hread
  obtain ⟨⟨target, ts₁⟩, htarget, hread⟩ := hread
  obtain ⟨as, rfl, ha⟩ := h.operand htarget
  obtain ⟨bs, rfl, hb⟩ := h.members (.ofPrimary ha) hread
  exact ⟨as ++ bs, by simp, .ofAccess hb⟩

theorem members_succ (h : Sound fuel) : ReadsOn .access (parseMembers (fuel + 1)) := by
  intro before left ts t rest hb hread
  by_cases hdot : ∃ us, ts = .op .dot :: us
  · obtain ⟨us, rfl⟩ := hdot
    rw [parseMembers] at hread
    obtain ⟨as, rfl, ha⟩ := h.named (.inl rfl) hb hread
    exact ⟨.op .dot :: as, rfl, ha⟩
  by_cases hopt : ∃ us, ts = .op .optionalDot :: us
  · obtain ⟨us, rfl⟩ := hopt
    rw [parseMembers] at hread
    obtain ⟨as, rfl, ha⟩ := h.named (.inr rfl) hb hread
    exact ⟨.op .optionalDot :: as, rfl, ha⟩
  by_cases hopen : ∃ us, ts = .op .openBracket :: us
  · obtain ⟨us, rfl⟩ := hopen
    rw [parseMembers, bind_eq_ok] at hread
    obtain ⟨⟨key, ts₁⟩, hkey, hread⟩ := hread
    rw [bind_eq_ok] at hread
    obtain ⟨ts₂, hclose, hread⟩ := hread
    obtain ⟨ks, rfl, hk⟩ := h.expr hkey
    obtain rfl := expect_eq_ok hclose
    obtain ⟨as, rfl, ha⟩ := h.members (.index hb hk) hread
    exact ⟨.op .openBracket :: ks ++ .op .closeBracket :: as, by simp, by simpa using ha⟩
  rw [parseMembers.eq_5 _ _ _ (fun us hus => hdot ⟨us, hus⟩) (fun us hus => hopt ⟨us, hus⟩)
    (fun us hus => hopen ⟨us, hus⟩)] at hread
  cases hread
  exact ⟨[], rfl, by simpa using hb⟩

theorem named_succ (h : Sound fuel) : ReadsNamed (parseNamed (fuel + 1)) := by
  intro o before left ts t rest ho hb hread
  by_cases hident : ∃ name us, ts = .ident name :: us
  · obtain ⟨name, us, rfl⟩ := hident
    rw [parseNamed] at hread
    obtain ⟨as, rfl, ha⟩ := h.members (.named name ho hb) hread
    exact ⟨.ident name :: as, rfl, by simpa using ha⟩
  · rw [parseNamed.eq_3 _ _ _ fun name us hus => hident ⟨name, us, hus⟩] at hread
    cases hread

theorem operand_succ (h : Sound fuel) : Reads .primary (parseOperand (fuel + 1)) := by
  intro ts t rest hread
  rcases ts with _ | ⟨_ | _ | x | o, ts⟩
  · cases hread
  · rename_i name
    cases hread
    exact ⟨[.ident name], rfl, .word name⟩
  · rename_i content
    cases hread
    exact ⟨[.str content], rfl, .str content⟩
  · cases hread
    exact ⟨[.num x], rfl, .num x⟩
  · by_cases ho : o = .openParen
    · subst ho
      rw [parseOperand, bind_eq_ok] at hread
      obtain ⟨⟨inner, ts₁⟩, hinner, hread⟩ := hread
      rw [bind_eq_ok] at hread
      obtain ⟨ts₂, hclose, hread⟩ := hread
      obtain ⟨as, rfl, ha⟩ := h.expr hinner
      obtain rfl := expect_eq_ok hclose
      cases hread
      exact ⟨_, by simp, .paren ha⟩
    · rw [parseOperand.eq_7 _ _ _ ho] at hread
      cases hread

end Sound

/-- Without fuel nothing is read, and one more unit carries one call further. -/
theorem sound (fuel : Nat) : Sound fuel := by
  induction fuel with
  | zero =>
    exact ⟨nofun, nofun, fun _ => nofun, nofun, fun _ => nofun, nofun, nofun, fun _ => nofun,
      fun _ _ => nofun, nofun⟩
  | succ fuel h =>
    exact ⟨h.expr_succ, h.or_succ, h.orRest_succ, h.and_succ, h.andRest_succ, h.comparison_succ,
      h.unary_succ, h.members_succ, h.named_succ, h.operand_succ⟩

/-- What is returned for a list of tokens is derived from all of them. -/
theorem ofTokens_sound {expression : String} {ts : List Token} {t : Term}
    (h : ofTokens expression ts = .ok t) : Derives .expr ts t := by
  unfold ofTokens at h
  split at h
  · cases h
  · rename_i hread
    cases h
    obtain ⟨used, hts, hu⟩ := (sound _).expr hread
    rw [hts, List.append_nil]
    exact hu
  · cases h

/-- An expression that is accepted has tokens, and its term is derived from all of them. -/
theorem parse_sound {expression : String} {t : Term} (h : parse expression = .ok t) :
    ∃ ts, Token.ofText expression = .ok ts ∧ Derives .expr ts t := by
  obtain ⟨ts, hts, hof⟩ := bind_eq_ok.mp h
  exact ⟨ts, hts, ofTokens_sound hof⟩

end Term

end LivePage
