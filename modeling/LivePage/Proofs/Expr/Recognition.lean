import LivePage.Proofs.Expr.ParseTree
import LivePage.Proofs.Expr.Recursion
import Mathlib.Logic.ExistsUnique

/-!
# The parser recognizes the grammar

* `ParseTree.found`: what a tree writes is read as the tree says, as long as the tokens after it do
  not go on with it.
* `ofTokens_eq_ok_iff`: the parser accepts what the grammar derives, and nothing else.
-/

namespace LivePage

namespace Term

/-- What is read for a phrase of a level, with the calls answered by `f`. -/
def Level.read (f : Call → Parsed) : Level → List Token → Parsed
  | .expr, ts => f (.expr ts)
  | .or, ts => f (.or ts)
  | .and, ts => f (.and ts)
  | .comparison, ts => f (.comparison ts)
  | .unary, ts => f (.unary ts)
  | .access, ts => do
    let (target, ts) ← f (.operand ts)
    f (.members target ts)
  | .primary, ts => f (.operand ts)

/-- A phrase that is read is derived in the grammar. -/
theorem reads_run (fuel : Nat) (level : Level) : Reads level (level.read (Call.run fuel)) := by
  intro ts t rest hread
  have h := sound fuel
  cases level with
  | expr => exact h.expr hread
  | or => exact h.or hread
  | and => exact h.and hread
  | comparison => exact h.comparison hread
  | unary => exact h.unary hread
  | access =>
    obtain ⟨⟨target, us⟩, htarget, hmembers⟩ := bind_eq_ok.mp hread
    obtain ⟨as, rfl, ha⟩ := h.operand htarget
    obtain ⟨bs, rfl, hb⟩ := h.members (.ofPrimary ha) hmembers
    exact ⟨as ++ bs, by simp, hb⟩
  | primary => exact h.operand hread

/-! ## Reading what a tree writes -/

theorem expect_cons (o : Operator) (ts : List Token) : expect o (.op o :: ts) = .ok ts := by
  simp [expect]

open Call

namespace ParseTree

/-- The parser reads a tree before tokens that do not go on with it. -/
def Found : {n : Nonterminal} → ParseTree n → Prop
  | .phrase level, d => ∀ ⦃rest : List Token⦄, Stops level rest →
    level.read result (d.tokens ++ rest) = .ok (d.term, rest)
  | .moreOr, d => ∀ ⦃left : Term⦄ ⦃rest : List Token⦄, Stops .or rest →
    result (.orRest left (d.tokens ++ rest)) = .ok (d.term left, rest)
  | .moreAnd, d => ∀ ⦃left : Term⦄ ⦃rest : List Token⦄, Stops .and rest →
    result (.andRest left (d.tokens ++ rest)) = .ok (d.term left, rest)
  | .moreAccess, d => ∀ ⦃target : Term⦄ ⦃rest : List Token⦄, Stops .access rest →
    result (.members target (d.tokens ++ rest)) = .ok (d.term target, rest)

namespace Found

theorem ofOr {test : ParseTree (.phrase .or)} (h : Found test) : Found (.ofOr test) := by
  intro rest hrest
  refine (result_eq_body _).trans (bind_eq_ok.mpr ⟨_, h hrest.tighter, ?_⟩)
  dsimp only
  split
  · exact (hrest.ne_op rfl rfl).elim
  · rfl

theorem cond {test : ParseTree (.phrase .or)} {yes no : ParseTree (.phrase .expr)}
    (htest : Found test) (hyes : Found yes) (hno : Found no) : Found (.cond test yes no) := by
  intro rest hrest
  simp only [tokens, List.append_assoc, List.cons_append]
  refine (result_eq_body _).trans (bind_eq_ok.mpr ⟨_, htest .question, ?_⟩)
  refine bind_eq_ok.mpr ⟨_, hyes .colon, ?_⟩
  refine bind_eq_ok.mpr ⟨_, expect_cons _ _, ?_⟩
  exact bind_eq_ok.mpr ⟨_, hno hrest, rfl⟩

theorem or {head : ParseTree (.phrase .and)} {more : ParseTree .moreOr} (hhead : Found head)
    (hmore : Found more) : Found (.or head more) := by
  intro rest hrest
  simp only [tokens, List.append_assoc]
  refine (result_eq_body _).trans (bind_eq_ok.mpr ⟨_, hhead (stops_moreOr more hrest), ?_⟩)
  exact hmore hrest

theorem orNil : Found .orNil := by
  intro left rest hrest
  exact (result_eq_body _).trans (body.eq_4 _ _ _ fun us => hrest.ne_op rfl)

theorem orCons {right : ParseTree (.phrase .and)} {more : ParseTree .moreOr}
    (hright : Found right) (hmore : Found more) : Found (.orCons right more) := by
  intro left rest hrest
  simp only [tokens, List.cons_append, List.append_assoc]
  refine (result_eq_body _).trans (bind_eq_ok.mpr ⟨_, hright (stops_moreOr more hrest), ?_⟩)
  exact hmore hrest

theorem and {head : ParseTree (.phrase .comparison)} {more : ParseTree .moreAnd}
    (hhead : Found head) (hmore : Found more) : Found (.and head more) := by
  intro rest hrest
  simp only [tokens, List.append_assoc]
  refine (result_eq_body _).trans (bind_eq_ok.mpr ⟨_, hhead (stops_moreAnd more hrest), ?_⟩)
  exact hmore hrest

theorem andNil : Found .andNil := by
  intro left rest hrest
  exact (result_eq_body _).trans (body.eq_7 _ _ _ fun us => hrest.ne_op rfl)

theorem andCons {right : ParseTree (.phrase .comparison)} {more : ParseTree .moreAnd}
    (hright : Found right) (hmore : Found more) : Found (.andCons right more) := by
  intro left rest hrest
  simp only [tokens, List.cons_append, List.append_assoc]
  refine (result_eq_body _).trans (bind_eq_ok.mpr ⟨_, hright (stops_moreAnd more hrest), ?_⟩)
  exact hmore hrest

theorem ofUnary {operand : ParseTree (.phrase .unary)} (h : Found operand) :
    Found (.ofUnary operand) := by
  intro rest hrest
  refine (result_eq_body _).trans (bind_eq_ok.mpr ⟨_, h hrest.tighter, ?_⟩)
  dsimp only
  split
  · rename_i o us
    split
    · rename_i kind ho
      exact (hrest.ne_op (looseness_of_comparison ho) rfl).elim
    · rfl
  · rfl

theorem compare {o : Operator} {kind : Comparison} {ho : o.comparison? = some kind}
    {left right : ParseTree (.phrase .unary)} (hleft : Found left) (hright : Found right) :
    Found (.compare o kind ho left right) := by
  intro rest hrest
  simp only [tokens, List.append_assoc, List.cons_append]
  refine (result_eq_body _).trans (bind_eq_ok.mpr ⟨_, hleft (.comparison ho), ?_⟩)
  dsimp only
  rw [ho]
  exact bind_eq_ok.mpr ⟨_, hright hrest.tighter, rfl⟩

theorem not {operand : ParseTree (.phrase .unary)} (h : Found operand) : Found (.not operand) := by
  intro rest hrest
  exact (result_eq_body _).trans (bind_eq_ok.mpr ⟨_, h hrest, rfl⟩)

theorem neg {operand : ParseTree (.phrase .unary)} (h : Found operand) : Found (.neg operand) := by
  intro rest hrest
  exact (result_eq_body _).trans (bind_eq_ok.mpr ⟨_, h hrest, rfl⟩)

theorem ofAccess {target : ParseTree (.phrase .access)} (h : Found target) :
    Found (.ofAccess target) := by
  intro rest hrest
  refine (result_eq_body _).trans ?_
  have hnot : ∀ us, target.tokens ++ rest = .op .not :: us → False :=
    fun us => access_tokens_ne target (by decide)
  have hminus : ∀ us, target.tokens ++ rest = .op .minus :: us → False :=
    fun us => access_tokens_ne target (by decide)
  rw [tokens, body.eq_11 _ _ hnot hminus]
  exact h hrest

theorem access {head : ParseTree (.phrase .primary)} {more : ParseTree .moreAccess}
    (hhead : Found head) (hmore : Found more) : Found (.access head more) := by
  intro rest hrest
  simp only [tokens, List.append_assoc]
  exact bind_eq_ok.mpr ⟨_, hhead .primary, hmore hrest⟩

theorem accessNil : Found .accessNil := by
  intro target rest hrest
  exact (result_eq_body _).trans (body.eq_15 _ _ _ (fun us => hrest.ne_op rfl)
    (fun us => hrest.ne_op rfl) fun us => hrest.ne_op rfl)

theorem named {o : Operator} {ho : o = .dot ∨ o = .optionalDot} {name : String}
    {more : ParseTree .moreAccess} (h : Found more) : Found (.named o ho name more) := by
  intro target rest hrest
  have hname : result (.named target (.ident name :: (more.tokens ++ rest))) =
      .ok (more.term (.member target (.literal (.json (.str name)))), rest) :=
    (result_eq_body _).trans (h hrest)
  rcases ho with rfl | rfl <;> exact (result_eq_body _).trans hname

theorem index {key : ParseTree (.phrase .expr)} {more : ParseTree .moreAccess} (hkey : Found key)
    (hmore : Found more) : Found (.index key more) := by
  intro target rest hrest
  simp only [tokens, List.cons_append, List.append_assoc]
  refine (result_eq_body _).trans (bind_eq_ok.mpr ⟨_, hkey .closeBracket, ?_⟩)
  exact bind_eq_ok.mpr ⟨_, expect_cons _ _, hmore hrest⟩

theorem num (x : Binary64) : Found (.num x) := fun _ _ => result_eq_body _

theorem str (content : String) : Found (.str content) := fun _ _ => result_eq_body _

theorem word (name : String) : Found (.word name) := fun _ _ => result_eq_body _

theorem paren {inner : ParseTree (.phrase .expr)} (h : Found inner) : Found (.paren inner) := by
  intro rest hrest
  simp only [tokens, List.cons_append, List.append_assoc]
  refine (result_eq_body _).trans (bind_eq_ok.mpr ⟨_, h .closeParen, ?_⟩)
  exact bind_eq_ok.mpr ⟨_, expect_cons _ _, rfl⟩

end Found

/-- The parser reads every tree. -/
theorem found {n : Nonterminal} (d : ParseTree n) : d.Found := by
  induction d with
  | ofOr _ h => exact Found.ofOr h
  | cond _ _ _ htest hyes hno => exact Found.cond htest hyes hno
  | or _ _ hhead hmore => exact Found.or hhead hmore
  | orNil => exact Found.orNil
  | orCons _ _ hright hmore => exact Found.orCons hright hmore
  | and _ _ hhead hmore => exact Found.and hhead hmore
  | andNil => exact Found.andNil
  | andCons _ _ hright hmore => exact Found.andCons hright hmore
  | ofUnary _ h => exact Found.ofUnary h
  | compare _ _ _ _ _ hleft hright => exact Found.compare hleft hright
  | not _ h => exact Found.not h
  | neg _ h => exact Found.neg h
  | ofAccess _ h => exact Found.ofAccess h
  | access _ _ hhead hmore => exact Found.access hhead hmore
  | accessNil => exact Found.accessNil
  | named _ _ _ _ h => exact Found.named h
  | index _ _ hkey hmore => exact Found.index hkey hmore
  | num x => exact Found.num x
  | str content => exact Found.str content
  | word name => exact Found.word name
  | paren _ h => exact Found.paren h

end ParseTree

/-! ## The parser and the grammar -/

/-- A list of tokens that a tree writes is accepted, with the term of the tree. -/
theorem ofTokens_tokens (expression : String) (d : ParseTree (.phrase .expr)) :
    ofTokens expression d.tokens = .ok d.term := by
  have hread : parseExpr (8 * (d.tokens.length + 1)) d.tokens = .ok (d.term, []) := by
    have hfuel : (Call.expr d.tokens).weight < 8 * (d.tokens.length + 1) := by
      simp only [weight, Call.tokens, rank]
      omega
    have hfound : result (.expr (d.tokens ++ [])) = .ok (d.term, []) := d.found .nil
    rw [List.append_nil] at hfound
    exact (run_eq_result hfuel).trans hfound
  rw [ofTokens, hread]

/-- **The parser recognizes its grammar.** A list of tokens is accepted with the terms of the
trees that write it, and with nothing else; at every level at most one tree writes it. The
recursion of the parser has one solution, so no call runs for ever, and fuel of eight for each token
and one more carries to its result. A function of the parser that succeeds has read at
least one token and leaves what stands after it. -/
theorem ofTokens_eq_ok_iff (expression : String) (ts : List Token) :
    (∀ t, ofTokens expression ts = .ok t ↔
      ∃ d : ParseTree (.phrase .expr), d.tokens = ts ∧ d.term = t) ∧
    (∀ (level : Level) (d d' : ParseTree (.phrase level)),
      d.tokens = ts → d'.tokens = ts → d = d') ∧
    (∃! f : Call → Parsed, ∀ c, f c = c.body f) ∧
    (∀ f : Call → Parsed, (∀ c, f c = c.body f) →
      ∀ fuel, 8 * (ts.length + 1) ≤ fuel → parseExpr fuel ts = f (.expr ts)) ∧
    ∀ (level : Level) (fuel : Nat) (t : Term) (rest : List Token),
      level.read (Call.run fuel) ts = .ok (t, rest) → ∃ used, used ≠ [] ∧ ts = used ++ rest := by
  refine ⟨fun t => ⟨fun h => derives_iff.mp (ofTokens_sound h), ?_⟩, ?_, ?_, ?_, ?_⟩
  · rintro ⟨d, rfl, rfl⟩
    exact ofTokens_tokens expression d
  · intro level d d' hd hd'
    exact ParseTree.eq_of_tokens (hd.trans hd'.symm)
  · exact ⟨result, result_eq_body, fun f hf => eq_result hf⟩
  · intro f hf fuel hfuel
    have hweight : (Call.expr ts).weight < fuel := by
      simp only [weight, Call.tokens, rank]
      omega
    rw [eq_result hf]
    exact run_eq_result hweight
  · intro level fuel t rest hread
    obtain ⟨used, hused, hderives⟩ := reads_run fuel level hread
    exact ⟨used, hderives.tokens_ne_nil, hused⟩

/-- The tree of a name as an operand of `||`. -/
def ParseTree.name (name : String) : ParseTree (.phrase .and) :=
  .and (.ofUnary (.ofAccess (.access (.word name) .accessNil))) .andNil

/-- Alternatives are grouped to the left, and more fuel than needed reads the same. -/
theorem ofTokens_eq_ok_iff_alternatives :
    ofTokens "a || b || c" [.ident "a", .op .or, .ident "b", .op .or, .ident "c"] =
      .ok (.or (.or (.ident "a") (.ident "b")) (.ident "c")) ∧
    parseExpr 100 [.ident "a", .op .or, .ident "b", .op .or, .ident "c"] =
      result (.expr [.ident "a", .op .or, .ident "b", .op .or, .ident "c"]) := by
  obtain ⟨hok, -, -, hfuel, -⟩ := ofTokens_eq_ok_iff "a || b || c"
    [.ident "a", .op .or, .ident "b", .op .or, .ident "c"]
  refine ⟨(hok _).mpr ⟨.ofOr (.or (.name "a") (.orCons (.name "b") (.orCons (.name "c") .orNil))),
    rfl, ?_⟩, hfuel result result_eq_body 100 (by decide)⟩
  simp [ParseTree.name, ParseTree.term, ofWord]

end Term

end LivePage
