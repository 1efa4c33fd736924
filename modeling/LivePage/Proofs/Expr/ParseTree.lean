import LivePage.Proofs.Expr.Grammar

/-!
# Parse trees

Derivations of the grammar as data. The operands of `||` and of `&&` and the member accesses after
an operand are rows, which the grammar repeats, so a tree says which production is used at every
place and nothing about grouping; the term of a tree groups its rows to the left.

* `ParseTree`: the trees of a nonterminal, with the tokens that they write and their terms.
* `derives_iff`: a level derives a term from the tokens that a tree with this term writes.
* `ParseTree.unique`: before tokens that do not go on with it, no other tree is read.
* `ParseTree.eq_of_tokens`: the grammar is unambiguous.
-/

namespace LivePage

/-- How loosely an operator binds what is on its left; most for those with nothing to bind there. -/
def Operator.looseness : Operator → Nat
  | .dot | .optionalDot | .openBracket => 1
  | .strictEqual | .strictUnequal | .equal | .unequal | .atLeast | .atMost | .greater | .less => 2
  | .and => 3
  | .or => 4
  | .question => 5
  | .not | .minus | .openParen | .closeParen | .closeBracket | .colon => 6

namespace Term

/-- The nonterminals: the levels of binding, and what may follow the first operand of a row. -/
inductive Nonterminal
  | phrase (level : Level)
  | moreOr
  | moreAnd
  | moreAccess

/-- The derivations of the grammar. -/
inductive ParseTree : Nonterminal → Type
  | ofOr (test : ParseTree (.phrase .or)) : ParseTree (.phrase .expr)
  /-- `or ? expr : expr` -/
  | cond (test : ParseTree (.phrase .or)) (yes no : ParseTree (.phrase .expr)) :
      ParseTree (.phrase .expr)
  /-- `and (|| and)*` -/
  | or (head : ParseTree (.phrase .and)) (more : ParseTree .moreOr) : ParseTree (.phrase .or)
  | orNil : ParseTree .moreOr
  | orCons (right : ParseTree (.phrase .and)) (more : ParseTree .moreOr) : ParseTree .moreOr
  /-- `comparison (&& comparison)*` -/
  | and (head : ParseTree (.phrase .comparison)) (more : ParseTree .moreAnd) :
      ParseTree (.phrase .and)
  | andNil : ParseTree .moreAnd
  | andCons (right : ParseTree (.phrase .comparison)) (more : ParseTree .moreAnd) :
      ParseTree .moreAnd
  | ofUnary (operand : ParseTree (.phrase .unary)) : ParseTree (.phrase .comparison)
  /-- `unary op unary` -/
  | compare (o : Operator) (kind : Comparison) (ho : o.comparison? = some kind)
      (left right : ParseTree (.phrase .unary)) : ParseTree (.phrase .comparison)
  /-- `! unary` -/
  | not (operand : ParseTree (.phrase .unary)) : ParseTree (.phrase .unary)
  /-- `- unary` -/
  | neg (operand : ParseTree (.phrase .unary)) : ParseTree (.phrase .unary)
  | ofAccess (target : ParseTree (.phrase .access)) : ParseTree (.phrase .unary)
  /-- `primary (. name | ?. name | [ expr ])*` -/
  | access (head : ParseTree (.phrase .primary)) (more : ParseTree .moreAccess) :
      ParseTree (.phrase .access)
  | accessNil : ParseTree .moreAccess
  | named (o : Operator) (ho : o = .dot ∨ o = .optionalDot) (name : String)
      (more : ParseTree .moreAccess) : ParseTree .moreAccess
  | index (key : ParseTree (.phrase .expr)) (more : ParseTree .moreAccess) : ParseTree .moreAccess
  | num (x : Binary64) : ParseTree (.phrase .primary)
  | str (content : String) : ParseTree (.phrase .primary)
  | word (name : String) : ParseTree (.phrase .primary)
  /-- `( expr )` -/
  | paren (inner : ParseTree (.phrase .expr)) : ParseTree (.phrase .primary)

/-- What a nonterminal writes: a term, or for a row what becomes of the term before it. -/
@[reducible]
def Nonterminal.Meaning : Nonterminal → Type
  | .phrase _ => Term
  | .moreOr | .moreAnd | .moreAccess => Term → Term

namespace ParseTree

/-- The tokens that a tree writes. -/
@[simp]
def tokens {n : Nonterminal} : ParseTree n → List Token
  | .ofOr test => test.tokens
  | .cond test yes no =>
    test.tokens ++ .op .question :: (yes.tokens ++ .op .colon :: no.tokens)
  | .or head more => head.tokens ++ more.tokens
  | .orNil => []
  | .orCons right more => .op .or :: (right.tokens ++ more.tokens)
  | .and head more => head.tokens ++ more.tokens
  | .andNil => []
  | .andCons right more => .op .and :: (right.tokens ++ more.tokens)
  | .ofUnary operand => operand.tokens
  | .compare o _ _ left right => left.tokens ++ .op o :: right.tokens
  | .not operand => .op .not :: operand.tokens
  | .neg operand => .op .minus :: operand.tokens
  | .ofAccess target => target.tokens
  | .access head more => head.tokens ++ more.tokens
  | .accessNil => []
  | .named o _ name more => .op o :: .ident name :: more.tokens
  | .index key more => .op .openBracket :: (key.tokens ++ .op .closeBracket :: more.tokens)
  | .num x => [.num x]
  | .str content => [.str content]
  | .word name => [.ident name]
  | .paren inner => .op .openParen :: (inner.tokens ++ [.op .closeParen])

/-- The term of a tree; rows are grouped to the left. -/
def term : {n : Nonterminal} → ParseTree n → n.Meaning
  | _, .ofOr test => test.term
  | _, .cond test yes no => Term.cond test.term yes.term no.term
  | _, .or head more => more.term head.term
  | _, .orNil => id
  | _, .orCons right more => fun left => more.term (Term.or left right.term)
  | _, .and head more => more.term head.term
  | _, .andNil => id
  | _, .andCons right more => fun left => more.term (Term.and left right.term)
  | _, .ofUnary operand => operand.term
  | _, .compare _ kind _ left right => Term.compare kind left.term right.term
  | _, .not operand => Term.not operand.term
  | _, .neg operand => Term.neg operand.term
  | _, .ofAccess target => target.term
  | _, .access head more => more.term head.term
  | _, .accessNil => id
  | _, .named _ _ name more => fun target =>
    more.term (Term.member target (.literal (.json (.str name))))
  | _, .index key more => fun target => more.term (Term.member target key.term)
  | _, .num x => Term.literal (.json (numberJson x))
  | _, .str content => Term.literal (.json (.str content))
  | _, .word name => ofWord name
  | _, .paren inner => inner.term

/-! ## Trees and derivations -/

/-- A phrase derives its term, and a row continues the derivation of what stands before it. -/
def Derived : {n : Nonterminal} → ParseTree n → Prop
  | .phrase level, d => Derives level d.tokens d.term
  | .moreOr, d => ∀ {ts left}, Derives .or ts left → Derives .or (ts ++ d.tokens) (d.term left)
  | .moreAnd, d => ∀ {ts left}, Derives .and ts left → Derives .and (ts ++ d.tokens) (d.term left)
  | .moreAccess, d =>
    ∀ {ts left}, Derives .access ts left → Derives .access (ts ++ d.tokens) (d.term left)

theorem derived {n : Nonterminal} (d : ParseTree n) : d.Derived := by
  induction d with
  | ofOr _ ih => exact .ofOr ih
  | cond _ _ _ hor hyes hno => simpa [Derived, tokens, term] using Derives.cond hor hyes hno
  | or _ _ hand hmore => exact hmore (.ofAnd hand)
  | orNil => intro ts left h; simpa [tokens, term] using h
  | orCons _ _ hand hmore => intro ts left h; simpa [tokens, term] using hmore (.or h hand)
  | and _ _ hcomparison hmore => exact hmore (.ofComparison hcomparison)
  | andNil => intro ts left h; simpa [tokens, term] using h
  | andCons _ _ hand hmore => intro ts left h; simpa [tokens, term] using hmore (.and h hand)
  | ofUnary _ ih => exact .ofUnary ih
  | compare _ _ ho _ _ hleft hright => exact .compare ho hleft hright
  | not _ ih => exact .not ih
  | neg _ ih => exact .neg ih
  | ofAccess _ ih => exact .ofAccess ih
  | access _ _ hprimary hmore => exact hmore (.ofPrimary hprimary)
  | accessNil => intro ts left h; simpa [tokens, term] using h
  | named _ ho name _ hmore =>
    intro ts left h
    simpa [tokens, term] using hmore (.named name ho h)
  | index _ _ hkey hmore =>
    intro ts left h
    simpa [tokens, term] using hmore (.index h hkey)
  | num x => exact .num x
  | str content => exact .str content
  | word name => exact .word name
  | paren _ ih => exact .paren ih

/-- A tree writes the tokens of a derivation; where the level ends in a row, trees write them
followed by any more of the row. -/
def Written : Level → List Token → Term → Prop
  | .or, ts, t => ∀ more : ParseTree .moreOr,
    ∃ d : ParseTree (.phrase .or), d.tokens = ts ++ more.tokens ∧ d.term = more.term t
  | .and, ts, t => ∀ more : ParseTree .moreAnd,
    ∃ d : ParseTree (.phrase .and), d.tokens = ts ++ more.tokens ∧ d.term = more.term t
  | .access, ts, t => ∀ more : ParseTree .moreAccess,
    ∃ d : ParseTree (.phrase .access), d.tokens = ts ++ more.tokens ∧ d.term = more.term t
  | level, ts, t => ∃ d : ParseTree (.phrase level), d.tokens = ts ∧ d.term = t

theorem Written.exists {level : Level} {ts : List Token} {t : Term} (h : Written level ts t) :
    ∃ d : ParseTree (.phrase level), d.tokens = ts ∧ d.term = t := by
  cases level with
  | or => simpa [tokens, term] using h .orNil
  | and => simpa [tokens, term] using h .andNil
  | access => simpa [tokens, term] using h .accessNil
  | expr | comparison | unary | primary => exact h

theorem written {level : Level} {ts : List Token} {t : Term} (h : Derives level ts t) :
    Written level ts t := by
  induction h with
  | ofOr _ ih =>
    obtain ⟨d, rfl, rfl⟩ := ih.exists
    exact ⟨.ofOr d, rfl, rfl⟩
  | cond _ _ _ hor hyes hno =>
    obtain ⟨a, rfl, rfl⟩ := hor.exists
    obtain ⟨b, rfl, rfl⟩ := hyes
    obtain ⟨c, rfl, rfl⟩ := hno
    exact ⟨.cond a b c, by simp [tokens], rfl⟩
  | ofAnd _ ih =>
    intro more
    obtain ⟨d, rfl, rfl⟩ := ih.exists
    exact ⟨.or d more, rfl, rfl⟩
  | or _ _ hleft hright =>
    intro more
    obtain ⟨b, rfl, rfl⟩ := hright.exists
    -- the last operand becomes the first of what follows the operands on its left
    obtain ⟨d, htokens, hterm⟩ := hleft (.orCons b more)
    exact ⟨d, by simpa [tokens] using htokens, hterm⟩
  | ofComparison _ ih =>
    intro more
    obtain ⟨d, rfl, rfl⟩ := ih
    exact ⟨.and d more, rfl, rfl⟩
  | and _ _ hleft hright =>
    intro more
    obtain ⟨b, rfl, rfl⟩ := hright
    obtain ⟨d, htokens, hterm⟩ := hleft (.andCons b more)
    exact ⟨d, by simpa [tokens] using htokens, hterm⟩
  | ofUnary _ ih =>
    obtain ⟨d, rfl, rfl⟩ := ih
    exact ⟨.ofUnary d, rfl, rfl⟩
  | compare ho _ _ hleft hright =>
    obtain ⟨a, rfl, rfl⟩ := hleft
    obtain ⟨b, rfl, rfl⟩ := hright
    exact ⟨.compare _ _ ho a b, rfl, rfl⟩
  | ofAccess _ ih =>
    obtain ⟨d, rfl, rfl⟩ := ih.exists
    exact ⟨.ofAccess d, rfl, rfl⟩
  | not _ ih =>
    obtain ⟨d, rfl, rfl⟩ := ih
    exact ⟨.not d, rfl, rfl⟩
  | neg _ ih =>
    obtain ⟨d, rfl, rfl⟩ := ih
    exact ⟨.neg d, rfl, rfl⟩
  | ofPrimary _ ih =>
    intro more
    obtain ⟨d, rfl, rfl⟩ := ih
    exact ⟨.access d more, rfl, rfl⟩
  | named name ho _ ih =>
    intro more
    obtain ⟨d, htokens, hterm⟩ := ih (.named _ ho name more)
    exact ⟨d, by simpa [tokens] using htokens, hterm⟩
  | index _ _ htarget hkey =>
    intro more
    obtain ⟨key, rfl, rfl⟩ := hkey
    obtain ⟨d, htokens, hterm⟩ := htarget (.index key more)
    exact ⟨d, by simpa [tokens] using htokens, hterm⟩
  | num x => exact ⟨.num x, rfl, rfl⟩
  | str content => exact ⟨.str content, rfl, rfl⟩
  | word name => exact ⟨.word name, rfl, rfl⟩
  | paren _ ih =>
    obtain ⟨d, rfl, rfl⟩ := ih
    exact ⟨.paren d, by simp [tokens], rfl⟩

end ParseTree

/-- The two forms of the grammar derive the same. -/
theorem derives_iff {level : Level} {ts : List Token} {t : Term} :
    Derives level ts t ↔ ∃ d : ParseTree (.phrase level), d.tokens = ts ∧ d.term = t :=
  ⟨fun h => (ParseTree.written h).exists, fun ⟨d, hts, ht⟩ => hts ▸ ht ▸ d.derived⟩

/-! ## Where a phrase ends -/

/-- How loosely a level binds. -/
def Level.looseness : Level → Nat
  | .primary => 0
  | .access | .unary => 1
  | .comparison => 2
  | .and => 3
  | .or => 4
  | .expr => 5

theorem looseness_of_comparison {o : Operator} {kind : Comparison}
    (h : o.comparison? = some kind) : o.looseness = 2 := by
  cases o <;> first | rfl | cases h

theorem looseness_of_named {o : Operator} (h : o = .dot ∨ o = .optionalDot) : o.looseness = 1 := by
  rcases h with rfl | rfl <;> rfl

/-- The next level that binds more tightly. -/
def Level.tighter : Level → Level
  | .expr => .or
  | .or => .and
  | .and => .comparison
  | .comparison => .unary
  | .unary => .access
  | .access | .primary => .primary

/-- The tokens do not go on with a phrase of the level that ends before them. -/
def Stops (level : Level) (rest : List Token) : Prop :=
  ∀ ⦃o us⦄, rest = .op o :: us → level.looseness < o.looseness

namespace Stops

variable {level : Level} {o : Operator} {rest us : List Token}

theorem tighter (h : Stops level rest) : Stops level.tighter rest := fun _ _ hrest => by
  refine Nat.lt_of_le_of_lt ?_ (h hrest)
  cases level <;> decide

/-- A phrase of the level of an operator goes on with the operator. -/
theorem ne_op (h : Stops level rest) (ho : o.looseness = level.looseness) : rest ≠ .op o :: us :=
  fun hrest => absurd (h hrest) (by omega)

theorem nil : Stops level [] := nofun

theorem op (h : level.looseness < o.looseness) : Stops level (.op o :: us) :=
  fun _ _ hrest => by cases hrest; exact h

theorem primary : Stops .primary rest := fun o _ _ => by cases o <;> decide

/-- The operands of a comparison end at its operator. -/
theorem comparison {kind : Comparison} (ho : o.comparison? = some kind) :
    Stops .unary (.op o :: us) :=
  op (by rw [looseness_of_comparison ho]; decide)

theorem and : Stops .comparison (.op .and :: us) := op (by decide)

theorem or : Stops .and (.op .or :: us) := op (by decide)

theorem question : Stops .or (.op .question :: us) := op (by decide)

theorem colon : Stops .expr (.op .colon :: us) := op (by decide)

theorem closeBracket : Stops .expr (.op .closeBracket :: us) := op (by decide)

theorem closeParen : Stops .expr (.op .closeParen :: us) := op (by decide)

end Stops

/-- The level of what a nonterminal writes. -/
def Nonterminal.level : Nonterminal → Level
  | .phrase level => level
  | .moreOr => .or
  | .moreAnd => .and
  | .moreAccess => .access

/-! ## Only one tree -/

namespace ParseTree

/-- An operand with its member accesses does not begin with an operator, but for a parenthesis. -/
theorem access_tokens_ne (d : ParseTree (.phrase .access)) {o : Operator} (ho : o ≠ .openParen)
    {rest us : List Token} : d.tokens ++ rest ≠ .op o :: us := by
  cases d with
  | access head more => cases head <;> simp [tokens, ho.symm]

/-- An operand of `||` ends before the operands that follow and before the end of the row. -/
theorem stops_moreOr (more : ParseTree .moreOr) {rest : List Token} (h : Stops .or rest) :
    Stops .and (more.tokens ++ rest) := by
  cases more with
  | orNil => exact h.tighter
  | orCons => exact .or

/-- An operand of `&&` ends before the operands that follow and before the end of the row. -/
theorem stops_moreAnd (more : ParseTree .moreAnd) {rest : List Token} (h : Stops .and rest) :
    Stops .comparison (more.tokens ++ rest) := by
  cases more with
  | andNil => exact h.tighter
  | andCons => exact .and

/-- A tree is the only one of its nonterminal that can be read from its tokens before tokens that
do not extend it. -/
def Unique {n : Nonterminal} (d : ParseTree n) : Prop :=
  ∀ ⦃d' : ParseTree n⦄ ⦃rest rest' : List Token⦄, Stops n.level rest → Stops n.level rest' →
    d.tokens ++ rest = d'.tokens ++ rest' → d = d' ∧ rest = rest'

namespace Unique

theorem ofOr {test : ParseTree (.phrase .or)} (h : Unique test) : Unique (.ofOr test) := by
  intro d' rest rest' hrest hrest' heq
  cases d' with
  | ofOr test' =>
    obtain ⟨rfl, rfl⟩ := h hrest.tighter hrest'.tighter heq
    exact ⟨rfl, rfl⟩
  | cond test' yes' no' =>
    simp only [tokens, List.append_assoc, List.cons_append] at heq
    obtain ⟨_, hquestion⟩ := h hrest.tighter .question heq
    exact (hrest.ne_op rfl hquestion).elim

theorem cond {test : ParseTree (.phrase .or)} {yes no : ParseTree (.phrase .expr)}
    (htest : Unique test) (hyes : Unique yes) (hno : Unique no) : Unique (.cond test yes no) := by
  intro d' rest rest' hrest hrest' heq
  cases d' with
  | ofOr test' =>
    simp only [tokens, List.append_assoc, List.cons_append] at heq
    obtain ⟨_, hquestion⟩ := htest .question hrest'.tighter heq
    exact (hrest'.ne_op rfl hquestion.symm).elim
  | cond test' yes' no' =>
    simp only [tokens, List.append_assoc, List.cons_append] at heq
    obtain ⟨rfl, hquestion⟩ :=
      htest .question .question heq
    obtain ⟨rfl, hcolon⟩ := hyes .colon .colon
      (List.cons.inj hquestion).2
    obtain ⟨rfl, rfl⟩ := hno hrest hrest' (List.cons.inj hcolon).2
    exact ⟨rfl, rfl⟩

theorem or {head : ParseTree (.phrase .and)} {more : ParseTree .moreOr} (hhead : Unique head)
    (hmore : Unique more) : Unique (.or head more) := by
  intro d' rest rest' hrest hrest' heq
  cases d' with
  | or head' more' =>
    simp only [tokens, List.append_assoc] at heq
    obtain ⟨rfl, htail⟩ := hhead (stops_moreOr _ hrest) (stops_moreOr _ hrest') heq
    obtain ⟨rfl, rfl⟩ := hmore hrest hrest' htail
    exact ⟨rfl, rfl⟩

theorem orNil : Unique .orNil := by
  intro d' rest rest' hrest hrest' heq
  cases d' with
  | orNil => exact ⟨rfl, heq⟩
  | orCons right' more' => exact (hrest.ne_op rfl heq).elim

theorem orCons {right : ParseTree (.phrase .and)} {more : ParseTree .moreOr}
    (hright : Unique right) (hmore : Unique more) : Unique (.orCons right more) := by
  intro d' rest rest' hrest hrest' heq
  cases d' with
  | orNil => exact (hrest'.ne_op rfl heq.symm).elim
  | orCons right' more' =>
    simp only [tokens, List.cons_append, List.append_assoc] at heq
    obtain ⟨rfl, htail⟩ :=
      hright (stops_moreOr _ hrest) (stops_moreOr _ hrest') (List.cons.inj heq).2
    obtain ⟨rfl, rfl⟩ := hmore hrest hrest' htail
    exact ⟨rfl, rfl⟩

theorem and {head : ParseTree (.phrase .comparison)} {more : ParseTree .moreAnd}
    (hhead : Unique head) (hmore : Unique more) : Unique (.and head more) := by
  intro d' rest rest' hrest hrest' heq
  cases d' with
  | and head' more' =>
    simp only [tokens, List.append_assoc] at heq
    obtain ⟨rfl, htail⟩ := hhead (stops_moreAnd _ hrest) (stops_moreAnd _ hrest') heq
    obtain ⟨rfl, rfl⟩ := hmore hrest hrest' htail
    exact ⟨rfl, rfl⟩

theorem andNil : Unique .andNil := by
  intro d' rest rest' hrest hrest' heq
  cases d' with
  | andNil => exact ⟨rfl, heq⟩
  | andCons right' more' => exact (hrest.ne_op rfl heq).elim

theorem andCons {right : ParseTree (.phrase .comparison)} {more : ParseTree .moreAnd}
    (hright : Unique right) (hmore : Unique more) : Unique (.andCons right more) := by
  intro d' rest rest' hrest hrest' heq
  cases d' with
  | andNil => exact (hrest'.ne_op rfl heq.symm).elim
  | andCons right' more' =>
    simp only [tokens, List.cons_append, List.append_assoc] at heq
    obtain ⟨rfl, htail⟩ :=
      hright (stops_moreAnd _ hrest) (stops_moreAnd _ hrest') (List.cons.inj heq).2
    obtain ⟨rfl, rfl⟩ := hmore hrest hrest' htail
    exact ⟨rfl, rfl⟩

theorem ofUnary {operand : ParseTree (.phrase .unary)} (h : Unique operand) :
    Unique (.ofUnary operand) := by
  intro d' rest rest' hrest hrest' heq
  cases d' with
  | ofUnary operand' =>
    obtain ⟨rfl, rfl⟩ := h hrest.tighter hrest'.tighter heq
    exact ⟨rfl, rfl⟩
  | compare o' kind' ho' left' right' =>
    simp only [tokens, List.append_assoc, List.cons_append] at heq
    obtain ⟨_, rfl⟩ := h hrest.tighter (.comparison ho') heq
    exact (hrest.ne_op (looseness_of_comparison ho') rfl).elim

theorem compare {o : Operator} {kind : Comparison} {ho : o.comparison? = some kind}
    {left right : ParseTree (.phrase .unary)} (hleft : Unique left) (hright : Unique right) :
    Unique (.compare o kind ho left right) := by
  intro d' rest rest' hrest hrest' heq
  cases d' with
  | ofUnary operand' =>
    simp only [tokens, List.append_assoc, List.cons_append] at heq
    obtain ⟨_, rfl⟩ := hleft (.comparison ho) hrest'.tighter heq
    exact (hrest'.ne_op (looseness_of_comparison ho) rfl).elim
  | compare o' kind' ho' left' right' =>
    simp only [tokens, List.append_assoc, List.cons_append] at heq
    obtain ⟨rfl, hop⟩ := hleft (.comparison ho) (.comparison ho') heq
    obtain ⟨hop, htail⟩ := List.cons.inj hop
    obtain rfl := Token.op.inj hop
    obtain rfl := Option.some.inj (ho.symm.trans ho')
    obtain ⟨rfl, rfl⟩ := hright hrest.tighter hrest'.tighter htail
    exact ⟨rfl, rfl⟩

theorem not {operand : ParseTree (.phrase .unary)} (h : Unique operand) :
    Unique (.not operand) := by
  intro d' rest rest' hrest hrest' heq
  cases d' with
  | not operand' =>
    obtain ⟨rfl, rfl⟩ := h hrest hrest' (List.cons.inj heq).2
    exact ⟨rfl, rfl⟩
  | neg operand' => simp [tokens] at heq
  | ofAccess target' => exact (access_tokens_ne (o := .not) target' nofun heq.symm).elim

theorem neg {operand : ParseTree (.phrase .unary)} (h : Unique operand) :
    Unique (.neg operand) := by
  intro d' rest rest' hrest hrest' heq
  cases d' with
  | not operand' => simp [tokens] at heq
  | neg operand' =>
    obtain ⟨rfl, rfl⟩ := h hrest hrest' (List.cons.inj heq).2
    exact ⟨rfl, rfl⟩
  | ofAccess target' => exact (access_tokens_ne (o := .minus) target' nofun heq.symm).elim

theorem ofAccess {target : ParseTree (.phrase .access)} (h : Unique target) :
    Unique (.ofAccess target) := by
  intro d' rest rest' hrest hrest' heq
  cases d' with
  | not operand' => exact (access_tokens_ne (o := .not) target nofun heq).elim
  | neg operand' => exact (access_tokens_ne (o := .minus) target nofun heq).elim
  | ofAccess target' =>
    obtain ⟨rfl, rfl⟩ := h hrest hrest' heq
    exact ⟨rfl, rfl⟩

theorem access {head : ParseTree (.phrase .primary)} {more : ParseTree .moreAccess}
    (hhead : Unique head) (hmore : Unique more) : Unique (.access head more) := by
  intro d' rest rest' hrest hrest' heq
  cases d' with
  | access head' more' =>
    simp only [tokens, List.append_assoc] at heq
    obtain ⟨rfl, htail⟩ := hhead .primary .primary heq
    obtain ⟨rfl, rfl⟩ := hmore hrest hrest' htail
    exact ⟨rfl, rfl⟩

theorem accessNil : Unique .accessNil := by
  intro d' rest rest' hrest hrest' heq
  cases d' with
  | accessNil => exact ⟨rfl, heq⟩
  | named o' ho' => exact (hrest.ne_op (looseness_of_named ho') heq).elim
  | index => exact (hrest.ne_op rfl heq).elim

theorem named {o : Operator} {ho : o = .dot ∨ o = .optionalDot} {name : String}
    {more : ParseTree .moreAccess} (h : Unique more) : Unique (.named o ho name more) := by
  intro d' rest rest' hrest hrest' heq
  cases d' with
  | accessNil => exact (hrest'.ne_op (looseness_of_named ho) heq.symm).elim
  | named o' ho' name' more' =>
    simp only [tokens, List.cons_append, List.cons.injEq, Token.op.injEq, Token.ident.injEq] at heq
    obtain ⟨rfl, rfl, htail⟩ := heq
    obtain ⟨rfl, rfl⟩ := h hrest hrest' htail
    exact ⟨rfl, rfl⟩
  | index => rcases ho with rfl | rfl <;> simp [tokens] at heq

theorem index {key : ParseTree (.phrase .expr)} {more : ParseTree .moreAccess} (hkey : Unique key)
    (hmore : Unique more) : Unique (.index key more) := by
  intro d' rest rest' hrest hrest' heq
  cases d' with
  | accessNil => exact (hrest'.ne_op rfl heq.symm).elim
  | named o' ho' => rcases ho' with rfl | rfl <;> simp [tokens] at heq
  | index key' more' =>
    simp only [tokens, List.cons_append, List.append_assoc] at heq
    obtain ⟨rfl, hclose⟩ := hkey .closeBracket .closeBracket
      (List.cons.inj heq).2
    obtain ⟨rfl, rfl⟩ := hmore hrest hrest' (List.cons.inj hclose).2
    exact ⟨rfl, rfl⟩

theorem num (x : Binary64) : Unique (.num x) := by
  intro d' rest rest' hrest hrest' heq
  cases d' <;> simp_all [tokens]

theorem str (content : String) : Unique (.str content) := by
  intro d' rest rest' hrest hrest' heq
  cases d' <;> simp_all [tokens]

theorem word (name : String) : Unique (.word name) := by
  intro d' rest rest' hrest hrest' heq
  cases d' <;> simp_all [tokens]

theorem paren {inner : ParseTree (.phrase .expr)} (h : Unique inner) : Unique (.paren inner) := by
  intro d' rest rest' hrest hrest' heq
  cases d' with
  | paren inner' =>
    simp only [tokens, List.cons_append, List.append_assoc] at heq
    obtain ⟨rfl, hclose⟩ := h .closeParen .closeParen (List.cons.inj heq).2
    exact ⟨rfl, (List.cons.inj hclose).2⟩
  | num | str | word => simp [tokens] at heq

end Unique

/-- Every tree is the only one that can be read. -/
theorem unique {n : Nonterminal} (d : ParseTree n) : d.Unique := by
  induction d with
  | ofOr _ h => exact Unique.ofOr h
  | cond _ _ _ htest hyes hno => exact Unique.cond htest hyes hno
  | or _ _ hhead hmore => exact Unique.or hhead hmore
  | orNil => exact Unique.orNil
  | orCons _ _ hright hmore => exact Unique.orCons hright hmore
  | and _ _ hhead hmore => exact Unique.and hhead hmore
  | andNil => exact Unique.andNil
  | andCons _ _ hright hmore => exact Unique.andCons hright hmore
  | ofUnary _ h => exact Unique.ofUnary h
  | compare _ _ _ _ _ hleft hright => exact Unique.compare hleft hright
  | not _ h => exact Unique.not h
  | neg _ h => exact Unique.neg h
  | ofAccess _ h => exact Unique.ofAccess h
  | access _ _ hhead hmore => exact Unique.access hhead hmore
  | accessNil => exact Unique.accessNil
  | named _ _ _ _ h => exact Unique.named h
  | index _ _ hkey hmore => exact Unique.index hkey hmore
  | num x => exact Unique.num x
  | str content => exact Unique.str content
  | word name => exact Unique.word name
  | paren _ h => exact Unique.paren h

/-- The grammar is unambiguous: trees of a nonterminal that write the same tokens are equal. -/
theorem eq_of_tokens {n : Nonterminal} {d d' : ParseTree n} (h : d.tokens = d'.tokens) : d = d' :=
  (d.unique .nil .nil (by rw [h])).1

end ParseTree

end Term

end LivePage
