import LivePage.Expr.Eval
import LivePage.Proofs.Expr.Recognition

/-!
# Syntax trees with any operator

A term knows which operators there are: the comparisons, `&&` and `||`. A syntax tree may hold any
operator between two operands, and its evaluation fails where it meets one that it does not know.
The parser puts none of these into a tree, so it never does.

* `SyntaxTree`, `SyntaxTree.eval`: trees as they are written, and their values.
* `SyntaxTree.Supported`: trees in which only known operators stand between operands.
* `ParseTree.syntaxTree`: the tree of a derivation.
* `ParseTree.read`: it is supported, and it has the value of the term of the derivation.
-/

namespace LivePage

/-- An expression as it is written. -/
inductive SyntaxTree
  | literal (value : Value)
  | ident (name : String)
  | member (target key : SyntaxTree)
  | not (operand : SyntaxTree)
  | neg (operand : SyntaxTree)
  | binary (o : Operator) (left right : SyntaxTree)
  | cond (test yes no : SyntaxTree)

/-- The fault of an operator that cannot stand between operands. -/
def SyntaxFault.unsupported (o : Operator) : SyntaxFault :=
  .described ("unsupported operator `" ++ o.text ++ "`")

/-- The operators that may stand between operands. -/
def Operator.IsBinary (o : Operator) : Prop :=
  o = .and ∨ o = .or ∨ ∃ comparison, o.comparison? = some comparison

namespace SyntaxTree

/-- The tree of a word: a constant or an identifier. -/
def ofWord (name : String) : SyntaxTree :=
  match Term.ofWord name with
  | .literal v => .literal v
  | _ => .ident name

/-- The value of a tree in a context. -/
def eval (ctx : Context) : SyntaxTree → Except EvalError Value
  | .literal v => .ok v
  | .ident name => Term.evalIdent ctx name
  | .member target key => do
    let target ← eval ctx target
    let key ← eval ctx key
    return target.member key
  | .not operand => do
    let v ← eval ctx operand
    return Value.ofBool (!v.truthy)
  | .neg operand => do
    let v ← eval ctx operand
    return .json (Term.numberJson v.toNumber.neg)
  | .binary .and left right => do
    let l ← eval ctx left
    if l.truthy then eval ctx right else return l
  | .binary .or left right => do
    let l ← eval ctx left
    if l.truthy then return l else eval ctx right
  | .binary o left right => do
    let l ← eval ctx left
    let r ← eval ctx right
    match o.comparison? with
    | some comparison => return Value.ofBool (comparison.holds l r)
    | none => .error (.malformed (.unsupported o))
  | .cond test yes no => do
    let t ← eval ctx test
    if t.truthy then eval ctx yes else eval ctx no

/-- Only operators that may stand between operands do so in a tree. -/
def Supported : SyntaxTree → Prop
  | .literal _ => True
  | .ident _ => True
  | .member target key => target.Supported ∧ key.Supported
  | .not operand => operand.Supported
  | .neg operand => operand.Supported
  | .binary o left right => o.IsBinary ∧ left.Supported ∧ right.Supported
  | .cond test yes no => test.Supported ∧ yes.Supported ∧ no.Supported

/-- A tree without unknown operators that has the value of a term in every context. -/
structure Reads (a : SyntaxTree) (t : Term) : Prop where
  supported : a.Supported
  eval_eq : ∀ ctx, a.eval ctx = t.eval ctx

namespace Reads

variable {a b c : SyntaxTree} {t u w : Term}

attribute [local simp] eval Term.eval

theorem literal (v : Value) : Reads (.literal v) (.literal v) := ⟨trivial, fun _ => rfl⟩

theorem ofWord (name : String) : Reads (ofWord name) (Term.ofWord name) := by
  have hword : (∃ v, Term.ofWord name = .literal v) ∨ Term.ofWord name = .ident name := by
    unfold Term.ofWord
    split
    · exact .inl ⟨_, rfl⟩
    split
    · exact .inl ⟨_, rfl⟩
    split
    · exact .inl ⟨_, rfl⟩
    split
    · exact .inl ⟨_, rfl⟩
    · exact .inr rfl
  unfold SyntaxTree.ofWord
  rcases hword with ⟨v, hv⟩ | hident
  · rw [hv]
    exact .literal v
  · rw [hident]
    exact ⟨trivial, fun _ => rfl⟩

theorem member (ha : Reads a t) (hb : Reads b u) : Reads (.member a b) (.member t u) where
  supported := ⟨ha.supported, hb.supported⟩
  eval_eq ctx := by simp [ha.eval_eq, hb.eval_eq]

theorem not (ha : Reads a t) : Reads (.not a) (.not t) where
  supported := ha.supported
  eval_eq ctx := by simp [ha.eval_eq]

theorem neg (ha : Reads a t) : Reads (.neg a) (.neg t) where
  supported := ha.supported
  eval_eq ctx := by simp [ha.eval_eq]

theorem and (ha : Reads a t) (hb : Reads b u) : Reads (.binary .and a b) (.and t u) where
  supported := ⟨.inl rfl, ha.supported, hb.supported⟩
  eval_eq ctx := by simp [ha.eval_eq, hb.eval_eq]

theorem or (ha : Reads a t) (hb : Reads b u) : Reads (.binary .or a b) (.or t u) where
  supported := ⟨.inr (.inl rfl), ha.supported, hb.supported⟩
  eval_eq ctx := by simp [ha.eval_eq, hb.eval_eq]

theorem compare {o : Operator} {comparison : Comparison} (ho : o.comparison? = some comparison)
    (ha : Reads a t) (hb : Reads b u) : Reads (.binary o a b) (.compare comparison t u) where
  supported := ⟨.inr (.inr ⟨comparison, ho⟩), ha.supported, hb.supported⟩
  eval_eq ctx := by
    have hand : o ≠ .and := by rintro rfl; cases ho
    have hor : o ≠ .or := by rintro rfl; cases ho
    rw [eval, Term.eval, ha.eval_eq, hb.eval_eq, ho]
    · exact hand
    · exact hor

theorem cond (ha : Reads a t) (hb : Reads b u) (hc : Reads c w) :
    Reads (.cond a b c) (.cond t u w) where
  supported := ⟨ha.supported, hb.supported, hc.supported⟩
  eval_eq ctx := by simp [ha.eval_eq, hb.eval_eq, hc.eval_eq]

end Reads

end SyntaxTree

/-! ## The trees of the parser -/

namespace Term

/-- What a nonterminal is read as: a tree, or for a row what becomes of the tree before it. -/
@[reducible]
def Nonterminal.Reading : Nonterminal → Type
  | .phrase _ => SyntaxTree
  | .moreOr | .moreAnd | .moreAccess => SyntaxTree → SyntaxTree

namespace ParseTree

/-- The syntax tree of a derivation: it has the operators that stand there; rows are grouped to the
left. -/
def syntaxTree : {n : Nonterminal} → ParseTree n → n.Reading
  | _, .ofOr test => test.syntaxTree
  | _, .cond test yes no => SyntaxTree.cond test.syntaxTree yes.syntaxTree no.syntaxTree
  | _, .or head more => more.syntaxTree head.syntaxTree
  | _, .orNil => id
  | _, .orCons right more => fun left => more.syntaxTree (.binary .or left right.syntaxTree)
  | _, .and head more => more.syntaxTree head.syntaxTree
  | _, .andNil => id
  | _, .andCons right more => fun left => more.syntaxTree (.binary .and left right.syntaxTree)
  | _, .ofUnary operand => operand.syntaxTree
  | _, .compare o _ _ left right => SyntaxTree.binary o left.syntaxTree right.syntaxTree
  | _, .not operand => SyntaxTree.not operand.syntaxTree
  | _, .neg operand => SyntaxTree.neg operand.syntaxTree
  | _, .ofAccess target => target.syntaxTree
  | _, .access head more => more.syntaxTree head.syntaxTree
  | _, .accessNil => id
  | _, .named _ _ name more => fun target =>
    more.syntaxTree (.member target (.literal (.json (.str name))))
  | _, .index key more => fun target => more.syntaxTree (.member target key.syntaxTree)
  | _, .num x => SyntaxTree.literal (.json (numberJson x))
  | _, .str content => SyntaxTree.literal (.json (.str content))
  | _, .word name => SyntaxTree.ofWord name
  | _, .paren inner => inner.syntaxTree

/-- The syntax tree of a phrase reads its term, and that of a row goes on with a tree as its term
goes on with the term of the tree. -/
def Read : {n : Nonterminal} → ParseTree n → Prop
  | .phrase _, d => SyntaxTree.Reads d.syntaxTree d.term
  | .moreOr, d | .moreAnd, d | .moreAccess, d =>
    ∀ {a t}, SyntaxTree.Reads a t → SyntaxTree.Reads (d.syntaxTree a) (d.term t)

theorem read {n : Nonterminal} (d : ParseTree n) : d.Read := by
  induction d with
  | ofOr _ ih | ofUnary _ ih | ofAccess _ ih | paren _ ih => exact ih
  | cond _ _ _ htest hyes hno => exact .cond htest hyes hno
  | or _ _ hhead hmore | and _ _ hhead hmore | access _ _ hhead hmore => exact hmore hhead
  | orNil | andNil | accessNil => exact fun h => h
  | orCons _ _ hright hmore => exact fun h => hmore (h.or hright)
  | andCons _ _ hright hmore => exact fun h => hmore (h.and hright)
  | compare _ _ ho _ _ hleft hright => exact .compare ho hleft hright
  | not _ ih => exact .not ih
  | neg _ ih => exact .neg ih
  | named _ _ name _ hmore => exact fun h => hmore (h.member (.literal _))
  | index _ _ hkey hmore => exact fun h => hmore (h.member hkey)
  | num x => exact .literal _
  | str content => exact .literal _
  | word name => exact .ofWord name

end ParseTree

end Term

end LivePage
