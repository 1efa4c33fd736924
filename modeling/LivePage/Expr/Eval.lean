import LivePage.Text.Character
import LivePage.Expr.Context
import LivePage.Expr.Parser

/-!
# Evaluation of terms

* `Value.member`: reading a member, which never fails: what is not there is undefined.
* `Value.toNumber`: the number that a value counts as in comparisons.
* `Comparison.holds`: the comparisons; strict ones compare as they are, loose ones after conversion.
* `Term.eval`: the value of a term in a context. `&&`, `||` and the conditional evaluate only the
  operands that they need.
-/

namespace LivePage

namespace Value

/-- The member of a value under a key. Objects have their fields, arrays their items under decimal
numerals and their length, strings their length in code points. -/
def member (target key : Value) : Value :=
  let name := key.display
  let found := match target with
    | .json (.obj fields) => KeyMap.lookup name fields
    | .json (.arr items) =>
      if name = "length" then some (.num (.int items.length))
      else (Decimal.natural? name.toList).bind fun i => items[i]?
    | .json (.str s) => if name = "length" then some (.num (.int s.length)) else none
    | _ => none
  match found with
  | some j => .json j
  | none => .undefined

/-- The number that a value counts as: blank strings and null are zero, and what is no number is
not-a-number. -/
def toNumber : Value → Binary64
  | .undefined => .nan
  | .json (.num n) => n.toBinary64
  | .json (.bool b) => Binary64.ofInt (if b then 1 else 0)
  | .json .null => Binary64.zero
  | .json (.str s) =>
    let cs := Text.trim s.toList
    if cs.isEmpty then Binary64.zero else (Binary64.ofText? cs).getD .nan
  | .json _ => .nan

/-- Equality without conversion; numbers are compared as doubles, whichever way they are written. -/
def strictEquals : Value → Value → Bool
  | .undefined, .undefined => true
  | .json (.num m), .json (.num n) => m.toBinary64.equals n.toBinary64
  | .json a, .json b => a.equals b
  | _, _ => false

/-- Undefined and null. -/
def isNullish : Value → Bool
  | .undefined => true
  | .json .null => true
  | _ => false

/-- Equality after conversion: as numbers where both sides count as numbers, else as text. Undefined
and null equal each other and nothing else; strings, and containers on the left, are compared as
they are. -/
def looseEquals (l r : Value) : Bool :=
  if l.isNullish || r.isNullish then l.isNullish && r.isNullish
  else
    match l, r with
    | .json (.str a), .json (.str b) => a == b
    | .json (.obj fields), .json b => (Json.obj fields).equals b
    | .json (.arr items), .json b => (Json.arr items).equals b
    | .json a, .json b =>
      let x := l.toNumber
      let y := r.toNumber
      if x.isNaN || y.isNaN then a.display == b.display else x.equals y
    | _, _ => false

end Value

/-- Whether a comparison holds between two values. -/
def Comparison.holds : Comparison → Value → Value → Bool
  | .strictEqual, l, r => l.strictEquals r
  | .strictUnequal, l, r => !l.strictEquals r
  | .equal, l, r => l.looseEquals r
  | .unequal, l, r => !l.looseEquals r
  | .greater, l, r => r.toNumber.less l.toNumber
  | .less, l, r => l.toNumber.less r.toNumber
  | .atLeast, l, r => r.toNumber.atMost l.toNumber
  | .atMost, l, r => l.toNumber.atMost r.toNumber

namespace Term

/-- The value of an identifier. -/
def evalIdent (ctx : Context) (name : String) : Except EvalError Value :=
  match ctx.lookup name with
  | some (.value v) => .ok (.json v)
  | some .pending => .ok .undefined
  | some (.error message) => .error (.dataSource name message)
  | none => .error (.unresolved name)

/-- The value of a term in a context. -/
def eval (ctx : Context) : Term → Except EvalError Value
  | .literal v => .ok v
  | .ident name => evalIdent ctx name
  | .member target key => do
    let target ← eval ctx target
    let key ← eval ctx key
    return target.member key
  | .not operand => do
    let v ← eval ctx operand
    return Value.ofBool (!v.truthy)
  | .neg operand => do
    let v ← eval ctx operand
    return .json (numberJson v.toNumber.neg)
  | .compare comparison left right => do
    let l ← eval ctx left
    let r ← eval ctx right
    return Value.ofBool (comparison.holds l r)
  | .and left right => do
    let l ← eval ctx left
    if l.truthy then eval ctx right else return l
  | .or left right => do
    let l ← eval ctx left
    if l.truthy then return l else eval ctx right
  | .cond test yes no => do
    let t ← eval ctx test
    if t.truthy then eval ctx yes else eval ctx no

end Term

/-- The value of an expression in a context. -/
def evaluateExpression (ctx : Context) (expression : String) : Except EvalError Value :=
  match Term.parse expression with
  | .error fault => .error (.malformed fault)
  | .ok term => term.eval ctx

end LivePage
