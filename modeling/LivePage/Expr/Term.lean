import LivePage.Expr.Token
import LivePage.Expr.Value

/-!
# Terms

The abstract form of an expression: literals, identifiers, member access, negations, comparisons,
the two short-circuit connectives and the conditional.
-/

namespace LivePage

/-- The comparisons of the language. -/
inductive Comparison
  | strictEqual | strictUnequal | equal | unequal | atLeast | atMost | greater | less
deriving DecidableEq

/-- The comparison that an operator writes. -/
def Operator.comparison? : Operator → Option Comparison
  | .strictEqual => some .strictEqual
  | .strictUnequal => some .strictUnequal
  | .equal => some .equal
  | .unequal => some .unequal
  | .atLeast => some .atLeast
  | .atMost => some .atMost
  | .greater => some .greater
  | .less => some .less
  | _ => none

/-- An expression. -/
inductive Term
  | literal (value : Value)
  | ident (name : String)
  | member (target key : Term)
  | not (operand : Term)
  | neg (operand : Term)
  | compare (comparison : Comparison) (left right : Term)
  | and (left right : Term)
  | or (left right : Term)
  | cond (test yes no : Term)
deriving Inhabited

namespace Term

/-- The term of a word: the four constants, or an identifier. -/
def ofWord (name : String) : Term :=
  if name = "true" then .literal (.json (.bool true))
  else if name = "false" then .literal (.json (.bool false))
  else if name = "null" then .literal (.json .null)
  else if name = "undefined" then .literal .undefined
  else .ident name

/-- The JSON number of a double: an integer if it has no fraction and lies below `9 * 10 ^ 15` in
magnitude, else a double, and null if it is not finite. -/
def numberJson (x : Binary64) : Json :=
  match x.integer? with
  | some i =>
    if i.natAbs < 9 * Nat.pow 10 15 then .num (.int i) else .num (.double x)
  | none => if x.isFinite then .num (.double x) else .null

/-- The identifiers of a term from left to right, repetitions included. -/
def idents : Term → List String
  | .literal _ => []
  | .ident name => [name]
  | .member target key => target.idents ++ key.idents
  | .not operand => operand.idents
  | .neg operand => operand.idents
  | .compare _ left right => left.idents ++ right.idents
  | .and left right => left.idents ++ right.idents
  | .or left right => left.idents ++ right.idents
  | .cond test yes no => test.idents ++ yes.idents ++ no.idents

end Term

end LivePage
