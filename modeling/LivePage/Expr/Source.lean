import LivePage.Expr.Eval
import LivePage.Expr.Names
import LivePage.Expr.Template

/-!
# Evaluation of sources

A source is a template. Before one of its expressions is evaluated, the data sources that it
mentions are looked at (`evaluateGuarded`): if one failed, the expression fails with it, and if one
is loading, the expression is undefined, whichever part of it would have been reached. All the rest
of an expression is left to an `Evaluator`.
-/

namespace LivePage

/-- What gives expressions their values in a context. -/
structure Evaluator where
  evaluate : Context → String → Except EvalError Value

/-- The evaluator of path expressions, which is that of this library. -/
def Evaluator.path : Evaluator := ⟨evaluateExpression⟩

@[simp] theorem Evaluator.evaluate_path (ctx : Context) (expression : String) :
    Evaluator.path.evaluate ctx expression = evaluateExpression ctx expression := rfl

/-- The failure of the first name that is bound to one. -/
def firstFailure? (ctx : Context) (names : List String) : Option EvalError :=
  names.findSome? fun name =>
    match ctx.lookup name with
    | some (.error message) => some (.dataSource name message)
    | _ => none

/-- Whether one of the names is bound to a source that is loading. -/
def anyPending (ctx : Context) (names : List String) : Bool :=
  names.any fun name =>
    match ctx.lookup name with
    | some .pending => true
    | _ => false

section

variable (evaluator : Evaluator) (ctx : Context)

/-- The value of an expression, once all the data sources that it mentions are there. -/
def evaluateGuarded (expression : String) : Except EvalError Value :=
  let names := freeIdentifiers expression
  match firstFailure? ctx names with
  | some failure => .error failure
  | none => if anyPending ctx names then .ok .undefined else evaluator.evaluate ctx expression

/-- The text of a segment. -/
def evaluateSegment : Segment → Except EvalError String
  | .text text => .ok text
  | .expr expression => (evaluateGuarded evaluator ctx expression).map Value.display

/-- The texts of segments, joined. -/
def evaluateSegments : List Segment → Except EvalError String
  | [] => .ok ""
  | segment :: segments => do
    let text ← evaluateSegment evaluator ctx segment
    let rest ← evaluateSegments segments
    return text ++ rest

/-- The value of a source in a context. -/
def evaluateSource (source : String) : Except EvalError Value :=
  match Template.parse source with
  | .error fault => .error (.malformed fault)
  | .ok (.expr expression) => evaluateGuarded evaluator ctx expression
  | .ok (.interpolated segments) =>
    (evaluateSegments evaluator ctx segments).map fun text => .json (.str text)

end

end LivePage
