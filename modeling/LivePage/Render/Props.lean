import LivePage.Expr.Source
import LivePage.Tree.PropValue

/-!
# Evaluated properties

`evaluateProps` gives every property of a component a value: literals as they are, bound ones by
evaluation, and undefined where evaluation fails. The failures are returned beside the values, in
key order.
-/

namespace LivePage

/-- Values by property name. -/
abbrev Props := KeyMap Value

namespace Props

/-- The value of a property; one that is not there is undefined. -/
def value (props : Props) (name : String) : Value := (props.get? name).getD .undefined

/-- The string that a property holds, if it holds one. -/
def string? (props : Props) (name : String) : Option String := (props.value name).string?

/-- The properties that have a value. -/
def jsonMap (props : Props) : KeyMap Json := props.filterMap fun _ v => v.json?

/-- A property read as a switch: a string is on if it is `true` or the name of the property, any
other value if it counts as true. -/
def isOn (props : Props) (name : String) : Bool :=
  match props.string? name with
  | some s => s == "true" || s == name
  | none => (props.value name).truthy

end Props

/-- A property whose evaluation failed. -/
structure PropFailure where
  prop : String
  error : EvalError
deriving DecidableEq

section

variable (evaluator : Evaluator) (ctx : Context)

/-- The value of a property in a context. -/
def evaluateProp : PropValue → Except EvalError Value
  | .literal j => .ok (.json j)
  | .bound source => evaluateSource evaluator ctx source

/-- The value of a property, undefined if its evaluation fails. -/
def propValueOrUndefined (p : PropValue) : Value :=
  match evaluateProp evaluator ctx p with
  | .ok v => v
  | .error _ => .undefined

/-- The failure of a property, if its evaluation fails. -/
def propFailure? (name : String) (p : PropValue) : Option PropFailure :=
  match evaluateProp evaluator ctx p with
  | .ok _ => none
  | .error e => some ⟨name, e⟩

/-- The values of properties, and the failures among them in key order. -/
def evaluateProps (props : PropMap) : Props × List PropFailure :=
  (props.mapValues (propValueOrUndefined evaluator ctx),
    props.entries.filterMap fun e => propFailure? evaluator ctx e.1 e.2)

end

end LivePage
