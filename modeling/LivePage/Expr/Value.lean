import LivePage.Json.Printer

/-!
# Values of expressions

An expression evaluates to a JSON value or to *undefined*, which JSON's null is not: undefined is
what a missing member or a source that is still loading yields.
-/

namespace LivePage

/-- The value of an expression. -/
inductive Value
  | undefined
  | json (value : Json)
deriving Inhabited

namespace Value

/-- Whether a value is undefined. -/
def isUndefined : Value → Bool
  | .undefined => true
  | .json _ => false

/-- The JSON value, if there is one. -/
def json? : Value → Option Json
  | .undefined => none
  | .json j => some j

/-- The string, if the value is one. -/
def string? : Value → Option String
  | .json (.str s) => some s
  | _ => none

/-- The JSON value, null for undefined. -/
def toJson : Value → Json
  | .undefined => .null
  | .json j => j

/-- The value as shown to a reader; undefined is shown as nothing. -/
def display : Value → String
  | .undefined => ""
  | .json j => j.display

/-- Whether the value counts as true. -/
def truthy : Value → Bool
  | .undefined => false
  | .json j => j.truthy

/-- A value that is a truth value. -/
def ofBool (b : Bool) : Value := .json (.bool b)

end Value

end LivePage
