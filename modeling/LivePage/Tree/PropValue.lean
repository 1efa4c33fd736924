import LivePage.Json.Printer

/-!
# Property values

The value of a property or of a style entry is fixed when the page is edited: a literal, or the
source of an expression to be evaluated at each rendering. In JSON a bound value is an object whose
only key is `$expr`; every other value is a literal.
-/

namespace LivePage

/-- A literal, or the source of an expression. -/
inductive PropValue
  | literal (value : Json)
  | bound (source : String)

/-- The source of a bound value is not a string but this. -/
structure NotASource where
  found : Json

namespace PropValue

/-- The key of a bound value. -/
def exprKey : String := "$expr"

/-- Whether a value is to be evaluated. -/
def isBound : PropValue → Bool
  | .literal _ => false
  | .bound _ => true

/-- The property value that a JSON value stands for. -/
def ofJson : Json → Except NotASource PropValue
  | .obj [(key, value)] =>
    if key = exprKey then
      match value with
      | .str source => .ok (.bound source)
      | found => .error ⟨found⟩
    else .ok (.literal (.obj [(key, value)]))
  | j => .ok (.literal j)

/-- A property value as JSON. -/
def toJson : PropValue → Json
  | .literal j => j
  | .bound source => .obj [(exprKey, .str source)]

/-- Reads a property value. -/
def ofRaw? (j : RawJson) : Option PropValue :=
  j.value?.bind fun value =>
    match ofJson value with
    | .ok p => some p
    | .error _ => none

end PropValue

/-- The wording of the failure. -/
def NotASource.message (e : NotASource) : String :=
  "`" ++ PropValue.exprKey ++ "` must be a string, got " ++ e.found.compact

/-- Properties or style entries, by name. -/
abbrev PropMap := KeyMap PropValue

end LivePage
