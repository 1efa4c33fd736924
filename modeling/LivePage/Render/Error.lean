import LivePage.Expr.Fault

/-!
# Failures of rendering

A failure concerns one component and never ends the rendering of a page.
-/

namespace LivePage

/-- What can fail at a component. -/
inductive RenderError
  /-- No renderer is registered for the type. -/
  | unknownComponent (type : String)
  /-- A bound property has no value. -/
  | expression (prop : String) (cause : EvalError)
  /-- A renderer gave up. -/
  | renderer (component message : String)
deriving DecidableEq

/-- The wording of a failure. -/
def RenderError.message : RenderError → String
  | .unknownComponent type => "unknown component: " ++ type
  | .expression prop cause => "expression error in `" ++ prop ++ "`: " ++ cause.message
  | .renderer component message => "renderer `" ++ component ++ "` failed: " ++ message

end LivePage
