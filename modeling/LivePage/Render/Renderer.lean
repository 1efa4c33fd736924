import LivePage.Output.Basic
import LivePage.Render.Error
import LivePage.Render.Props
import LivePage.Tree.Component

/-!
# Renderers

A renderer turns a component and its evaluated properties into output. It decides whether, when and
how often the children of the component are rendered, and it may fail or panic at any point.
`Action` is what it does next; a renderer is a function to actions, so every rendering ends.
-/

namespace LivePage

/-- What a panicking renderer leaves behind: a text, or something that is none. -/
inductive Panic
  | text (message : String)
  | other
deriving DecidableEq

/-- The message of a panic. -/
def Panic.message : Panic → String
  | .text message => message
  | .other => "renderer panicked"

/-- What a renderer is given. -/
structure RenderInput where
  component : Component
  context : Context
  props : Props
  style : Props

/-- What a renderer does next. -/
inductive Action
  /-- It returns its output. -/
  | done (output : Output)
  /-- It fails. -/
  | fail (error : RenderError)
  /-- It panics. -/
  | panic (payload : Panic)
  /-- It has the children rendered and goes on with their outputs. -/
  | children (next : List Output → Action)

/-- A renderer of components. -/
abbrev Renderer := RenderInput → Action

end LivePage
