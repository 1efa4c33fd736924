import LivePage.Output.Html
import LivePage.Render.Renderer

/-!
# Built-in renderers

* `Renderer.container`: an element around the children.
* `Renderer.text`: a `span` with the property `content` as its text; it never renders children.
* `Renderer.image`: an `img` whose scaling mode becomes a style, unless the style says it itself.
* `Renderer.button`: a `button` whose look is told by classes.
-/

namespace LivePage

/-- The element of a component: its properties as attributes, but for those in `skip` and those
whose names are not safe, and its style. -/
def RenderInput.element (input : RenderInput) (tag : String) (skip : List String) : Output :=
  let attrs := input.props.jsonMap.filter fun name _ =>
    !skip.contains name && Html.isSafeAttr name
  .element tag input.component.id attrs input.style.jsonMap []

/-- The `object-fit` of an image's scaling mode. -/
def objectFit? (mode : String) : Option String :=
  match mode with
  | "scaleToFill" => some "fill"
  | "aspectFit" => some "contain"
  | "aspectFill" => some "cover"
  | "widthFix" => some "contain"
  | "heightFix" => some "contain"
  | _ => none

namespace Renderer

/-- An element around the children. -/
def container (tag : String) : Renderer := fun input =>
  .children fun children => .done ((input.element tag []).withChildren children)

/-- A `span` with its content as text. -/
def text : Renderer := fun input =>
  let content := (input.props.value "content").display
  .done ((input.element "span" ["content"]).withChildren [.text content])

/-- An `img`; its mode, by default `scaleToFill`, gives the `objectFit` that its style does not. -/
def image : Renderer := fun input =>
  let element := input.element "img" ["mode", "lazyLoad"]
  let element :=
    if input.props.isOn "lazyLoad" then element.withAttr "loading" (.str "lazy") else element
  if (input.style.value "objectFit").isUndefined then
    match objectFit? ((input.props.string? "mode").getD "scaleToFill") with
    | some fit => .done (element.withStyle "objectFit" (.str fit))
    | none => .done element
  else .done element

/-- The classes of a button. -/
def buttonClasses (props : Props) : List String :=
  ["btn-" ++ (props.string? "type").getD "default"] ++
    (if (props.string? "size").getD "default" = "mini" then ["btn-mini"] else []) ++
    (if props.isOn "plain" then ["btn-plain"] else [])

/-- A `button` with its content, if it has any, before its children. -/
def button : Renderer := fun input =>
  let props := input.props
  let element := (input.element "button" ["content", "type", "size", "plain", "disabled"]).withAttr
    "class" (.str (" ".intercalate (buttonClasses props)))
  let element :=
    if props.isOn "disabled" then element.withAttr "disabled" (.bool true) else element
  let content := props.value "content"
  let label := if content.isUndefined then [] else [Output.text content.display]
  .children fun children => .done (element.withChildren (label ++ children))

end Renderer

end LivePage
