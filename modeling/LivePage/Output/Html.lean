import LivePage.Json.Printer
import LivePage.Output.Basic

/-!
# Output as HTML

`Output.toHtml` is the only place where output becomes markup. Text and attribute values are
escaped; names of tags, attributes and style properties are written only if they are harmless words.

* `isSafeAttr`, `isTag`, `isStyleProperty`: the names that are written.
* `escape`: text in which no character can begin or end markup.
-/

namespace LivePage

namespace Html

/-- A name that may stand for an attribute: letters, digits and `-_:.` after a letter, `_` or `:`,
and no event handler, whose names begin with `on`. -/
def isSafeAttr (name : String) : Bool :=
  match name.toList with
  | [] => false
  | first :: rest =>
    (first.isAlpha || first == '_' || first == ':') &&
      rest.all (fun c => c.isAlphanum || c == '-' || c == '_' || c == ':' || c == '.') &&
      !(((first :: rest).take 2).map Char.toLower == ['o', 'n'])

/-- A tag name: letters, digits and hyphens after a letter. -/
def isTag (tag : String) : Bool :=
  match tag.toList with
  | [] => false
  | first :: rest => first.isAlpha && rest.all fun c => c.isAlphanum || c == '-'

/-- The name of a style property: letters and hyphens. -/
def isStyleProperty (name : String) : Bool :=
  !name.toList.isEmpty && name.toList.all fun c => c.isAlpha || c == '-'

/-- A capital letter as a hyphen and the small letter. -/
def kebabChar (c : Char) : List Char := if c.isUpper then ['-', c.toLower] else [c]

/-- A style property as it is written: `backgroundColor` is `background-color`. -/
def kebab (name : String) : String := String.ofList (name.toList.flatMap kebabChar)

/-- A character in text or in an attribute value. -/
def escapeChar (c : Char) : List Char :=
  if c = '&' then ['&', 'a', 'm', 'p', ';']
  else if c = '<' then ['&', 'l', 't', ';']
  else if c = '>' then ['&', 'g', 't', ';']
  else if c = '\x22' then ['&', 'q', 'u', 'o', 't', ';']
  else [c]

/-- Text without characters that mean something in markup. -/
def escape (s : String) : String := String.ofList (s.toList.flatMap escapeChar)

/-- The tags of elements that have no content. -/
def voidTags : List String := ["img", "input", "br", "hr"]

/-- An attribute with a value. -/
def valueAttr (name value : String) : String := " " ++ name ++ "=\"" ++ escape value ++ "\""

/-- An attribute of an element: true is the bare name, false and null are left out. -/
def attrText (name : String) : Json → String
  | .bool true => " " ++ name
  | .bool false => ""
  | .null => ""
  | value => valueAttr name value.display

/-- A style entry as a declaration, unless it is null or its name is no property. -/
def declaration? (name : String) (value : Json) : Option String :=
  match value with
  | .null => none
  | value => if isStyleProperty name then some (kebab name ++ ": " ++ value.display) else none

/-- The declarations of a style in key order. -/
def styleText (style : KeyMap Json) : String :=
  "; ".intercalate (style.entries.filterMap fun e => declaration? e.1 e.2)

/-- A start tag up to its closing bracket: the tag, the component's id, the attributes with safe
names in key order, and the style. -/
def startTag (tag nodeId : String) (attrs style : KeyMap Json) : String :=
  let id := if nodeId.isEmpty then "" else valueAttr "data-node-id" nodeId
  let safe := attrs.entries.filter fun e => isSafeAttr e.1
  let css := styleText style
  "<" ++ tag ++ id ++ String.join (safe.map fun e => attrText e.1 e.2) ++
    if css.isEmpty then "" else valueAttr "style" css

/-- The class that tells the kinds of markers apart. -/
def markerClass : MarkerKind → String
  | .unknown => "render-marker--unknown"
  | .error => "render-marker--error"

end Html

namespace Output

mutual

/-- The HTML of an output. -/
def toHtml : Output → String
  | .element tag id attrs style children =>
    let tag := if Html.isTag tag then tag else "div"
    if Html.voidTags.contains tag then Html.startTag tag id attrs style ++ " />"
    else Html.startTag tag id attrs style ++ ">" ++ toHtmlAll children ++ "</" ++ tag ++ ">"
  | .text s => Html.escape s
  | .fragment children => toHtmlAll children
  | .marker kind id message =>
    "<div class=\"render-marker " ++ Html.markerClass kind ++ "\"" ++
      Html.valueAttr "data-node-id" id ++ ">" ++ Html.escape message ++ "</div>"
  | .empty => ""

/-- The HTML of a row of outputs. -/
def toHtmlAll : List Output → String
  | [] => ""
  | o :: os => o.toHtml ++ toHtmlAll os

end

end Output

end LivePage
