import LivePage.Text.Character
import LivePage.Expr.Fault

/-!
# Templates

A source is either one expression, or text in which `$` and an opening brace begin a group: an
expression up to the brace that closes it. Braces inside a group are counted, and those inside its
string literals are not seen.

* `Template.closeGroup`: the inside of a group and the text after it.
* `Template.split`: the segments of a text, groups and the text between them.
* `Template.parse`: the template of a source; a text that is one group is that expression alone.
-/

namespace LivePage

/-- A piece of a template. -/
inductive Segment
  | text (text : String)
  | expr (expression : String)
deriving DecidableEq

/-- How a source is to be read. -/
inductive Template
  /-- One expression, whose value keeps its type. -/
  | expr (expression : String)
  /-- Text and expressions, whose values are joined into one string. -/
  | interpolated (segments : List Segment)
deriving DecidableEq

namespace Template

/-- Whether a text begins with the opening of a group. -/
def opensGroup : List Char → Bool
  | '$' :: '\x7b' :: _ => true
  | _ => false

/-- Whether a text has a group in it. -/
def hasGroup : List Char → Bool
  | [] => false
  | c :: cs => opensGroup (c :: cs) || hasGroup cs

/-- Puts characters before the inside of a group. -/
def extendInside (cs : List Char) (r : Option (List Char × List Char)) :
    Option (List Char × List Char) :=
  r.map fun r => (cs ++ r.1, r.2)

/-- The text up to the brace that closes a group, and the text after that brace. `depth` counts the
braces that are open inside the group, and `quote` is the quote of the string literal that is
open. -/
def closeGroup (depth : Nat) (quote : Option Char) : List Char → Option (List Char × List Char)
  | [] => none
  | c :: cs =>
    match quote with
    | some q =>
      if c = '\\' then
        match cs with
        | [] => none
        | d :: ds => extendInside [c, d] (closeGroup depth quote ds)
      else extendInside [c] (closeGroup depth (if c = q then none else quote) cs)
    | none =>
      if c = '\x27' ∨ c = '\x22' ∨ c = '\x60' then
        extendInside [c] (closeGroup depth (some c) cs)
      else if c = '\x7b' then extendInside [c] (closeGroup (depth + 1) none cs)
      else if c = '\x7d' then
        match depth with
        | 0 => some ([], cs)
        | depth + 1 => extendInside [c] (closeGroup depth none cs)
      else extendInside [c] (closeGroup depth none cs)

/-- The text before the next group. -/
def takeText : List Char → List Char
  | [] => []
  | c :: cs => if opensGroup (c :: cs) then [] else c :: takeText cs

/-- The segments of a text at an offset of its source; `skip` leading characters belong to the
segment before it. -/
def split (offset : Nat) : Nat → List Char → Except SyntaxFault (List Segment)
  | _, [] => .ok []
  | skip + 1, _ :: cs => split (offset + 1) skip cs
  | 0, c :: cs =>
    if opensGroup (c :: cs) then
      match closeGroup 0 none (cs.drop 1) with
      | none => .error (.unclosedGroup offset)
      | some (inside, _) =>
        let expression := Text.trim inside
        if expression.isEmpty then .error (.emptyGroup offset)
        else
          (split (offset + 1) (inside.length + 2) cs).map (.expr (String.ofList expression) :: ·)
    else
      let text := takeText cs
      (split (offset + 1) text.length cs).map (.text (String.ofList (c :: text)) :: ·)

/-- The template of a source. -/
def parse (source : String) : Except SyntaxFault Template :=
  let cs := source.toList
  if hasGroup cs then
    (split 0 0 cs).map fun segments =>
      match segments with
      | [.expr expression] => .expr expression
      | segments => .interpolated segments
  else .ok (.expr (String.ofList (Text.trim cs)))

/-- The expressions of a template, in order. -/
def expressions : Template → List String
  | .expr expression => [expression]
  | .interpolated segments => segments.filterMap fun segment =>
    match segment with
    | .expr expression => some expression
    | .text _ => none

end Template

end LivePage
