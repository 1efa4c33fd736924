/-!
# Paths

A path is a string whose parts are separated by slashes.

* `Path.parts`: the parts as they count for what a path names. Empty parts and points between others
  are passed over; a slash or a point at the beginning and every double point are parts of their
  own.
* `Path.join`: a path seen from a directory.
* `Path.parent?`: a path without its last part.
-/

namespace LivePage

namespace Path

/-- A part of a path. -/
inductive Part
  | root
  | current
  | parent
  | normal (name : String)
deriving DecidableEq

/-- The stretches of a text between slashes. -/
def stretches : List Char → List (List Char)
  | [] => [[]]
  | c :: cs =>
    if c = '/' then [] :: stretches cs
    else
      match stretches cs with
      | [] => [[c]]
      | first :: rest => (c :: first) :: rest

/-- A stretch as a part, unless it is empty or a point. -/
def stretchPart? (cs : List Char) : Option Part :=
  if cs = [] ∨ cs = ['.'] then none
  else if cs = ['.', '.'] then some .parent
  else some (.normal (String.ofList cs))

/-- How a path begins: a slash, a point that is a part, or neither; and the text after that. -/
def beginning : List Char → List Char × List Char
  | '/' :: cs => (['/'], cs)
  | ['.'] => (['.'], [])
  | '.' :: '/' :: cs => (['.'], '/' :: cs)
  | cs => ([], cs)

/-- The parts of a path. -/
def parts (path : String) : List Part :=
  let (start, body) := beginning path.toList
  let first := if start = ['/'] then [Part.root] else if start = ['.'] then [Part.current] else []
  first ++ (stretches body).filterMap stretchPart?

/-- A path seen from a directory; one that begins with a slash is not seen from anywhere. -/
def join (dir path : String) : String :=
  if path.toList.head? = some '/' || dir.isEmpty then path
  else if dir.toList.getLast? = some '/' then dir ++ path
  else dir ++ "/" ++ path

/-- Stretches without those at the end that are no part. -/
def dropTrailing (ss : List (List Char)) : List (List Char) :=
  (ss.reverse.dropWhile fun s => (stretchPart? s).isNone).reverse

/-- A path without its last part; the empty path and the root have none. -/
def parent? (path : String) : Option String :=
  let (start, body) := beginning path.toList
  match (dropTrailing (stretches body)).reverse with
  | [] => if start = ['.'] then some "" else none
  | _ :: before =>
    some (String.ofList (start ++ ['/'].intercalate (dropTrailing before.reverse)))

end Path

end LivePage
