import LivePage.Json.Basic
import LivePage.Number.Text

/-!
# JSON text

* `RawJson.compact`: a document without any blanks.
* `RawJson.pretty`: a document on lines, indented by two spaces a level; empty arrays and objects
  are `[]` and `{}`.
* `Json.display`: a value as shown to a reader: strings bare, null nothing, small integral doubles
  as integers.
-/

namespace LivePage

namespace Json

/-- In JSON text, leading digits worth `10 ^ (-5)` to `10 ^ 15` are written positionally, an
integral value keeps `.0`, and ties go to the even digit. -/
def doubleFormat : DoubleFormat where
  positional leading := decide (-5 ≤ leading) && decide (leading ≤ 15)
  integralEnd := ".0"
  tie := .even

/-- The text of a number. -/
def numberText : Number → String
  | .int i => Decimal.integerText i
  | .double x => x.text doubleFormat

/-- One character inside a string: quote, backslash and control characters are escaped. -/
def escapeChar (c : Char) : List Char :=
  if c = '\x22' then ['\\', '\x22']
  else if c = '\\' then ['\\', '\\']
  else if c = '\x08' then ['\\', 'b']
  else if c = '\x0c' then ['\\', 'f']
  else if c = '\n' then ['\\', 'n']
  else if c = '\r' then ['\\', 'r']
  else if c = '\t' then ['\\', 't']
  else if c.toNat < 0x20 then
    ['\\', 'u', '0', '0', Nat.digitChar (c.toNat / 16), Nat.digitChar (c.toNat % 16)]
  else [c]

/-- A string in quotes. -/
def quote (s : String) : String :=
  "\"" ++ String.ofList (s.toList.flatMap escapeChar) ++ "\""

end Json

namespace RawJson

mutual

/-- The text of a document without blanks. -/
def compact : RawJson → String
  | .null => "null"
  | .bool b => if b then "true" else "false"
  | .num n => Json.numberText n
  | .str s => Json.quote s
  | .arr items => "[" ++ ",".intercalate (compactItems items) ++ "]"
  | .obj fields => "\x7b" ++ ",".intercalate (compactFields fields) ++ "\x7d"
  | .valueless => "null"

/-- The texts of the items of an array. -/
def compactItems : List RawJson → List String
  | [] => []
  | x :: xs => x.compact :: compactItems xs

/-- The texts of the fields of an object. -/
def compactFields : List (String × RawJson) → List String
  | [] => []
  | (k, x) :: fs => (Json.quote k ++ ":" ++ x.compact) :: compactFields fs

end

/-- A line break and the indentation of a level. -/
def newLine (level : Nat) : String := "\n" ++ String.ofList (List.replicate (2 * level) ' ')

/-- Items between brackets, each on a line of its own; nothing between them if there are none. -/
def block (opening closing : String) (level : Nat) (items : List String) : String :=
  if items.isEmpty then opening ++ closing
  else
    opening ++ newLine (level + 1) ++ ("," ++ newLine (level + 1)).intercalate items ++
      newLine level ++ closing

mutual

/-- The text of a document that stands at an indentation level. -/
def prettyAt (level : Nat) : RawJson → String
  | .arr items => block "[" "]" level (prettyItems (level + 1) items)
  | .obj fields => block "\x7b" "\x7d" level (prettyFields (level + 1) fields)
  | .null => "null"
  | .bool b => if b then "true" else "false"
  | .num n => Json.numberText n
  | .str s => Json.quote s
  | .valueless => "null"

/-- The texts of the items of an array at a level. -/
def prettyItems (level : Nat) : List RawJson → List String
  | [] => []
  | x :: xs => x.prettyAt level :: prettyItems level xs

/-- The texts of the fields of an object at a level. -/
def prettyFields (level : Nat) : List (String × RawJson) → List String
  | [] => []
  | (k, x) :: fs => (Json.quote k ++ ": " ++ x.prettyAt level) :: prettyFields level fs

end

/-- The text of a document on indented lines. -/
def pretty (j : RawJson) : String := j.prettyAt 0

end RawJson

namespace Json

/-- The text of a value without blanks. -/
def compact (j : Json) : String := j.raw.compact

/-- A number as shown: an integral double below `10 ^ 15` in magnitude has no fraction. -/
def displayNumber (n : Number) : String :=
  match n with
  | .int _ => numberText n
  | .double x =>
    match x.integer? with
    | some i => if i.natAbs < Nat.pow 10 15 then Decimal.integerText i else numberText n
    | none => numberText n

/-- A value as shown to a reader: strings bare, null as nothing, containers as JSON text. -/
def display : Json → String
  | .str s => s
  | .num n => displayNumber n
  | .bool b => if b then "true" else "false"
  | .null => ""
  | j => j.compact

/-- Whether a value counts as true: null, false, zero and the empty string do not. -/
def truthy : Json → Bool
  | .null => false
  | .bool b => b
  | .num n => !n.toBinary64.isNaN && !n.toBinary64.equals Binary64.zero
  | .str s => !s.isEmpty
  | .arr _ => true
  | .obj _ => true

end Json

end LivePage
