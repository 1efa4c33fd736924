import LivePage.Json.Basic
import LivePage.Number.Decimal

/-!
# Reading JSON text

`RawJson.parse?` reads one document from a whole text: strict JSON, blanks around it allowed,
nothing after it. Containers nested deeper than a limit, doubles out of range and strings with half
of a surrogate pair are read as `valueless`.

Each reader takes the text that is left and returns the text after what it read. The readers of
containers call each other; `fuel` bounds the calls, and twice the length of the text is always
enough, because a value is at least one character and takes at most two calls.
-/

namespace LivePage

namespace RawJson

/-- The characters that may stand between the parts of a document. -/
def isBlank (c : Char) : Bool := c == ' ' || c == '\t' || c == '\n' || c == '\r'

/-- The text after leading blanks. -/
def skipBlanks (cs : List Char) : List Char := cs.dropWhile isBlank

/-! ## Strings -/

/-- The value of a hexadecimal digit. -/
def hexDigit? (c : Char) : Option Nat :=
  if c.isDigit then some (c.toNat - '0'.toNat)
  else if 'a' ≤ c ∧ c ≤ 'f' then some (c.toNat - 'a'.toNat + 10)
  else if 'A' ≤ c ∧ c ≤ 'F' then some (c.toNat - 'A'.toNat + 10)
  else none

/-- The value of four hexadecimal digits. -/
def hexUnit? (a b c d : Char) : Option Nat := do
  let a ← hexDigit? a
  let b ← hexDigit? b
  let c ← hexDigit? c
  let d ← hexDigit? d
  return ((a * 16 + b) * 16 + c) * 16 + d

/-- The character of a one-letter escape. -/
def simpleEscape? (c : Char) : Option Char :=
  if c = '\x22' then some '\x22'
  else if c = '\\' then some '\\'
  else if c = '/' then some '/'
  else if c = 'b' then some '\x08'
  else if c = 'f' then some '\x0c'
  else if c = 'n' then some '\n'
  else if c = 'r' then some '\r'
  else if c = 't' then some '\t'
  else none

/-- The code points and surrogates of a string after its opening quote, and the text after the
closing one. -/
def readCodes : List Char → Option (List Nat × List Char)
  | [] => none
  | '\x22' :: cs => some ([], cs)
  | '\\' :: 'u' :: a :: b :: c :: d :: cs =>
    match hexUnit? a b c d with
    | none => none
    | some unit => (readCodes cs).map fun r => (unit :: r.1, r.2)
  | '\\' :: c :: cs =>
    match simpleEscape? c with
    | none => none
    | some e => (readCodes cs).map fun r => (e.toNat :: r.1, r.2)
  | c :: cs => if c.toNat < 0x20 then none else (readCodes cs).map fun r => (c.toNat :: r.1, r.2)

/-- The characters of code points and surrogates; a surrogate must be half of a pair. -/
def joinSurrogates : List Nat → Option (List Char)
  | [] => some []
  | [code] => if 0xD800 ≤ code ∧ code < 0xE000 then none else some [Char.ofNat code]
  | code :: low :: rest =>
    if 0xD800 ≤ code ∧ code < 0xDC00 ∧ 0xDC00 ≤ low ∧ low < 0xE000 then
      (joinSurrogates rest).map
        (Char.ofNat (0x10000 + (code - 0xD800) * 0x400 + (low - 0xDC00)) :: ·)
    else if 0xD800 ≤ code ∧ code < 0xE000 then none
    else (joinSurrogates (low :: rest)).map (Char.ofNat code :: ·)

/-- The content of a string after its opening quote, absent if it has no value, and the text after
the closing quote. -/
def readString (cs : List Char) : Option (Option String × List Char) :=
  (readCodes cs).map fun r => ((joinSurrogates r.1).map String.ofList, r.2)

/-! ## Numbers -/

/-- The number of an integer literal: an integer from `-2 ^ 63` to `2 ^ 64 - 1`, or else a double;
minus zero is a double. -/
def integerLiteral (negative : Bool) (digits : List Char) : Number :=
  let n := Decimal.value digits
  if negative then
    if n ≠ 0 ∧ n ≤ Nat.pow 2 63 then .int (-n)
    else .double (Decimal.ofParts true digits [] 0).toBinary64
  else if n < Nat.pow 2 64 then .int n
  else .double (Decimal.ofParts false digits [] 0).toBinary64

/-- A number as a document; one beyond the doubles has no value. -/
def ofNumber : Number → RawJson
  | .int i => .num (.int i)
  | .double x => if x.isFinite then .num (.double x) else .valueless

/-- The digits after a leading point, if there is one: at least one digit must follow it. -/
def readFraction : List Char → Option (Option (List Char) × List Char)
  | '.' :: cs =>
    match Decimal.takeDigits cs with
    | ([], _) => none
    | (digits, rest) => some (some digits, rest)
  | cs => some (none, cs)

/-- A number: an integer part without superfluous zeros, then a fraction and a power of ten, both
optional. -/
def readNumber (cs : List Char) : Option (RawJson × List Char) := do
  let (negative, cs) := match cs with
    | '-' :: cs => (true, cs)
    | cs => (false, cs)
  let (whole, afterWhole) := Decimal.takeDigits cs
  if whole.isEmpty || (whole.head? == some '0' && whole.length != 1) then none
  else
    let (fraction, afterFraction) ← readFraction afterWhole
    let (exponent, rest) ← Decimal.takeExponent afterFraction
    if fraction.isNone && rest.length == afterFraction.length then
      return (ofNumber (integerLiteral negative whole), rest)
    else
      let decimal := Decimal.ofParts negative whole (fraction.getD []) exponent
      return (ofNumber (.double decimal.toBinary64), rest)

/-! ## Values -/

/-- A container, if the limit on nesting lets it have a value. -/
def nested (depth : Nat) (container : RawJson) : RawJson :=
  if depth = 0 then .valueless else container

/-- Fields with readable keys as an object. -/
def ofFields : Option (List (String × RawJson)) → RawJson
  | some fields => .obj fields
  | none => .valueless

mutual

/-- One value, with the levels of nesting that are still allowed. -/
def readValue : Nat → Nat → List Char → Option (RawJson × List Char)
  | 0, _, _ => none
  | fuel + 1, depth, cs =>
    match skipBlanks cs with
    | '\x22' :: cs =>
      (readString cs).map fun r =>
        (match r.1 with
          | some content => .str content
          | none => .valueless, r.2)
    | '[' :: cs =>
      match skipBlanks cs with
      | ']' :: rest => some (nested depth (.arr []), rest)
      | cs => (readItems fuel (depth - 1) cs).map fun r => (nested depth (.arr r.1), r.2)
    | '\x7b' :: cs =>
      match skipBlanks cs with
      | '\x7d' :: rest => some (nested depth (.obj []), rest)
      | cs => (readFields fuel (depth - 1) cs).map fun r => (nested depth (ofFields r.1), r.2)
    | 'n' :: 'u' :: 'l' :: 'l' :: rest => some (.null, rest)
    | 't' :: 'r' :: 'u' :: 'e' :: rest => some (.bool true, rest)
    | 'f' :: 'a' :: 'l' :: 's' :: 'e' :: rest => some (.bool false, rest)
    | cs => readNumber cs

/-- The items of an array up to its closing bracket, at least one. -/
def readItems : Nat → Nat → List Char → Option (List RawJson × List Char)
  | 0, _, _ => none
  | fuel + 1, depth, cs => do
    let (item, cs) ← readValue fuel depth cs
    match skipBlanks cs with
    | ',' :: cs =>
      let (items, rest) ← readItems fuel depth cs
      return (item :: items, rest)
    | ']' :: rest => return ([item], rest)
    | _ => none

/-- The fields of an object up to its closing brace, at least one; absent if a key has no value. -/
def readFields : Nat → Nat → List Char → Option (Option (List (String × RawJson)) × List Char)
  | 0, _, _ => none
  | fuel + 1, depth, cs => do
    match skipBlanks cs with
    | '\x22' :: cs =>
      let (key, cs) ← readString cs
      match skipBlanks cs with
      | ':' :: cs =>
        let (value, cs) ← readValue fuel depth cs
        let field := key.map fun key => (key, value)
        match skipBlanks cs with
        | ',' :: cs =>
          let (fields, rest) ← readFields fuel depth cs
          return (field.bind fun f => fields.map (f :: ·), rest)
        | '\x7d' :: rest => return (field.map ([·]), rest)
        | _ => none
      | _ => none
    | _ => none

end

/-- How deep the containers of a text may be nested. -/
def nestingLimit : Nat := 127

/-- The document that a whole text writes, with a limit on nesting. -/
def parseNested? (depth : Nat) (text : String) : Option RawJson :=
  let cs := text.toList
  match readValue (2 * cs.length + 2) depth cs with
  | some (document, rest) => if (skipBlanks rest).isEmpty then some document else none
  | none => none

/-- The document that a whole text writes. -/
def parse? (text : String) : Option RawJson := parseNested? nestingLimit text

end RawJson

end LivePage
