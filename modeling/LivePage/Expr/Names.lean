import LivePage.Text.Character

/-!
# The names that an expression mentions

`freeIdentifiers` finds the names on which the value of an expression may depend, from its text
alone and without parsing it, so that it also works for text that does not parse. String literals,
numbers, member names after a point and reserved words are passed over.
-/

namespace LivePage

namespace Names

/-- The text after a string literal whose opening quote was just read. A backslash protects the next
character; a literal that is not closed runs to the end. -/
def skipQuoted (quote : Char) : List Char → List Char
  | [] => []
  | c :: cs =>
    if c = quote then cs
    else if c = '\\' then
      match cs with
      | [] => []
      | _ :: cs => skipQuoted quote cs
    else skipQuoted quote cs

/-- The quotes that open a string literal: single, double and back quote. -/
def isQuote (c : Char) : Bool := c == '\x27' || c == '\x22' || c == '\x60'

/-- The characters that go on a number. -/
def isNumberChar (c : Char) : Bool := c.isAlphanum || c == '.'

/-- The words of a text that are not members, repetitions included. `member` says whether the last
character that was not white space is a point; `skip` leading characters belong to what was read
before. -/
def words (member : Bool) : Nat → List Char → List String
  | _, [] => []
  | skip + 1, _ :: cs => words member skip cs
  | 0, c :: cs =>
    if isQuote c then words false (cs.length - (skipQuoted c cs).length) cs
    else if Text.isWordStart c then
      let rest := cs.takeWhile Text.isWordChar
      let following := words false rest.length cs
      if member then following else String.ofList (c :: rest) :: following
    else if c.isDigit then words false (cs.takeWhile isNumberChar).length cs
    else if Text.isWhiteSpace c then words member 0 cs
    else words (c == '.') 0 cs

/-- The words that never name a binding. -/
def reserved : List String :=
  ["true", "false", "null", "undefined", "typeof", "instanceof", "new", "this", "in", "of", "void",
   "NaN", "Infinity", "function", "return", "var", "let", "const"]

end Names

/-- The names that an expression mentions, each once, in the order of their first mention. -/
def freeIdentifiers (expression : String) : List String :=
  let words := Names.words false 0 expression.toList
  (words.filter fun word => !Names.reserved.contains word).eraseDups

end LivePage
