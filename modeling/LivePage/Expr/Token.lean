import LivePage.Number.Text

/-!
# Tokens of expressions

The operators of the language, its tokens, and how a token is shown in a message.
-/

namespace LivePage

/-- The operators and punctuation of expressions. -/
inductive Operator
  | strictEqual | strictUnequal | equal | unequal | atLeast | atMost | and | or | optionalDot
  | greater | less | not | question | colon | dot | openBracket | closeBracket
  | openParen | closeParen | minus
deriving DecidableEq

namespace Operator

/-- The spelling of an operator. -/
def chars : Operator → List Char
  | .strictEqual => ['=', '=', '=']
  | .strictUnequal => ['!', '=', '=']
  | .equal => ['=', '=']
  | .unequal => ['!', '=']
  | .atLeast => ['>', '=']
  | .atMost => ['<', '=']
  | .and => ['&', '&']
  | .or => ['|', '|']
  | .optionalDot => ['?', '.']
  | .greater => ['>']
  | .less => ['<']
  | .not => ['!']
  | .question => ['?']
  | .colon => [':']
  | .dot => ['.']
  | .openBracket => ['[']
  | .closeBracket => [']']
  | .openParen => ['(']
  | .closeParen => [')']
  | .minus => ['-']

/-- All operators; one whose spelling begins with that of another stands before it. -/
def all : List Operator :=
  [.strictEqual, .strictUnequal, .equal, .unequal, .atLeast, .atMost, .and, .or, .optionalDot,
   .greater, .less, .not, .question, .colon, .dot, .openBracket, .closeBracket, .openParen,
   .closeParen, .minus]

/-- The spelling of an operator as a string. -/
def text (o : Operator) : String := String.ofList o.chars

theorem mem_all (o : Operator) : o ∈ all := by cases o <;> decide

/-- The first operator that a text begins with, and the text after it. -/
def read? (cs : List Char) : Option (Operator × List Char) :=
  (all.find? fun o => o.chars.isPrefixOf cs).map fun o => (o, cs.drop o.chars.length)

end Operator

/-- A token: an identifier word, a string literal with its content, a number, or an operator. -/
inductive Token
  | ident (name : String)
  | str (content : String)
  | num (value : Binary64)
  | op (operator : Operator)
deriving DecidableEq

namespace Token

/-- In messages a number is never written with a power of ten and has no superfluous `.0`. -/
def numberFormat : DoubleFormat where
  positional _ := true
  integralEnd := ""
  tie := .up

/-- A token as shown in a message; strings stand in single quotes, unescaped. -/
def text : Token → String
  | .ident name => name
  | .str content => "'" ++ content ++ "'"
  | .num x => x.text numberFormat
  | .op o => o.text

end Token

end LivePage
