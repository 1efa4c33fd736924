import LivePage.Expr.Token

/-!
# Failures of evaluation

`SyntaxFault` says why a source cannot be read, `EvalError` why it has no value. The constructors
are causes; the wording of each stands in one place, `SyntaxFault.message` and `EvalError.message`.
-/

namespace LivePage

/-- Why a source is not well-formed. -/
inductive SyntaxFault
  /-- A group is opened at an offset and never closed. -/
  | unclosedGroup (offset : Nat)
  /-- The group opened at an offset holds no expression. -/
  | emptyGroup (offset : Nat)
  /-- A string literal in an expression is not closed. -/
  | unterminatedString (expression : String)
  /-- A run of digits and points is no number. -/
  | invalidNumber (text : String)
  /-- No token begins with this character. -/
  | unexpectedCharacter (char : Char) (expression : String)
  /-- A token follows where the expression is complete. -/
  | trailing (token : Token) (expression : String)
  /-- This operator has to come next. -/
  | expected (operator : Operator)
  /-- After a point comes a property name. -/
  | expectedName
  /-- The expression ends where an operand has to come. -/
  | unexpectedEnd
  /-- An operator stands where an operand has to come. -/
  | unexpected (operator : Operator)
  /-- A fault described by another engine. -/
  | described (message : String)
deriving DecidableEq

/-- The wording of a fault. -/
def SyntaxFault.message : SyntaxFault → String
  | .unclosedGroup offset => "unclosed `$\x7b` at offset " ++ Decimal.integerText offset
  | .emptyGroup offset => "empty `$\x7b\x7d` at offset " ++ Decimal.integerText offset
  | .unterminatedString expression => "unterminated string in `" ++ expression ++ "`"
  | .invalidNumber text => "invalid number `" ++ text ++ "`"
  | .unexpectedCharacter c expression =>
    "unexpected character `" ++ String.singleton c ++ "` in `" ++ expression ++ "`"
  | .trailing token expression => "unexpected `" ++ token.text ++ "` in `" ++ expression ++ "`"
  | .expected o => "expected `" ++ o.text ++ "`"
  | .expectedName => "expected property name after `.`"
  | .unexpectedEnd => "unexpected end of expression"
  | .unexpected o => "unexpected `" ++ o.text ++ "`"
  | .described message => message

/-- Why a source has no value. -/
inductive EvalError
  /-- The source is not well-formed. -/
  | malformed (fault : SyntaxFault)
  /-- A name is not bound. -/
  | unresolved (name : String)
  /-- A data source that the source refers to failed. -/
  | dataSource (id message : String)
  /-- A script engine reports a failure. -/
  | script (message : String)
deriving DecidableEq

/-- The wording of an evaluation error. -/
def EvalError.message : EvalError → String
  | .malformed fault => "syntax error: " ++ fault.message
  | .unresolved name => "unresolved reference `" ++ name ++ "`"
  | .dataSource id message => "data source `" ++ id ++ "` failed: " ++ message
  | .script message => "script error: " ++ message

end LivePage
