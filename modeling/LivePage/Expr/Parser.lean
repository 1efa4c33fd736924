import LivePage.Expr.Lexeme
import LivePage.Expr.Term

/-!
# Parsing terms

One function for each level of binding, loosest first: the conditional, `||`, `&&`, one comparison,
the negations, member access, operands. Each takes the tokens that are left and returns the tokens
after what it read. They call each other; `fuel` bounds the calls. From one token to the next no
chain of calls is longer than the eight levels, so `8 * (length + 1)` is enough, and `Term.ofTokens`
shows no fuel.
-/

namespace LivePage

namespace Term

/-- A term and the tokens after it. -/
abbrev Parsed := Except SyntaxFault (Term × List Token)

/-- The tokens after an operator that has to come next. -/
def expect (o : Operator) : List Token → Except SyntaxFault (List Token)
  | .op p :: ts => if p = o then .ok ts else .error (.expected o)
  | _ => .error (.expected o)

mutual

/-- `or ? expr : expr`, or just `or`. -/
def parseExpr : Nat → List Token → Parsed
  | 0, _ => .error .unexpectedEnd
  | fuel + 1, ts => do
    let (test, ts) ← parseOr fuel ts
    match ts with
    | .op .question :: ts =>
      let (yes, ts) ← parseExpr fuel ts
      let ts ← expect .colon ts
      let (no, ts) ← parseExpr fuel ts
      return (.cond test yes no, ts)
    | ts => return (test, ts)

/-- Operands of `||`, grouped to the left. -/
def parseOr : Nat → List Token → Parsed
  | 0, _ => .error .unexpectedEnd
  | fuel + 1, ts => do
    let (left, ts) ← parseAnd fuel ts
    parseOrRest fuel left ts

/-- What follows the left operand of `||`. -/
def parseOrRest : Nat → Term → List Token → Parsed
  | 0, _, _ => .error .unexpectedEnd
  | fuel + 1, left, .op .or :: ts => do
    let (right, ts) ← parseAnd fuel ts
    parseOrRest fuel (.or left right) ts
  | _ + 1, left, ts => .ok (left, ts)

/-- Operands of `&&`, grouped to the left. -/
def parseAnd : Nat → List Token → Parsed
  | 0, _ => .error .unexpectedEnd
  | fuel + 1, ts => do
    let (left, ts) ← parseComparison fuel ts
    parseAndRest fuel left ts

/-- What follows the left operand of `&&`. -/
def parseAndRest : Nat → Term → List Token → Parsed
  | 0, _, _ => .error .unexpectedEnd
  | fuel + 1, left, .op .and :: ts => do
    let (right, ts) ← parseComparison fuel ts
    parseAndRest fuel (.and left right) ts
  | _ + 1, left, ts => .ok (left, ts)

/-- One operand, or two compared; comparisons do not chain. -/
def parseComparison : Nat → List Token → Parsed
  | 0, _ => .error .unexpectedEnd
  | fuel + 1, ts => do
    let (left, ts) ← parseUnary fuel ts
    match ts with
    | .op o :: rest =>
      match o.comparison? with
      | some comparison =>
        let (right, ts) ← parseUnary fuel rest
        return (.compare comparison left right, ts)
      | none => return (left, ts)
    | ts => return (left, ts)

/-- `!` and `-` before an operand. -/
def parseUnary : Nat → List Token → Parsed
  | 0, _ => .error .unexpectedEnd
  | fuel + 1, .op .not :: ts => do
    let (operand, ts) ← parseUnary fuel ts
    return (.not operand, ts)
  | fuel + 1, .op .minus :: ts => do
    let (operand, ts) ← parseUnary fuel ts
    return (.neg operand, ts)
  | fuel + 1, ts => do
    let (target, ts) ← parseOperand fuel ts
    parseMembers fuel target ts

/-- The member accesses after a target. -/
def parseMembers : Nat → Term → List Token → Parsed
  | 0, _, _ => .error .unexpectedEnd
  | fuel + 1, target, .op .dot :: ts => parseNamed fuel target ts
  | fuel + 1, target, .op .optionalDot :: ts => parseNamed fuel target ts
  | fuel + 1, target, .op .openBracket :: ts => do
    let (key, ts) ← parseExpr fuel ts
    let ts ← expect .closeBracket ts
    parseMembers fuel (.member target key) ts
  | _ + 1, target, ts => .ok (target, ts)

/-- The property name after a point, and the member accesses after it. -/
def parseNamed : Nat → Term → List Token → Parsed
  | 0, _, _ => .error .unexpectedEnd
  | fuel + 1, target, .ident name :: ts =>
    parseMembers fuel (.member target (.literal (.json (.str name)))) ts
  | _ + 1, _, _ => .error .expectedName

/-- A number, a string, a word, or an expression in parentheses. -/
def parseOperand : Nat → List Token → Parsed
  | 0, _ => .error .unexpectedEnd
  | _ + 1, [] => .error .unexpectedEnd
  | _ + 1, .num x :: ts => .ok (.literal (.json (numberJson x)), ts)
  | _ + 1, .str content :: ts => .ok (.literal (.json (.str content)), ts)
  | _ + 1, .ident name :: ts => .ok (ofWord name, ts)
  | fuel + 1, .op .openParen :: ts => do
    let (inner, ts) ← parseExpr fuel ts
    let ts ← expect .closeParen ts
    return (inner, ts)
  | _ + 1, .op o :: _ => .error (.unexpected o)

end

/-- The term that a whole list of tokens writes. -/
def ofTokens (expression : String) (ts : List Token) : Except SyntaxFault Term :=
  match parseExpr (8 * (ts.length + 1)) ts with
  | .error fault => .error fault
  | .ok (term, []) => .ok term
  | .ok (_, token :: _) => .error (.trailing token expression)

/-- The term that an expression writes. -/
def parse (expression : String) : Except SyntaxFault Term := do
  let ts ← Token.ofText expression
  ofTokens expression ts

end Term

end LivePage
