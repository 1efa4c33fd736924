import LivePage.Text.Character
import LivePage.Expr.Fault

/-!
# Reading tokens

`Token.ofText` splits an expression into its tokens. White space separates tokens and is dropped; a
token begins with the first character that is not white space, and that character decides what kind
it is.

* `readQuoted`: the content of a string literal.
* `readToken`: the token at the head of a text, and the text after it.
* `scan_eq_scan_drop`: skipping characters is dropping them, so the scan after a token is the scan
  of the text after it.
-/

namespace LivePage

namespace Token

/-- The character that a backslash and a character stand for inside a string literal. -/
def unescape (c : Char) : Char :=
  if c = 'n' then '\n' else if c = 't' then '\t' else c

/-- The content of a string literal after its opening quote, and the text after the closing one. -/
def readQuoted (quote : Char) : List Char → Option (List Char × List Char)
  | [] => none
  | c :: cs =>
    if c = quote then some ([], cs)
    else if c = '\\' then
      match cs with
      | [] => none
      | e :: cs => (readQuoted quote cs).map fun r => (unescape e :: r.1, r.2)
    else (readQuoted quote cs).map fun r => (c :: r.1, r.2)

/-- The characters of which numbers are made. -/
def isNumberChar (c : Char) : Bool := c.isDigit || c == '.'

/-- The token that begins with the first character, and the text after it. -/
def readToken (expression : String) (c : Char) (cs : List Char) :
    Except SyntaxFault (Token × List Char) :=
  if c = '\x27' ∨ c = '\x22' then
    match readQuoted c cs with
    | some (content, rest) => .ok (.str (String.ofList content), rest)
    | none => .error (.unterminatedString expression)
  else if c.isDigit then
    let (digits, rest) := (c :: cs).span isNumberChar
    match Decimal.ofText? digits with
    | some decimal => .ok (.num decimal.toBinary64, rest)
    | none => .error (.invalidNumber (String.ofList digits))
  else if Text.isWordStart c then
    let (word, rest) := (c :: cs).span Text.isWordChar
    .ok (.ident (String.ofList word), rest)
  else
    match Operator.read? (c :: cs) with
    | some (o, rest) => .ok (.op o, rest)
    | none => .error (.unexpectedCharacter c expression)

/-- The tokens of a text from which some leading characters are skipped: those of the token before
it. -/
def scan (expression : String) : Nat → List Char → Except SyntaxFault (List Token)
  | _, [] => .ok []
  | skip + 1, _ :: cs => scan expression skip cs
  | 0, c :: cs =>
    if Text.isWhiteSpace c then scan expression 0 cs
    else
      match readToken expression c cs with
      | .error fault => .error fault
      | .ok (token, rest) => (scan expression (cs.length - rest.length) cs).map (token :: ·)

/-- The tokens of an expression. -/
def ofText (expression : String) : Except SyntaxFault (List Token) :=
  scan expression 0 expression.toList

theorem scan_eq_scan_drop (expression : String) (skip : Nat) (cs : List Char) :
    scan expression skip cs = scan expression 0 (cs.drop skip) := by
  induction cs generalizing skip with
  | nil => cases skip <;> simp [scan]
  | cons c cs ih =>
    cases skip with
    | zero => rfl
    | succ skip => rw [scan, ih, List.drop_succ_cons]

end Token

end LivePage
