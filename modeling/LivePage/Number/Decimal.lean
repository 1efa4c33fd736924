import LivePage.Number.Binary64

/-!
# Decimal numerals

Numbers written with decimal digits, an optional point and an optional power of ten.

* `Decimal.toBinary64`: the nearest double of an exact decimal value.
* `Decimal.takeDigits`, `takeSign`, `takeExponent`: the parts of a numeral, each with the text after
  it.
* `Binary64.ofText?`: the double of a whole text, the names of infinity and not-a-number included.
* `Decimal.natural?`: the natural of a text of digits with an optional plus sign.
-/

namespace LivePage

/-- The value `± digits * 10 ^ exponent`. -/
structure Decimal where
  negative : Bool
  digits : Nat
  exponent : Int
deriving DecidableEq

namespace Decimal

/-- The natural written by decimal digits, most significant first. -/
def value (digits : List Char) : Nat :=
  digits.foldl (fun n c => 10 * n + (c.toNat - '0'.toNat)) 0

/-- The decimal digits of a natural. -/
def digitsOf (n : Nat) : List Char := Nat.toDigits 10 n

/-- How many decimal digits a natural has. -/
def length (n : Nat) : Nat := (digitsOf n).length

/-- The decimal of digits before and after the point, and a power of ten. -/
def ofParts (negative : Bool) (whole fraction : List Char) (exponent : Int) : Decimal :=
  ⟨negative, value (whole ++ fraction), exponent - fraction.length⟩

/-- The nearest double. Values from `10 ^ 310` on are beyond the largest double and those below
`10 ^ (-325)` nearer to zero than to the least, so the powers of ten computed here stay small. -/
def toBinary64 (d : Decimal) : Binary64 :=
  let magnitude := d.exponent + length d.digits
  if d.digits = 0 ∨ magnitude < -325 then Binary64.ofRank d.negative 0
  else if 310 < magnitude then Binary64.ofRank d.negative Binary64.infinityRank
  else
    Binary64.ofRatio d.negative (d.digits * Nat.pow 10 d.exponent.toNat)
      (Nat.pow 10 (-d.exponent).toNat)

/-! ## Parts of a numeral -/

/-- The leading digits of a text and the text after them. -/
def takeDigits (cs : List Char) : List Char × List Char := cs.span Char.isDigit

/-- A leading sign, true for minus, and the text after it. -/
def takeSign : List Char → Bool × List Char
  | '-' :: cs => (true, cs)
  | '+' :: cs => (false, cs)
  | cs => (false, cs)

/-- The digits after a leading point, if there is one, and the text after them. -/
def takeFraction : List Char → List Char × List Char
  | '.' :: cs => takeDigits cs
  | cs => ([], cs)

/-- The power of ten after a leading `e` or `E`, zero if there is none, and the text after it.
A mark without digits is no numeral. -/
def takeExponent : List Char → Option (Int × List Char)
  | [] => some (0, [])
  | c :: cs =>
    if c == 'e' || c == 'E' then
      let (negative, cs) := takeSign cs
      match takeDigits cs with
      | ([], _) => none
      | (digits, rest) => some (if negative then -(value digits : Int) else value digits, rest)
    else some (0, c :: cs)

/-- The decimal that a whole text writes: an optional sign, digits with an optional point on either
side of which they may be missing, and an optional power of ten. -/
def ofText? (cs : List Char) : Option Decimal :=
  let (negative, cs) := takeSign cs
  let (whole, cs) := takeDigits cs
  let (fraction, cs) := takeFraction cs
  if whole.isEmpty && fraction.isEmpty then none
  else
    match takeExponent cs with
    | some (exponent, []) => some (ofParts negative whole fraction exponent)
    | _ => none

end Decimal

/-- The double that a whole text writes: a decimal, or `inf`, `infinity` or `nan` in any case, with
an optional sign. -/
def Binary64.ofText? (cs : List Char) : Option Binary64 :=
  let (negative, name) := Decimal.takeSign cs
  let name := String.ofList (name.map Char.toLower)
  if name = "inf" ∨ name = "infinity" then
    some (Binary64.ofRank negative Binary64.infinityRank)
  else if name = "nan" then some .nan
  else (Decimal.ofText? cs).map Decimal.toBinary64

/-- The natural that a whole text writes with decimal digits and an optional plus sign before
them. -/
def Decimal.natural? (cs : List Char) : Option Nat :=
  let digits := match cs with
    | '+' :: cs => cs
    | cs => cs
  if digits.isEmpty || !digits.all Char.isDigit then none else some (Decimal.value digits)

/-- The decimal text of an integer. -/
def Decimal.integerText (i : Int) : String :=
  (if i < 0 then "-" else "") ++ String.ofList (Decimal.digitsOf i.natAbs)

end LivePage
