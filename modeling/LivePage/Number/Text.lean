import LivePage.Number.Shortest

/-!
# Doubles as text

`Binary64.text` writes a double with its shortest digits. What a format decides for itself is one
record, `DoubleFormat`: which magnitudes are written without a power of ten, whether an integral
value ends in `.0`, and where a tie between two decimals goes.
-/

namespace LivePage

/-- The choices of a format for doubles. -/
structure DoubleFormat where
  /-- Whether a leading digit worth this power of ten is written positionally. -/
  positional : Int → Bool
  /-- What ends an integral value in positional notation. -/
  integralEnd : String
  /-- Where a tie between two decimals goes. -/
  tie : Binary64.TieRule

namespace Binary64

/-- Digits with the point at its place: zeros fill the places between point and digits. -/
def positionalText (format : DoubleFormat) (digits : List Char) (power : Int) : String :=
  if 0 ≤ power then
    String.ofList (digits ++ List.replicate power.toNat '0') ++ format.integralEnd
  else
    let places := (-power).toNat
    let whole := digits.take (digits.length - places)
    let fraction := List.replicate (places - digits.length) '0' ++
      digits.drop (digits.length - places)
    String.ofList (if whole.isEmpty then ['0'] else whole) ++ "." ++ String.ofList fraction

/-- One digit, the others after a point, and the power of ten with its sign. -/
def scientificText (digits : List Char) (leading : Int) : String :=
  let mantissa := match digits with
    | d :: e :: rest => d :: '.' :: e :: rest
    | ds => ds
  let sign := if leading < 0 then "e-" else "e+"
  String.ofList mantissa ++ sign ++ String.ofList (Decimal.digitsOf leading.natAbs)

/-- The text of a double in a format. -/
def text (format : DoubleFormat) : Binary64 → String
  | .nan => "NaN"
  | .signed negative rank =>
    let sign := if negative then "-" else ""
    if infinityRank ≤ rank.val then sign ++ "inf"
    else if rank.val = 0 then sign ++ "0" ++ format.integralEnd
    else
      let (n, power) := shortest format.tie rank.val
      let digits := Decimal.digitsOf n
      let leading := power + digits.length - 1
      sign ++ if format.positional leading then positionalText format digits power
        else scientificText digits leading

end Binary64

end LivePage
