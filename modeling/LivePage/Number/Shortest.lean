import LivePage.Number.Decimal

/-!
# The shortest digits of a double

A decimal *reads back* as a double if the double is the nearest one to it. `Binary64.shortest` finds
the fewest significant digits that read back and, of those, the ones nearest to the value.

For one digit, two digits and so on it looks at the two multiples of the power of ten that enclose
the value. Seventeen digits always suffice.
-/

namespace LivePage

namespace Binary64

/-- Which neighbour a value halfway between two decimals goes to. -/
inductive TieRule
  | even
  | up
deriving DecidableEq

/-- A positive magnitude `num / den` beside the bounds `low / den` and `high / den` of the decimals
that read back; the bounds themselves read back if `closed`. -/
structure Interval where
  low : Nat
  num : Nat
  high : Nat
  den : Nat
  closed : Bool

/-- The interval of a finite positive rank: halfway to the neighbours on both sides. Below a power
of two they lie half as far apart. -/
def interval (rank : Nat) : Interval :=
  let m := mantissa rank
  let e := exponent rank - 2
  let scale := Nat.pow 2 e.toNat
  let gap := if m = Nat.pow 2 52 ∧ Nat.pow 2 53 ≤ rank then 1 else 2
  { low := (4 * m - gap) * scale
    num := 4 * m * scale
    high := (4 * m + 2) * scale
    den := Nat.pow 2 (-e).toNat
    closed := m % 2 == 0 }

/-- The largest `k` with `10 ^ k ≤ n / d`, for positive `n` and `d`. -/
def floorLog10 (n d : Nat) : Int :=
  let k : Int := (Decimal.length n : Int) - Decimal.length d
  if d * Nat.pow 10 k.toNat ≤ n * Nat.pow 10 (-k).toNat then k else k - 1

/-- The multiple of `10 ^ power` nearest to the value among those that read back, if there is one:
the multiple just below the value or the one just above. -/
def Interval.nearest? (i : Interval) (tie : TieRule) (power : Int) : Option Nat :=
  let unit := i.den * Nat.pow 10 power.toNat
  let up := Nat.pow 10 (-power).toNat
  let num := i.num * up
  let below := num / unit
  let readsBack (c : Nat) : Bool :=
    if i.closed then decide (i.low * up ≤ c * unit) && decide (c * unit ≤ i.high * up)
    else decide (i.low * up < c * unit) && decide (c * unit < i.high * up)
  let aboveIsNearer := match tie with
    | .even => decide ((2 * below + 1) * unit < 2 * num) ||
        ((2 * below + 1) * unit == 2 * num && below % 2 == 1)
    | .up => decide ((2 * below + 1) * unit ≤ 2 * num)
  let candidates := if aboveIsNearer then [below + 1, below] else [below, below + 1]
  candidates.find? readsBack

/-- Digits without trailing zeros, the power of ten raised for each one dropped. -/
def dropZeros (digits : Nat) (power : Int) : Nat → Nat × Int
  | 0 => (digits, power)
  | fuel + 1 =>
    if digits % 10 = 0 ∧ digits ≠ 0 then dropZeros (digits / 10) (power + 1) fuel
    else (digits, power)

/-- The digits and the power of ten of the shortest decimal that reads back as the magnitude of a
finite positive rank. -/
def shortest (tie : TieRule) (rank : Nat) : Nat × Int :=
  let i := interval rank
  let leading := floorLog10 i.num i.den
  let found := (List.range 17).findSome? fun (places : Nat) =>
    (i.nearest? tie (leading - places)).map fun digits => (digits, leading - (places : Int))
  match found with
  | some (digits, power) => dropZeros digits power 20
  | none => (0, 0)

end Binary64

end LivePage
