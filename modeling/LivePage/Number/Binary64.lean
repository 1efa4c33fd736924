/-!
# Double-precision numbers

A double is not-a-number, or a sign and a *rank*: the place of its magnitude among all magnitudes in
ascending order, from 0 for zero through the finite ones to the last for infinity. Ranks make
comparison a comparison of integers (`Binary64.order?`), and rounding past the largest finite
magnitude end at infinity by itself (`ofRank`). All arithmetic here is on exact integers.

* `ofRatio`: a quotient of naturals to the nearest double, ties to the even neighbour.
* `equals`, `less`, `atMost`: numeric comparison; not-a-number compares false, the zeros are equal.
* `integer?`: the value of a double without fractional part.
-/

namespace LivePage

namespace Binary64

/-- The rank of infinity: one more than the rank of the largest finite magnitude. -/
def infinityRank : Nat := 2047 * Nat.pow 2 52

end Binary64

/-- A double: not-a-number, or a sign and the rank of a magnitude. -/
inductive Binary64
  | nan
  | signed (negative : Bool) (rank : Fin (Binary64.infinityRank + 1))
deriving DecidableEq

namespace Binary64

/-- The double of a sign and a rank; ranks past infinity are infinity. -/
def ofRank (negative : Bool) (rank : Nat) : Binary64 :=
  .signed negative ⟨min rank infinityRank, Nat.lt_succ_of_le (Nat.min_le_right _ _)⟩

def zero : Binary64 := ofRank false 0

def infinity : Binary64 := ofRank false infinityRank

instance : Inhabited Binary64 := ⟨zero⟩

/-! ## Magnitudes

The magnitude of rank `r` is `mantissa r * 2 ^ exponent r`. -/

/-- The integer coefficient of a magnitude, below `2 ^ 53`. -/
def mantissa (rank : Nat) : Nat :=
  if rank < Nat.pow 2 52 then rank else Nat.pow 2 52 + rank % Nat.pow 2 52

/-- The power of two of a magnitude; the smallest is `-1074`. -/
def exponent (rank : Nat) : Int := (max (rank / Nat.pow 2 52) 1 : Nat) - 1075

/-- Whether a double is a number other than the infinities. -/
def isFinite : Binary64 → Bool
  | .nan => false
  | .signed _ rank => decide (rank.val < infinityRank)

/-- Whether a double is not-a-number. -/
def isNaN : Binary64 → Bool
  | .nan => true
  | .signed _ _ => false

/-- The double of the other sign. -/
def neg : Binary64 → Binary64
  | .nan => .nan
  | .signed negative rank => .signed (!negative) rank

/-! ## Comparison -/

/-- A place on the line of all doubles that are numbers; the two zeros share theirs. -/
def order? : Binary64 → Option Int
  | .nan => none
  | .signed negative rank => some (if negative then -(rank.val : Int) else rank.val)

/-- Compares the places of two doubles; false if one of them is not-a-number. -/
def compareBy (test : Int → Int → Bool) (x y : Binary64) : Bool :=
  match x.order?, y.order? with
  | some a, some b => test a b
  | _, _ => false

/-- Numeric equality. -/
def equals : Binary64 → Binary64 → Bool := compareBy fun a b => decide (a = b)

/-- Numeric `<`. -/
def less : Binary64 → Binary64 → Bool := compareBy fun a b => decide (a < b)

/-- Numeric `≤`. -/
def atMost : Binary64 → Binary64 → Bool := compareBy fun a b => decide (a ≤ b)

theorem equals_comm (x y : Binary64) : x.equals y = y.equals x := by
  cases x <;> cases y <;> simp [equals, compareBy, order?, eq_comm]

/-! ## Rounding -/

/-- The quotient rounded to the nearest natural, a tie to the even one. -/
def divNearestEven (n d : Nat) : Nat :=
  let q := n / d
  let r := n % d
  if 2 * r < d then q else if d < 2 * r then q + 1 else q + q % 2

/-- The largest `k` with `2 ^ k ≤ n / d`, for positive `n` and `d`. -/
def floorLog2 (n d : Nat) : Int :=
  let k : Int := (n.log2 : Int) - d.log2
  if d * Nat.pow 2 k.toNat ≤ n * Nat.pow 2 (-k).toNat then k else k - 1

/-- The double nearest to `n / d`, with the given sign; ties go to the even mantissa. The mantissa
is counted in units of `2 ^ e`, with `e` as small as 53 bits and the least exponent allow. -/
def ofRatio (negative : Bool) (n d : Nat) : Binary64 :=
  if n = 0 then ofRank negative 0
  else
    let e : Int := max (-1074) (floorLog2 n d - 52)
    let units := divNearestEven (n * Nat.pow 2 (-e).toNat) (d * Nat.pow 2 e.toNat)
    ofRank negative ((e + 1074).toNat * Nat.pow 2 52 + units)

/-- The double nearest to an integer. -/
def ofInt (i : Int) : Binary64 := ofRatio (decide (i < 0)) i.natAbs 1

/-- The value of a finite double without fractional part. -/
def integer? : Binary64 → Option Int
  | .nan => none
  | .signed negative rank =>
    let m := mantissa rank.val
    let e := exponent rank.val
    if infinityRank ≤ rank.val then none
    else
      let apply (n : Nat) : Int := if negative then -(n : Int) else n
      if 0 ≤ e then some (apply (m * Nat.pow 2 e.toNat))
      else if m % Nat.pow 2 (-e).toNat = 0 then some (apply (m / Nat.pow 2 (-e).toNat))
      else none

end Binary64

end LivePage
