import MailMerge.Number.Binary64

/-!
# The shortest decimal that reads back

Of all decimals that round to a given number, the **shortest** is the one on the
coarsest decimal grid, and of two on that grid the nearer to the number. The grid
of exponent `k` holds the multiples of `10 ^ k`. A number in an interval has a
grid point in the interval only if one of its two neighbours on the grid lies in
it, so that two tests a grid suffice.

* `Shortest.Interval` holds a positive number with the reals that round to it;
* `Shortest.onGrid?` is the grid point of an interval that is nearest to its number;
* `shortestDecimal` searches the grids from coarse to fine.
-/

namespace MailMerge

/-- Which of two equally near decimals is taken. -/
inductive TieRule where
  | up
  | even
  deriving DecidableEq, Repr

/-- A positive **decimal** `digits * 10 ^ exponent`. -/
structure Decimal where
  digits : Nat
  exponent : Int
  deriving DecidableEq, Repr

namespace Shortest

/-- The reals that round to the number `value / den`: those from `low / den` to
`high / den`, with the ends if `closed`. -/
structure Interval where
  low : Nat
  value : Nat
  high : Nat
  den : Nat
  closed : Bool

/-- The reals that round to `significand * 2 ^ exponent`. Below a power of two the
numbers lie twice as close, so that the lower half-gap is half as wide there. The
ends round to the even significand. -/
def Interval.ofBinary (significand : Nat) (exponent : Int) : Interval :=
  let (up, down) := Binary64.powerOfTwo (exponent - 2)
  let below := if significand = Binary64.leastNormal ∧ -1074 < exponent then 1 else 2
  { low := (4 * significand - below) * up
    value := 4 * significand * up
    high := (4 * significand + 2) * up
    den := down
    closed := significand % 2 = 0 }

/-- Whether the real `num / scale` lies in an interval. -/
def Interval.Contains (i : Interval) (num scale : Nat) : Prop :=
  if i.closed then i.low * scale ≤ num * i.den ∧ num * i.den ≤ i.high * scale
  else i.low * scale < num * i.den ∧ num * i.den < i.high * scale

instance (i : Interval) (num scale : Nat) : Decidable (i.Contains num scale) := by
  unfold Interval.Contains; infer_instance

/-- The multiple of `10 ^ k` in the interval that is nearest to its number. -/
def onGrid? (tie : TieRule) (i : Interval) (k : Int) : Option Nat :=
  let step := Nat.pow 10 k.toNat
  let scale := Nat.pow 10 (-k).toNat
  let lower := i.value * scale / (i.den * step)
  let upper := lower + 1
  let rest := i.value * scale % (i.den * step)
  match decide (i.Contains (lower * step) scale), decide (i.Contains (upper * step) scale) with
  | false, false => none
  | true, false => some lower
  | false, true => some upper
  | true, true =>
    if 2 * rest < i.den * step then some lower
    else if i.den * step < 2 * rest then some upper
    else match tie with
      | .up => some upper
      | .even => if lower % 2 = 0 then some lower else some upper

/-- Searches the grids of exponent `k`, `k - 1`, … for the first that meets the
interval. -/
def search (tie : TieRule) (i : Interval) : Nat → Int → Option Decimal
  | 0, _ => none
  | steps + 1, k =>
    match onGrid? tie i k with
    | some digits => some ⟨digits, k⟩
    | none => search tie i steps (k - 1)

/-- An exponent whose grid is too coarse for `num / den`, or just fine enough:
`10 ^ k` is more than the number. -/
def startExponent (num den : Nat) : Int :=
  (Binary64.floorLog2 num den + 1) * 30103 / 100000 + 1

end Shortest

/-- The **shortest decimal** that rounds to `significand * 2 ^ exponent`, for a
positive significand. Seventeen digits are enough for every number, so that
twenty grids are searched. -/
def shortestDecimal (tie : TieRule) (significand : Nat) (exponent : Int) : Decimal :=
  let (num, den) := Binary64.magnitude significand exponent
  let interval := Shortest.Interval.ofBinary significand exponent
  (Shortest.search tie interval 20 (Shortest.startExponent num den)).getD ⟨num, 0⟩

end MailMerge
