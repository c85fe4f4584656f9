import MailMerge.Text.Basic

/-!
# Binary floating point numbers of 64 bits

Numeric fields are kept as the 64-bit binary floating point numbers nearest to
what was written. A finite number is held as sign, significand and exponent, so
that its value `± significand * 2 ^ exponent` is exact integer arithmetic.

* `Binary64.ofRatio` rounds a quotient of natural numbers to the nearest number,
  a tie going to the even significand;
* `Binary64.ofDecimal` does the same for a decimal significand and exponent;
* `Binary64.mul` and `Binary64.div` are the rounded product and quotient;
* `Binary64.floor?` is the exact floor of a finite number.
-/

namespace MailMerge

/-- A **binary floating point number** of 64 bits. The finite ones are canonical
when built by `Binary64.ofRatio`: the significand is below `2 ^ 53`, the exponent
at least `-1074`, and either the significand is at least `2 ^ 52` or the exponent
is `-1074`. -/
inductive Binary64 where
  | nan
  | infinite ( negative : Bool)
  | finite ( negative : Bool) (significand : Nat) (exponent : Int)
  deriving DecidableEq, Repr

namespace Binary64

/-- The least significand of a number that has all its bits: `2 ^ 52`. -/
def leastNormal : Nat := 4503599627370496

/-- Zero with a sign. -/
def zero (negative : Bool) : Binary64 := .finite negative 0 (-1074)

/-- Both halves of `2 ^ e` as a quotient: numerator and denominator. -/
def powerOfTwo (e : Int) : Nat × Nat := (Nat.pow 2 e.toNat, Nat.pow 2 (-e).toNat)

/-- The quotient of two natural numbers rounded to the nearest natural number, a
tie going to the even one. -/
def roundQuotient (num den : Nat) : Nat :=
  let q := num / den
  let r := num % den
  if 2 * r < den then q
  else if den < 2 * r then q + 1
  else if q % 2 = 0 then q else q + 1

/-- The greatest `e` with `2 ^ e ≤ num / den`, for positive arguments. -/
def floorLog2 (num den : Nat) : Int :=
  let e : Int := (num.log2 : Int) - den.log2
  let (up, down) := powerOfTwo e
  if den * up ≤ num * down then e else e - 1

/-- The number nearest to `± num / den`, a tie going to the even significand.
Quotients beyond the largest finite number by half a unit or more give an
infinity. -/
def ofRatio ( negative : Bool) (num den : Nat) : Binary64 :=
  if num = 0 then zero negative
  else
    let e := max (floorLog2 num den - 52) (-1074)
    let (up, down) := powerOfTwo e
    let m := roundQuotient (num * down) (den * up)
    let (m, e) := if m = 2 * leastNormal then (leastNormal, e + 1) else (m, e)
    if 971 < e then .infinite negative else .finite negative m e

/-- The number nearest to a natural number. -/
def ofNat (n : Nat) : Binary64 := ofRatio false n 1

/-- The number nearest to `± significand * 10 ^ exponent`. Exponents far outside
the range of the format are not raised to a power. -/
def ofDecimal ( negative : Bool) (significand : Nat) (exponent : Int) : Binary64 :=
  if significand = 0 then zero negative
  else
    let magnitude : Int := (significand.log2 : Int) / 4 + exponent
    let ceiling : Int := (significand.log2 : Int) + exponent
    if 400 < magnitude then .infinite negative
    else if ceiling < -400 then zero negative
    else
      ofRatio negative (significand * Nat.pow 10 exponent.toNat) (Nat.pow 10 (-exponent).toNat)

/-- Whether a number carries a minus sign. -/
def isNegative : Binary64 → Bool
  | .nan => false
  | .infinite negative => negative
  | .finite negative _ _ => negative

/-- Whether a number is an infinity. -/
def isInfinite : Binary64 → Bool
  | .infinite _ => true
  | _ => false

/-- The magnitude of `significand * 2 ^ exponent` as a quotient. -/
def magnitude (significand : Nat) (exponent : Int) : Nat × Nat :=
  let (up, down) := powerOfTwo exponent
  (significand * up, down)

/-- A number with its sign changed. -/
def neg : Binary64 → Binary64
  | .nan => .nan
  | .infinite negative => .infinite (!negative)
  | .finite negative m e => .finite (!negative) m e

/-- The rounded product. -/
def mul : Binary64 → Binary64 → Binary64
  | .finite s m e, .finite t n f =>
    let (a, b) := magnitude m e
    let (c, d) := magnitude n f
    ofRatio (s != t) (a * c) (b * d)
  | .nan, _ | _, .nan => .nan
  | .infinite s, .infinite t => .infinite (s != t)
  | .infinite s, .finite t n _ | .finite t n _, .infinite s =>
    if n = 0 then .nan else .infinite (s != t)

/-- The rounded quotient. -/
def div : Binary64 → Binary64 → Binary64
  | .finite s m e, .finite t n f =>
    if n = 0 then
      if m = 0 then .nan else .infinite (s != t)
    else
      let (a, b) := magnitude m e
      let (c, d) := magnitude n f
      ofRatio (s != t) (a * d) (b * c)
  | .nan, _ | _, .nan => .nan
  | .infinite _, .infinite _ => .nan
  | .infinite s, .finite t _ _ => .infinite (s != t)
  | .finite s _ _, .infinite t => zero (s != t)

/-- The greatest integer not above a finite number. -/
def floor? : Binary64 → Option Int
  | .finite negative m e =>
    let (num, den) := magnitude m e
    some (if negative then -(((num + den - 1) / den : Nat) : Int) else ((num / den : Nat) : Int))
  | _ => none

/-- The integer that a finite number is, if it is one. -/
def toInt? : Binary64 → Option Int
  | .finite negative m e =>
    let (num, den) := magnitude m e
    if num % den = 0 then
      some (if negative then -((num / den : Nat) : Int) else ((num / den : Nat) : Int))
    else none
  | _ => none

end Binary64

end MailMerge
