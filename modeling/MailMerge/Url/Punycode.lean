import MailMerge.Text.Basic

/-!
# Punycode

The ASCII form of a label of a domain name. The ASCII characters come first; then each
other character, in rising order, is told by the number of steps from the one before it,
in digits of base 36 whose weights adapt to the steps so far.

* `Punycode.encode` writes a label.
-/

namespace MailMerge

namespace Punycode

/-- A digit: a letter from 0 to 25, then a decimal digit. -/
def digit (n : Nat) : Char :=
  if n < 26 then Char.ofNat ('a'.toNat + n) else Char.ofNat ('0'.toNat + n - 26)

/-- The threshold of a digit at a position. -/
def threshold (position bias : Nat) : Nat :=
  if position ≤ bias then 1 else if bias + 26 ≤ position then 26 else position - bias

theorem threshold_bounds (position bias : Nat) :
    1 ≤ threshold position bias ∧ threshold position bias ≤ 26 := by
  unfold threshold
  split
  · omega
  · split <;> omega

/-- Divides a step until it is small, and counts the positions. -/
def reduce (step position : Nat) : Nat × Nat :=
  if 455 < step then reduce (step / 35) (position + 36) else (step, position)
termination_by step
decreasing_by omega

/-- The bias after a step, given how many characters are written and whether it was the
first step. -/
def adapt (step written : Nat) (isFirst : Bool) : Nat :=
  let step := if isFirst then step / 700 else step / 2
  let (step, position) := reduce (step + step / written) 0
  position + 36 * step / (step + 38)

/-- The digits of a step. -/
def digits (bias position step : Nat) : Text :=
  let t := threshold position bias
  if step < t then [digit step]
  else digit (t + (step - t) % (36 - t)) :: digits bias (position + 36) ((step - t) / (36 - t))
termination_by step
decreasing_by
  have := threshold_bounds position bias
  calc (step - threshold position bias) / (36 - threshold position bias)
      ≤ step - threshold position bias := Nat.div_le_self _ _
    _ < step := by omega

/-- How far a label is written. -/
structure Progress where
  written : Nat
  step : Nat
  bias : Nat
  output : Text

/-- Goes past one character of the label, and writes it if it is the one of the code
point `m`. `basic` is the number of ASCII characters. -/
def pass (basic m : Nat) (p : Progress) (c : Char) : Progress :=
  if c.toNat < m then { p with step := p.step + 1 }
  else if c.toNat = m then
    { written := p.written + 1
      step := 0
      bias := adapt p.step (p.written + 1) (p.written == basic)
      output := p.output ++ digits p.bias 36 p.step }
  else p

/-- Writes the characters of rising code points, the first of which is not below `n`. -/
def encodeFrom (label : Text) (basic : Nat) : List Nat → Nat → Progress → Progress
  | [], _, p => p
  | m :: codes, n, p =>
    let p := { p with step := p.step + (m - n) * (p.written + 1) }
    let p := label.foldl (pass basic m) p
    encodeFrom label basic codes (m + 1) { p with step := p.step + 1 }

/-- The **ASCII form** of a label. -/
def encode (label : Text) : Text :=
  let basic := label.filter fun c => c.toNat < 0x80
  let codes := ((label.map Char.toNat).filter (0x80 ≤ ·)).eraseDups.mergeSort fun a b => a ≤ b
  let front := if basic.isEmpty then [] else basic ++ ['-']
  (encodeFrom label basic.length codes 0x80 ⟨basic.length, 0, 72, front⟩).output

end Punycode

end MailMerge
