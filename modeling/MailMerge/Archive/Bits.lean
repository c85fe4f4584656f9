import MailMerge.Text.Utf8

/-!
# Bits

Compressed data is a sequence of bits, the lowest bit of each byte first.

* `bitsOfBytes` and `bytesOfBits` go back and forth, the latter filling the last byte
  with zeros;
* `numberBits` writes a number in a number of bits, lowest bit first, and
  `takeNumber?` reads it;
* `codeBits` writes a code word, highest bit first.
-/

namespace MailMerge

/-- A sequence of bits. -/
abbrev Bits := List Bool

/-- The lowest `width` bits of a number, lowest first. -/
def numberBits : Nat → Nat → Bits
  | 0, _ => []
  | width + 1, n => (n % 2 == 1) :: numberBits width (n / 2)

/-- The number that bits spell, lowest first. -/
def numberOfBits : Bits → Nat
  | [] => 0
  | b :: bits => (if b then 1 else 0) + 2 * numberOfBits bits

/-- The lowest `width` bits of a number, highest first. -/
def codeBits (width n : Nat) : Bits := (numberBits width n).reverse

/-- The bits of bytes. -/
def bitsOfBytes (bytes : Bytes) : Bits := bytes.flatMap fun b => numberBits 8 b.toNat

/-- The bytes of bits. The last byte is filled with zeros. -/
def bytesOfBits : Bits → Bytes
  | [] => []
  | b :: bits =>
    UInt8.ofNat (numberOfBits (b :: bits.take 7)) :: bytesOfBits (bits.drop 7)
termination_by bits => bits.length

/-- Reads a number of bits, if there are as many. -/
def takeNumber? : Nat → Bits → Option (Nat × Bits)
  | 0, bits => some (0, bits)
  | _ + 1, [] => none
  | width + 1, b :: bits =>
    (takeNumber? width bits).map fun p => ((if b then 1 else 0) + 2 * p.1, p.2)

@[simp] theorem length_numberBits (width n : Nat) : (numberBits width n).length = width := by
  induction width generalizing n with
  | zero => rfl
  | succ width ih => simp [numberBits, ih]

@[simp] theorem takeNumber?_numberBits (width n : Nat) (rest : Bits) :
    takeNumber? width (numberBits width n ++ rest) = some (n % Nat.pow 2 width, rest) := by
  induction width generalizing n with
  | zero => simp [numberBits, takeNumber?, Nat.mod_one]
  | succ width ih =>
    simp only [numberBits, List.cons_append, takeNumber?, ih, Option.map_some, Option.some.injEq,
      Prod.mk.injEq, and_true]
    have hp : Nat.pow 2 (width + 1) = 2 * Nat.pow 2 width := Nat.mul_comm _ _
    rw [hp, Nat.mod_mul]
    rcases Nat.mod_two_eq_zero_or_one n with h | h <;> simp [h]

@[simp] theorem numberOfBits_numberBits (width n : Nat) :
    numberOfBits (numberBits width n) = n % Nat.pow 2 width := by
  induction width generalizing n with
  | zero => simp [numberBits, numberOfBits, Nat.mod_one]
  | succ width ih =>
    simp only [numberBits, numberOfBits, ih]
    have hp : Nat.pow 2 (width + 1) = 2 * Nat.pow 2 width := Nat.mul_comm _ _
    rw [hp, Nat.mod_mul]
    rcases Nat.mod_two_eq_zero_or_one n with h | h <;> simp [h]

end MailMerge
