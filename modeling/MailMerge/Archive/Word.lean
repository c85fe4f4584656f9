import MailMerge.Text.Utf8

/-!
# Numbers in bytes

Archives write numbers in a fixed number of bytes, the lowest byte first.

* `wordBytes` writes a number and `wordValue` reads it;
* `wordAt` reads the number at an offset;
* `wordValue_wordBytes` says that a number that fits is read back.
-/

namespace MailMerge

/-- A number in `width` bytes, the lowest first. -/
def wordBytes : Nat → Nat → Bytes
  | 0, _ => []
  | width + 1, n => UInt8.ofNat n :: wordBytes width (n / 256)

/-- The number in bytes, the lowest first. -/
def wordValue : Bytes → Nat
  | [] => 0
  | b :: bytes => b.toNat + 256 * wordValue bytes

/-- The number in `width` bytes at an offset. -/
def wordAt (offset width : Nat) (bytes : Bytes) : Nat :=
  wordValue ((bytes.drop offset).take width)

@[simp] theorem length_wordBytes (width n : Nat) : (wordBytes width n).length = width := by
  induction width generalizing n with
  | zero => rfl
  | succ width ih => simp [wordBytes, ih]

theorem wordValue_wordBytes (width n : Nat) :
    wordValue (wordBytes width n) = n % Nat.pow 256 width := by
  induction width generalizing n with
  | zero => simp [wordBytes, wordValue, Nat.mod_one]
  | succ width ih =>
    have h : (UInt8.ofNat n).toNat = n % 256 := UInt8.toNat_ofNat'
    have hp : Nat.pow 256 (width + 1) = 256 * Nat.pow 256 width := Nat.mul_comm _ _
    rw [wordBytes, wordValue, ih, h, hp, Nat.mod_mul]

/-- Whether bytes begin with other bytes. -/
def startsWithBytes : Bytes → Bytes → Bool
  | [], _ => true
  | _ :: _, [] => false
  | a :: needle, b :: bytes => a == b && startsWithBytes needle bytes

/-- The offsets at which some bytes stand in others, rising, counted from `offset`. -/
def offsetsOf (needle : Bytes) : Nat → Bytes → List Nat
  | _, [] => []
  | offset, b :: bytes =>
    let later := offsetsOf needle (offset + 1) bytes
    if startsWithBytes needle (b :: bytes) then offset :: later else later

end MailMerge
