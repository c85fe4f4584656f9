import Mathlib.Algebra.Group.Nat.Defs
import MailMerge.Calendar.Reading
import MailMerge.Proofs.Segments

/-!
# Written numbers

A number is written as its decimal digits, and read as the number that the digits spell. Digits end at
the first character that is none, or where enough of them are read.

* `digitsValue_ofNat` and `digitsValue_padded` — written digits spell the number;
* `digitsValue_lt` — so many digits spell no more than a power of ten;
* `Reading.digits?_append` — the reader of digits takes a run of them.
-/

namespace MailMerge

namespace Text

/-! ### Digits -/

/-- The digits of a number **spell it**. -/
@[simp] theorem digitsValue_ofNat (n : Nat) : digitsValue (ofNat n) = n := Nat.ofDigitChars_ten_toDigits

/-- A run of digits spells a number **below the power of ten** of its length. -/
theorem digitsValue_lt {u : Text} (hu : ∀ c ∈ u, c.isDigit = true) : digitsValue u < 10 ^ u.length := by
  induction u with
  | nil => exact Nat.one_pos
  | cons c u ih =>
    obtain ⟨hc, hu⟩ := List.forall_mem_cons.1 hu
    rw [Char.isDigit, Bool.and_eq_true, decide_eq_true_eq, decide_eq_true_eq] at hc
    have hdigit : c.toNat - '0'.toNat ≤ 9 := Nat.sub_le_of_le_add hc.2
    have hsplit : digitsValue (c :: u) = 10 ^ u.length * (c.toNat - '0'.toNat) + digitsValue u := by
      show Nat.ofDigitChars 10 (c :: u) 0 = _
      rw [Nat.ofDigitChars_cons, Nat.ofDigitChars_eq_ofDigitChars_zero, Nat.mul_zero, Nat.zero_add]
      rfl
    calc digitsValue (c :: u)
      _ = 10 ^ u.length * (c.toNat - '0'.toNat) + digitsValue u := hsplit
      _ < 10 ^ u.length * 9 + 10 ^ u.length :=
        Nat.add_lt_add_of_le_of_lt (Nat.mul_le_mul_left _ hdigit) (ih hu)
      _ = 10 ^ (c :: u).length := by rw [List.length_cons, Nat.pow_succ, ← Nat.mul_succ]

theorem isDigit_of_mem_ofNat {n : Nat} {c : Char} (h : c ∈ ofNat n) : c.isDigit = true :=
  Nat.isDigit_of_mem_toDigits (by decide) (by decide) h

theorem ofNat_ne_nil (n : Nat) : ofNat n ≠ [] := Nat.toDigits_ne_nil

/-- A number below a power of ten **has no more digits** than its exponent. -/
theorem length_ofNat_le {n width : Nat} (h : n < 10 ^ width) (hw : 0 < width) :
    (ofNat n).length ≤ width := (Nat.length_toDigits_le_iff (by decide) hw).2 h

/-- The digits of a positive number **do not begin with a zero**. -/
theorem head?_ofNat_ne {n : Nat} (h : 0 < n) : (ofNat n).head? ≠ some '0' := by
  induction n using Nat.strongRecOn with
  | ind n ih =>
    rw [ofNat, Nat.toDigits_eq_if (by decide)]
    split
    case isTrue hlt =>
      intro hzero
      have hchar : n.digitChar = '0' := Option.some.inj hzero
      have hvalue := Nat.toNat_digitChar_sub_48_of_lt_ten hlt
      rw [hchar] at hvalue
      have hzero : '0'.toNat - 48 = 0 := by decide
      omega
    case isFalse hge =>
      rw [List.head?_append_of_ne_nil _ Nat.toDigits_ne_nil]
      exact ih (n / 10) (by omega) (by omega)

/-! ### Padded digits -/

theorem isDigit_of_mem_padded {width n : Nat} {c : Char} (h : c ∈ padded width n) :
    c.isDigit = true := by
  rw [padded, List.mem_append] at h
  rcases h with h | h
  · rw [List.eq_of_mem_replicate h]
    rfl
  · exact isDigit_of_mem_ofNat h

/-- Zeros in front **do not count**. -/
@[simp] theorem digitsValue_padded (width n : Nat) : digitsValue (padded width n) = n := by
  have hzeros : digitsValue (List.replicate (width - (ofNat n).length) '0') = 0 :=
    Nat.ofDigitChars_replicate_zero
  rw [padded, digitsValue, List.foldl_append]
  rw [digitsValue] at hzeros
  rw [hzeros]
  exact digitsValue_ofNat n

theorem length_padded {width n : Nat} (h : n < 10 ^ width) (hw : 0 < width) :
    (padded width n).length = width := by
  have hle := length_ofNat_le h hw
  rw [padded, List.length_append, List.length_replicate]
  omega

theorem le_length_padded (width n : Nat) : width ≤ (padded width n).length := by
  rw [padded, List.length_append, List.length_replicate]
  omega

theorem padded_ne_nil (width n : Nat) : padded width n ≠ [] :=
  List.append_ne_nil_of_right_ne_nil _ (ofNat_ne_nil n)

/-! ### Blanks -/

theorem isBlank_of_isDigit {c : Char} (h : c.isDigit = true) : isBlank c = false := by
  rw [Char.isDigit, Bool.and_eq_true, decide_eq_true_eq, decide_eq_true_eq] at h
  have hlow : 48 ≤ c.toNat := h.1
  have hhigh : c.toNat ≤ 57 := h.2
  simp only [isBlank, Bool.or_eq_false_iff, Bool.and_eq_false_iff, decide_eq_false_iff_not,
    beq_eq_false_iff_ne]
  omega

theorem trimStart_cons {c : Char} (h : isBlank c = false) (t : Text) :
    trimStart (c :: t) = c :: t := by
  rw [trimStart, List.dropWhile_cons_of_neg (by rw [h]; decide)]

/-- There are **no blanks before digits**. -/
theorem trimStart_of_digits {u : Text} (hne : u ≠ []) (hu : ∀ c ∈ u, c.isDigit = true) (t : Text) :
    trimStart (u ++ t) = u ++ t := by
  obtain ⟨c, u, rfl⟩ := List.exists_cons_of_ne_nil hne
  exact trimStart_cons (isBlank_of_isDigit (hu c (List.mem_cons_self ..))) _

end Text

/-! ### Reading digits -/

namespace Reading

/-- The reader of digits **takes a run** of them: all of it, if it is not too long, and no more. -/
theorem digits?_append {least most : Nat} {u t : Text} (hu : ∀ c ∈ u, c.isDigit = true)
    (hleast : least ≤ u.length) (hmost : u.length ≤ most)
    (ht : u.length = most ∨ ∀ c ∈ t.head?, c.isDigit = false) :
    digits? least most (u ++ t) = some (Text.digitsValue u, t) := by
  have hrun : ((u ++ t).take most).takeWhile Char.isDigit = u := by
    rw [List.take_append, List.take_of_length_le hmost, List.takeWhile_append_of_pos hu]
    have hnil : (t.take (most - u.length)).takeWhile Char.isDigit = [] := by
      rcases ht with hlength | hhead
      · rw [hlength, Nat.sub_self, List.take_zero, List.takeWhile_nil]
      · cases t with
        | nil => rw [List.take_nil, List.takeWhile_nil]
        | cons c t =>
          cases most - u.length with
          | zero => rfl
          | succ k =>
            rw [List.take_succ_cons, List.takeWhile_cons_of_neg (by rw [hhead c rfl]; decide)]
    rw [hnil, List.append_nil]
  rw [digits?, hrun, if_pos hleast, List.drop_left]

/-- A number of two digits is read back. -/
theorem short?_padded {n : Nat} (h : n < 100) (t : Text) :
    short? (Text.padded 2 n ++ t) = some (n, t) := by
  have hlength : (Text.padded 2 n).length = 2 := Text.length_padded h (by decide)
  have hdigits : ∀ c ∈ Text.padded 2 n, c.isDigit = true := fun c => Text.isDigit_of_mem_padded
  rw [short?, Text.trimStart_of_digits (Text.padded_ne_nil 2 n) hdigits,
    digits?_append hdigits (by omega) (by omega) (.inl hlength), Text.digitsValue_padded]

end Reading

end MailMerge
