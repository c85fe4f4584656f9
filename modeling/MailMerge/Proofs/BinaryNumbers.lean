import Mathlib.Algebra.Order.Field.Power
import Mathlib.Algebra.Order.Ring.Rat
import Mathlib.Tactic.FieldSimp
import Mathlib.Tactic.NormNum
import Mathlib.Tactic.Ring
import MailMerge.Json.Reader

/-!
# Rounded numbers

A finite floating point number stands for the rational number `± significand * 2 ^ exponent`. Quotients are
compared with such numbers by exact integer arithmetic, so that each comparison is one of rational numbers.
The exponent of a rounded quotient is chosen such that the significand has 53 bits, or is the least exponent
there is; hence what is rounded is canonical, and a canonical number is its own rounding.

* `Binary64.toRat?` is the number that a floating point number stands for, `Binary64.IsCanonical` says that it
  is one of the numbers of 64 bits;
* `Binary64.floorLog2_spec` — the exponent of the greatest power of two not above a quotient;
* `Binary64.ofRatio_eq` — a canonical number is its own rounding;
* `Binary64.ofRatio_isCanonical` — each rounded quotient is canonical;
* `Binary64.exists_fits_natCast` — whole numbers up to `2 ^ 53` are canonical;
* `Json.isCanonical_of_ofText?` — each number that is read from JSON is canonical.
-/

namespace MailMerge

namespace Binary64

/-! ### The specification -/

/-- The **rational number** that a finite number stands for. -/
def toRat? : Binary64 → Option ℚ
  | .finite negative m e => some ((if negative then -1 else 1) * (m * 2 ^ e))
  | _ => none

/-- What is asked of a **significand and its exponent**: both are in their bounds, and the significand has all
its bits unless the exponent is the least there is. -/
structure Fits (m : Nat) (e : Int) : Prop where
  significand_lt : m < 2 * leastNormal
  le_exponent : -1074 ≤ e
  exponent_le : e ≤ 971
  normal : leastNormal ≤ m ∨ e = -1074

/-- Whether a number is one of the numbers of 64 bits, each of which has **one significand and exponent**. -/
def IsCanonical : Binary64 → Prop
  | .finite _ m e => Fits m e
  | _ => True

variable {num den m : Nat} {e : Int} {x : Binary64} { negative : Bool}

/-! ### Powers of two -/

theorem powerOfTwo_pos (e : Int) : 0 < (powerOfTwo e).1 ∧ 0 < (powerOfTwo e).2 :=
  ⟨Nat.pow_pos (by decide), Nat.pow_pos (by decide)⟩

/-- The two halves of a power of two **have it as their quotient**. -/
theorem powerOfTwo_eq (e : Int) : ((powerOfTwo e).1 : ℚ) = 2 ^ e * (powerOfTwo e).2 := by
  show ((2 ^ e.toNat : ℕ) : ℚ) = 2 ^ e * ((2 ^ (-e).toNat : ℕ) : ℚ)
  obtain ⟨k, rfl | rfl⟩ := Int.eq_nat_or_neg e
  · have hdown : (-(k : Int)).toNat = 0 := by omega
    rw [Int.toNat_natCast, hdown, zpow_natCast]
    push_cast
    ring
  · have hup : (-(k : Int)).toNat = 0 := by omega
    rw [neg_neg, Int.toNat_natCast, hup, zpow_neg, zpow_natCast]
    push_cast
    field_simp

/-- A quotient **is compared** with a multiple of a power of two without division. -/
theorem mul_powerOfTwo_le_iff (k : Nat) (hden : 0 < den) (e : Int) :
    k * (den * (powerOfTwo e).1) ≤ num * (powerOfTwo e).2 ↔ (k : ℚ) * 2 ^ e ≤ num / den := by
  have hden' : (0 : ℚ) < den := Nat.cast_pos.2 hden
  have hdown : (0 : ℚ) < (powerOfTwo e).2 := Nat.cast_pos.2 (powerOfTwo_pos e).2
  calc k * (den * (powerOfTwo e).1) ≤ num * (powerOfTwo e).2
    _ ↔ (k : ℚ) * (den * (powerOfTwo e).1) ≤ num * (powerOfTwo e).2 := by norm_cast
    _ ↔ (k * 2 ^ e * den : ℚ) * (powerOfTwo e).2 ≤ num * (powerOfTwo e).2 := by
      rw [powerOfTwo_eq, show (k : ℚ) * (den * (2 ^ e * (powerOfTwo e).2)) =
        k * 2 ^ e * den * (powerOfTwo e).2 by ring]
    _ ↔ (k : ℚ) * 2 ^ e ≤ num / den := by rw [mul_le_mul_iff_left₀ hdown, le_div_iff₀ hden']

theorem le_mul_powerOfTwo_iff (k : Nat) (hden : 0 < den) (e : Int) :
    num * (powerOfTwo e).2 ≤ k * (den * (powerOfTwo e).1) ↔ (num : ℚ) / den ≤ k * 2 ^ e := by
  have hden' : (0 : ℚ) < den := Nat.cast_pos.2 hden
  have hdown : (0 : ℚ) < (powerOfTwo e).2 := Nat.cast_pos.2 (powerOfTwo_pos e).2
  calc num * (powerOfTwo e).2 ≤ k * (den * (powerOfTwo e).1)
    _ ↔ (num : ℚ) * (powerOfTwo e).2 ≤ k * (den * (powerOfTwo e).1) := by norm_cast
    _ ↔ (num : ℚ) * (powerOfTwo e).2 ≤ (k * 2 ^ e * den : ℚ) * (powerOfTwo e).2 := by
      rw [powerOfTwo_eq, show (k : ℚ) * (den * (2 ^ e * (powerOfTwo e).2)) =
        k * 2 ^ e * den * (powerOfTwo e).2 by ring]
    _ ↔ (num : ℚ) / den ≤ k * 2 ^ e := by rw [mul_le_mul_iff_left₀ hdown, div_le_iff₀ hden']

theorem two_zpow_lt_iff {d e : Int} : (2 : ℚ) ^ d < 2 ^ e ↔ d < e := zpow_lt_zpow_iff_right₀ (by norm_num)

theorem two_zpow_le_iff {d e : Int} : (2 : ℚ) ^ d ≤ 2 ^ e ↔ d ≤ e := zpow_le_zpow_iff_right₀ (by norm_num)

/-! ### The greatest power of two -/

theorem two_zpow_log2_le {n : Nat} (h : 0 < n) : (2 : ℚ) ^ (n.log2 : Int) ≤ n := by
  rw [zpow_natCast]
  exact_mod_cast Nat.log2_self_le (Nat.pos_iff_ne_zero.1 h)

theorem lt_two_zpow_log2_succ (n : Nat) : (n : ℚ) < 2 ^ ((n.log2 : Int) + 1) := by
  have hlt : n < 2 ^ (n.log2 + 1) := Nat.lt_log2_self
  rw [show ((n.log2 : Int) + 1) = ((n.log2 + 1 : ℕ) : Int) by push_cast; rfl, zpow_natCast]
  exact_mod_cast hlt

/-- A quotient lies **between a power of two and the next one**. -/
theorem floorLog2_spec (hnum : 0 < num) (hden : 0 < den) :
    (2 : ℚ) ^ floorLog2 num den ≤ num / den ∧ (num : ℚ) / den < 2 ^ (floorLog2 num den + 1) := by
  have hden' : (0 : ℚ) < den := Nat.cast_pos.2 hden
  -- the logarithms of the two parts leave two powers of two open
  have hlow : (2 : ℚ) ^ ((num.log2 : Int) - den.log2 - 1) ≤ num / den := by
    rw [le_div_iff₀ hden']
    calc (2 : ℚ) ^ ((num.log2 : Int) - den.log2 - 1) * den
      _ ≤ 2 ^ ((num.log2 : Int) - den.log2 - 1) * 2 ^ ((den.log2 : Int) + 1) := by
        gcongr
        exact (lt_two_zpow_log2_succ den).le
      _ = 2 ^ (num.log2 : Int) := by
        rw [← zpow_add₀ (by norm_num)]
        congr 1
        omega
      _ ≤ num := two_zpow_log2_le hnum
  have hhigh : (num : ℚ) / den < 2 ^ ((num.log2 : Int) - den.log2 + 1) := by
    rw [div_lt_iff₀ hden']
    calc (num : ℚ)
      _ < 2 ^ ((num.log2 : Int) + 1) := lt_two_zpow_log2_succ num
      _ = 2 ^ ((num.log2 : Int) - den.log2 + 1) * 2 ^ (den.log2 : Int) := by
        rw [← zpow_add₀ (by norm_num)]
        congr 1
        omega
      _ ≤ 2 ^ ((num.log2 : Int) - den.log2 + 1) * den := by
        gcongr
        exact two_zpow_log2_le hden
  have htest := @mul_powerOfTwo_le_iff num den 1 hden ((num.log2 : Int) - den.log2)
  rw [Nat.one_mul, Nat.cast_one, one_mul] at htest
  unfold floorLog2
  dsimp only
  split
  case isTrue hle => exact ⟨htest.1 hle, hhigh⟩
  case isFalse hgt =>
    rw [Int.sub_add_cancel]
    exact ⟨hlow, not_le.1 (mt htest.2 hgt)⟩

/-! ### Rounded quotients -/

theorem le_roundQuotient {k : Nat} (hden : 0 < den) (h : k * den ≤ num) : k ≤ roundQuotient num den := by
  have hle : k ≤ num / den := (Nat.le_div_iff_mul_le hden).2 h
  unfold roundQuotient
  dsimp only
  split
  case isTrue => exact hle
  case isFalse =>
    split
    case isTrue => omega
    case isFalse => split <;> omega

theorem roundQuotient_le {k : Nat} (hden : 0 < den) (h : num ≤ k * den) : roundQuotient num den ≤ k := by
  rcases Nat.eq_or_lt_of_le h with rfl | hlt
  · -- there is no remainder
    rw [roundQuotient, Nat.mul_mod_left, Nat.mul_div_cancel k hden]
    simp [hden]
  · have hlt' : num / den < k := (Nat.div_lt_iff_lt_mul hden).2 hlt
    unfold roundQuotient
    dsimp only
    split
    case isTrue => omega
    case isFalse =>
      split
      case isTrue => omega
      case isFalse => split <;> omega

/-! ### Rounding -/

/-- The exponent of a rounded quotient: **53 bits below the greatest power of two**, if there is such. -/
def unitOf (num den : Nat) : Int := max (floorLog2 num den - 52) (-1074)

/-- The significand of a quotient before it is found to be too large. -/
def significandOf (num den : Nat) : Nat :=
  roundQuotient (num * (powerOfTwo (unitOf num den)).2) (den * (powerOfTwo (unitOf num den)).1)

theorem ofRatio_def (hnum : 0 < num) :
    ofRatio negative num den =
      if significandOf num den = 2 * leastNormal then
        if 971 < unitOf num den + 1 then .infinite negative
        else .finite negative leastNormal (unitOf num den + 1)
      else if 971 < unitOf num den then .infinite negative
      else .finite negative (significandOf num den) (unitOf num den) := by
  unfold ofRatio
  rw [if_neg hnum.ne']
  by_cases hlarge : significandOf num den = 2 * leastNormal
  · rw [if_pos hlarge]
    dsimp only
    rw [← unitOf, ← significandOf, if_pos hlarge]
  · rw [if_neg hlarge]
    dsimp only
    rw [← unitOf, ← significandOf, if_neg hlarge]

theorem unitOf_mul_pos (hden : 0 < den) : 0 < den * (powerOfTwo (unitOf num den)).1 :=
  Nat.mul_pos hden (powerOfTwo_pos _).1

/-- The significand of a quotient has **no more than 53 bits**, but for rounding up. -/
theorem significandOf_le (hnum : 0 < num) (hden : 0 < den) : significandOf num den ≤ 2 * leastNormal := by
  refine roundQuotient_le (unitOf_mul_pos hden) ((le_mul_powerOfTwo_iff _ hden _).2 ?_)
  calc (num : ℚ) / den
    _ ≤ 2 ^ (floorLog2 num den + 1) := (floorLog2_spec hnum hden).2.le
    _ ≤ 2 ^ (53 + unitOf num den) := two_zpow_le_iff.2 (by rw [unitOf]; omega)
    _ = ((2 * leastNormal : ℕ) : ℚ) * 2 ^ unitOf num den := by
      rw [zpow_add₀ (by norm_num), leastNormal]
      norm_num

/-- The significand of a quotient has **no fewer than 53 bits**, unless the exponent is the least. -/
theorem le_significandOf (hnum : 0 < num) (hden : 0 < den) :
    leastNormal ≤ significandOf num den ∨ unitOf num den = -1074 := by
  rcases le_or_gt (floorLog2 num den - 52) (-1074) with hleast | hmore
  · exact .inr (max_eq_right hleast)
  · have hunit : unitOf num den = floorLog2 num den - 52 := max_eq_left hmore.le
    refine .inl (le_roundQuotient (unitOf_mul_pos hden) ((mul_powerOfTwo_le_iff _ hden _).2 ?_))
    calc ((leastNormal : ℕ) : ℚ) * 2 ^ unitOf num den
      _ = 2 ^ (52 + unitOf num den) := by
        rw [zpow_add₀ (by norm_num), leastNormal]
        norm_num
      _ = 2 ^ floorLog2 num den := by rw [hunit, add_sub_cancel]
      _ ≤ num / den := (floorLog2_spec hnum hden).1

theorem isCanonical_zero ( negative : Bool) : (zero negative).IsCanonical :=
  ⟨by decide, by decide, by decide, .inr rfl⟩

/-- A rounded quotient **is canonical**. -/
theorem ofRatio_isCanonical ( negative : Bool) (num : Nat) (hden : 0 < den) :
    (ofRatio negative num den).IsCanonical := by
  rcases Nat.eq_zero_or_pos num with rfl | hnum
  · exact isCanonical_zero negative
  · have hle := significandOf_le hnum hden
    have hnormal := le_significandOf hnum hden
    have hunit : -1074 ≤ unitOf num den := le_max_right _ _
    rw [ofRatio_def hnum]
    -- a significand that is rounded up to the next power of two is halved
    split
    case isTrue =>
      split
      case isTrue => trivial
      case isFalse hmost => exact ⟨by decide, by omega, by omega, .inl le_rfl⟩
    case isFalse hne =>
      split
      case isTrue => trivial
      case isFalse hmost => exact ⟨by omega, hunit, by omega, hnormal⟩

/-- The number of a significand and an exponent lies between **the powers of two** that they say. -/
theorem Fits.bounds (h : Fits m e) :
    (m : ℚ) * 2 ^ e < 2 ^ (e + 53) ∧ (leastNormal ≤ m → (2 : ℚ) ^ (e + 52) ≤ m * 2 ^ e) := by
  have hpos : (0 : ℚ) < 2 ^ e := by positivity
  constructor
  · rw [zpow_add₀ (by norm_num), mul_comm ((2 : ℚ) ^ e)]
    refine mul_lt_mul_of_pos_right ?_ hpos
    calc (m : ℚ)
      _ < ((2 * leastNormal : ℕ) : ℚ) := Nat.cast_lt.2 h.significand_lt
      _ = 2 ^ (53 : Int) := by norm_num [leastNormal]
  · intro hm
    rw [zpow_add₀ (by norm_num), mul_comm ((2 : ℚ) ^ e)]
    refine mul_le_mul_of_nonneg_right ?_ hpos.le
    calc (2 : ℚ) ^ (52 : Int)
      _ = (leastNormal : ℕ) := by norm_num [leastNormal]
      _ ≤ m := Nat.cast_le.2 hm

/-- A canonical number **is its own rounding**. -/
theorem ofRatio_eq (h : Fits m e) (hm : 0 < m) (hden : 0 < den) (hvalue : (num : ℚ) / den = m * 2 ^ e) :
    ofRatio negative num den = .finite negative m e := by
  have hpos : (0 : ℚ) < m * 2 ^ e := mul_pos (Nat.cast_pos.2 hm) (by positivity)
  have hnum : 0 < num := by
    refine Nat.pos_of_ne_zero fun hzero => ?_
    rw [hzero, Nat.cast_zero, zero_div] at hvalue
    exact hpos.ne hvalue
  obtain ⟨hle, hlt⟩ := floorLog2_spec hnum hden
  obtain ⟨hbelow, habove⟩ := h.bounds
  -- the size of the number tells the unit, and the unit the significand
  have hfew : floorLog2 num den < e + 53 := by
    refine two_zpow_lt_iff.1 (hle.trans_lt ?_)
    rw [hvalue]
    exact hbelow
  have hunit : unitOf num den = e := by
    have hleast := h.le_exponent
    rcases h.normal with hnormal | rfl
    · have hmany : e + 52 < floorLog2 num den + 1 := by
        refine two_zpow_lt_iff.1 ((habove hnormal).trans_lt ?_)
        rw [← hvalue]
        exact hlt
      rw [unitOf]
      omega
    · rw [unitOf]
      omega
  have hsignificand : significandOf num den = m := by
    refine le_antisymm (roundQuotient_le (unitOf_mul_pos hden) ?_) (le_roundQuotient (unitOf_mul_pos hden) ?_)
    · rw [le_mul_powerOfTwo_iff _ hden, hunit, hvalue]
    · rw [mul_powerOfTwo_le_iff _ hden, hunit, hvalue]
  have hlt' := h.significand_lt
  have hmost := h.exponent_le
  rw [ofRatio_def hnum, hsignificand, hunit, if_neg (by omega), if_neg (by omega)]

/-! ### Whole numbers -/

/-- A positive whole number up to `2 ^ 53` **has a significand and an exponent**. -/
theorem exists_fits_natCast {n : Nat} (hpos : 0 < n) (hn : n ≤ 2 ^ 53) :
    ∃ m e, Fits m e ∧ 0 < m ∧ (n : ℚ) = m * 2 ^ e := by
  rcases Nat.eq_or_lt_of_le hn with rfl | hlt
  · refine ⟨leastNormal, 1, ⟨by decide, by decide, by decide, .inl le_rfl⟩, by decide, ?_⟩
    norm_num [leastNormal]
  · -- the bits of the number are moved up to the 53rd place
    have hlog : n.log2 < 53 := (Nat.log2_lt hpos.ne').2 hlt
    have hlow : 2 ^ n.log2 ≤ n := Nat.log2_self_le hpos.ne'
    have hhigh : n < 2 ^ (n.log2 + 1) := Nat.lt_log2_self
    have hplaces : n.log2 + (52 - n.log2) = 52 := by omega
    have hscale : 0 < 2 ^ (52 - n.log2) := Nat.pow_pos (by decide)
    refine ⟨n * 2 ^ (52 - n.log2), (n.log2 : Int) - 52, ⟨?_, by omega, by omega, .inl ?_⟩,
      Nat.mul_pos hpos hscale, ?_⟩
    · calc n * 2 ^ (52 - n.log2)
        _ < 2 ^ (n.log2 + 1) * 2 ^ (52 - n.log2) := Nat.mul_lt_mul_of_pos_right hhigh hscale
        _ = 2 * leastNormal := by
          rw [← Nat.pow_add, Nat.add_right_comm, hplaces]
          rfl
    · calc leastNormal
        _ = 2 ^ n.log2 * 2 ^ (52 - n.log2) := by
          rw [← Nat.pow_add, hplaces]
          rfl
        _ ≤ n * 2 ^ (52 - n.log2) := Nat.mul_le_mul_right _ hlow
    · rw [show (n.log2 : Int) - 52 = -((52 - n.log2 : ℕ) : Int) by omega, zpow_neg, zpow_natCast]
      push_cast
      field_simp

/-- A whole number up to `2 ^ 53` **is kept exactly**. -/
theorem toRat?_ofNat {n : Nat} (hn : n ≤ 2 ^ 53) : (ofNat n).toRat? = some (n : ℚ) := by
  rcases Nat.eq_zero_or_pos n with rfl | hpos
  · simp [ofNat, ofRatio, zero, toRat?]
  · obtain ⟨m, e, hfits, hm, hvalue⟩ := exists_fits_natCast hpos hn
    rw [ofNat, ofRatio_eq hfits hm Nat.one_pos (by rw [Nat.cast_one, div_one, hvalue]), toRat?, hvalue]
    simp

theorem ofNat_isCanonical (n : Nat) : (ofNat n).IsCanonical := ofRatio_isCanonical false n Nat.one_pos

/-! ### Arithmetic -/

theorem toRat?_neg (x : Binary64) : x.neg.toRat? = x.toRat?.map (- ·) := by
  cases x with
  | nan => rfl
  | infinite => rfl
  | finite negative m e => cases negative <;> simp [neg, toRat?]

theorem IsCanonical.neg (h : x.IsCanonical) : x.neg.IsCanonical := by
  cases x with
  | nan => trivial
  | infinite => trivial
  | finite => exact h

theorem mul_isCanonical (x y : Binary64) : (x.mul y).IsCanonical := by
  unfold mul
  split
  case h_1 => exact ofRatio_isCanonical _ _ (Nat.mul_pos (powerOfTwo_pos _).2 (powerOfTwo_pos _).2)
  case h_2 => trivial
  case h_3 => trivial
  case h_4 => trivial
  case h_5 => split <;> trivial
  case h_6 => split <;> trivial

theorem div_isCanonical (x y : Binary64) : (x.div y).IsCanonical := by
  unfold div
  split
  case h_1 =>
    split
    case isTrue => split <;> trivial
    case isFalse hne =>
      refine ofRatio_isCanonical _ _ (Nat.mul_pos (powerOfTwo_pos _).2 (Nat.mul_pos ?_ (powerOfTwo_pos _).1))
      exact Nat.pos_of_ne_zero hne
  case h_2 => trivial
  case h_3 => trivial
  case h_4 => trivial
  case h_5 => trivial
  case h_6 => exact isCanonical_zero _

end Binary64

/-! ### Numbers of JSON -/

namespace JsonNumeral

open Binary64

theorem scaleDown_isCanonical (x : Binary64) (n : Nat) : (scaleDown x n).IsCanonical := by
  fun_induction scaleDown x n with
  | case1 => exact div_isCanonical _ _
  | case2 => exact isCanonical_zero false
  | case3 x n _ _ ih => exact ih

variable {significand : Nat} {x : Binary64}

theorem isCanonical_of_scale? {exponent : Int} (h : scale? significand exponent = some x) : x.IsCanonical := by
  unfold scale? at h
  dsimp only at h
  split at h
  case isTrue =>
    cases h
    exact scaleDown_isCanonical _ _
  case isFalse =>
    split at h
    case isTrue =>
      split at h
      case isTrue =>
        cases h
        exact ofNat_isCanonical significand
      case isFalse => cases h
    case isFalse =>
      split at h
      case isTrue => cases h
      case isFalse =>
        cases h
        exact mul_isCanonical _ _

theorem isCanonical_of_scaled? {shift : Int} {exponent : Option (Bool × Text)}
    (h : scaled? significand shift exponent = some x) : x.IsCanonical := by
  unfold scaled? at h
  split at h
  case h_1 => exact isCanonical_of_scale? h
  case h_2 =>
    dsimp only at h
    split at h
    case isTrue =>
      split at h
      case isTrue => cases h
      case isFalse =>
        cases h
        exact isCanonical_zero false
    case isFalse => exact isCanonical_of_scale? h

/-- The number of a numeral **is canonical**, if it is no integer. -/
theorem isCanonical_of_value? {n : JsonNumeral} (h : n.value? = some (.float x)) : x.IsCanonical := by
  have hsigned {y? : Option Binary64} (hy : ∀ y, y? = some y → y.IsCanonical)
      (h : value?.signed n y? = some (.float x)) : x.IsCanonical := by
    obtain ⟨y, rfl, hx⟩ := Option.map_eq_some_iff.1 h
    cases hx
    split
    case isTrue => exact (hy y rfl).neg
    case isFalse => exact hy y rfl
  unfold value? at h
  dsimp only at h
  split at h
  case h_1 =>
    split at h
    case isTrue => cases h
    case isFalse => exact hsigned (fun _ => isCanonical_of_scale?) h
  case h_2 => exact hsigned (fun _ => isCanonical_of_scaled?) h

end JsonNumeral

/-- A number of JSON **comes from a numeral**. -/
theorem JsonNode.exists_of_value?_number {depth : Nat} {node : JsonNode} {number : JsonNumber}
    (h : node.value? depth = some (.number number)) : ∃ numeral : JsonNumeral, numeral.value? = some number := by
  cases node with
  | null => cases h
  | bool => cases h
  | number numeral =>
    obtain ⟨value, hvalue, hnumber⟩ := Option.map_eq_some_iff.1 h
    cases hnumber
    exact ⟨numeral, hvalue⟩
  | string body =>
    obtain ⟨t, -, htext⟩ := Option.map_eq_some_iff.1 h
    cases htext
  | array items =>
    cases depth with
    | zero => cases h
    | succ depth =>
      obtain ⟨values, -, harray⟩ := Option.map_eq_some_iff.1 h
      cases harray
  | object members =>
    cases depth with
    | zero => cases h
    | succ depth =>
      obtain ⟨fields, -, hobject⟩ := Option.map_eq_some_iff.1 h
      cases hobject

/-- A number that is read from JSON **is canonical**, if it is no integer. -/
theorem Json.isCanonical_of_ofText? {t : Text} {x : Binary64} (h : Json.ofText? t = some (.number (.float x))) :
    x.IsCanonical := by
  rw [Json.ofText?, Option.bind_eq_bind, Option.bind_eq_some_iff] at h
  obtain ⟨node, -, hvalue⟩ := h
  obtain ⟨numeral, hnumeral⟩ := JsonNode.exists_of_value?_number hvalue
  exact JsonNumeral.isCanonical_of_value? hnumeral

end MailMerge
