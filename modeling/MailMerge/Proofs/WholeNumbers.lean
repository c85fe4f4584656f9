import MailMerge.Field.Value
import MailMerge.Proofs.BinaryNumbers
import MailMerge.Proofs.PlainNumerals

/-!
# Whole numbers are written plainly

A whole number is written by its digits below `10 ^ 15` in magnitude, and by the shortest decimal that reads
back from there on. Up to `2 ^ 53` the second way leads to the same text: the numbers that round to a whole
number reach less than one to either side of it, so that it is the only whole number among them. The one
exception is `2 ^ 53` itself, from which the next number is two away; the whole number between them rounds to
it, but is no multiple of ten. Hence a grid of powers of ten is met in the number itself or not at all, the
grid of units is met in any case, and the decimal that is found differs from the number by zeros at its end.

* `Shortest.Interval.IsAround` says that a whole number is all that an interval has to offer to the grids;
* `Shortest.isAround_ofBinary` — so it is with a whole number up to `2 ^ 53`;
* `Shortest.exists_search` — the decimal that is found is the number;
* `Binary64.isPlainNumeral_formatted` — a whole number is written as its plain numeral;
* `whole_numbers_print_plainly` — and so is each field that is read from a whole number of JSON.
-/

namespace MailMerge

/-! ### The specification -/

/-- The **rational number** that a number of JSON stands for, if it is finite. -/
def JsonNumber.toRat? : JsonNumber → Option ℚ
  | .integer i => some i
  | .float x => x.toRat?

namespace Shortest

/-- An interval is **around a whole number** if its number is that one, and if of the multiples of ten no other
one is in it. -/
structure Interval.IsAround (i : Interval) (n : Nat) : Prop where
  den_pos : 0 < i.den
  value_eq : i.value = n * i.den
  contains : i.Contains n 1
  unique : ∀ a, 10 ∣ a → i.Contains a 1 → a = n

variable {i : Interval} {n m : Nat} {e : Int} {tie : TieRule}

/-! ### Intervals -/

theorem Interval.le_of_contains {a : Nat} (h : i.Contains a 1) : i.low ≤ a * i.den ∧ a * i.den ≤ i.high := by
  rw [Interval.Contains, Nat.mul_one, Nat.mul_one] at h
  split at h
  case isTrue => exact h
  case isFalse => exact ⟨h.1.le, h.2.le⟩

theorem Interval.contains_of_lt {a : Nat} (hlow : i.low < a * i.den) (hhigh : a * i.den < i.high) :
    i.Contains a 1 := by
  rw [Interval.Contains, Nat.mul_one, Nat.mul_one]
  split
  case isTrue => exact ⟨hlow.le, hhigh.le⟩
  case isFalse => exact ⟨hlow, hhigh⟩

/-- Up to `2 ^ 53` the numbers lie **at most one apart**, and only the next one is two away. -/
theorem exponent_cases (h : Binary64.Fits m e) (hn : n ≤ 2 ^ 53) (hvalue : (n : ℚ) = m * 2 ^ e) :
    e ≤ 0 ∨ (e = 1 ∧ m = Binary64.leastNormal ∧ n = 2 ^ 53) := by
  rcases h.normal with hnormal | rfl
  · have hle : (2 : ℚ) ^ (e + 52) ≤ 2 ^ (53 : Int) := by
      calc (2 : ℚ) ^ (e + 52)
        _ ≤ m * 2 ^ e := h.bounds.2 hnormal
        _ = n := hvalue.symm
        _ ≤ ((2 ^ 53 : ℕ) : ℚ) := Nat.cast_le.2 hn
        _ = 2 ^ (53 : Int) := by norm_num
    rcases Int.lt_or_eq_of_le (Int.le_of_add_le_add_right (Binary64.two_zpow_le_iff.1 hle : e + 52 ≤ 1 + 52))
      with hlt | rfl
    · exact .inl (Int.lt_add_one_iff.1 hlt)
    · have heq : n = m * 2 := by
        rw [zpow_one] at hvalue
        exact_mod_cast hvalue
      rw [Binary64.leastNormal] at hnormal ⊢
      exact .inr ⟨rfl, by omega, by omega⟩
  · exact .inl (by decide)

/-- The interval is measured in **quarters of the distance** to the next number. -/
theorem quarter_eq (e : Int) :
    (4 : ℚ) * (Binary64.powerOfTwo (e - 2)).1 = 2 ^ e * (Binary64.powerOfTwo (e - 2)).2 := by
  rw [Binary64.powerOfTwo_eq, zpow_sub₀ (by norm_num)]
  ring

theorem four_mul_quarter_le (he : e ≤ 0) :
    4 * (Binary64.powerOfTwo (e - 2)).1 ≤ (Binary64.powerOfTwo (e - 2)).2 := by
  have hle : (2 : ℚ) ^ e ≤ 1 := zpow_le_one_of_nonpos₀ (by norm_num) he
  have hrat : (4 : ℚ) * (Binary64.powerOfTwo (e - 2)).1 ≤ (Binary64.powerOfTwo (e - 2)).2 := by
    rw [quarter_eq]
    exact mul_le_of_le_one_left (Nat.cast_nonneg _) hle
  exact_mod_cast hrat

theorem value_ofBinary (hvalue : (n : ℚ) = m * 2 ^ e) :
    (Interval.ofBinary m e).value = n * (Interval.ofBinary m e).den := by
  have hrat : (4 * m * (Binary64.powerOfTwo (e - 2)).1 : ℚ) = n * (Binary64.powerOfTwo (e - 2)).2 := by
    rw [hvalue, mul_assoc, mul_left_comm, quarter_eq]
    ring
  exact_mod_cast hrat

theorem high_ofBinary (m : Nat) (e : Int) :
    (Interval.ofBinary m e).high = (Interval.ofBinary m e).value + 2 * (Binary64.powerOfTwo (e - 2)).1 :=
  Nat.add_mul ..

/-- The numbers that round to a whole number begin **less than one below it**. -/
theorem low_ofBinary (hm : 0 < m) (he : e ≤ 0 ∨ (e = 1 ∧ m = Binary64.leastNormal)) :
    (Interval.ofBinary m e).low < (Interval.ofBinary m e).value ∧
      (Interval.ofBinary m e).value < (Interval.ofBinary m e).low + (Interval.ofBinary m e).den := by
  obtain ⟨hup, hdown⟩ := Binary64.powerOfTwo_pos (e - 2)
  -- below the number the interval reaches one or two quarters of the gap to the next one
  obtain ⟨below, hlow, hpos, hle, hgap⟩ : ∃ below,
      (Interval.ofBinary m e).low = (4 * m - below) * (Binary64.powerOfTwo (e - 2)).1 ∧ 0 < below ∧
      below ≤ 4 * m ∧ below * (Binary64.powerOfTwo (e - 2)).1 < (Binary64.powerOfTwo (e - 2)).2 := by
    refine ⟨_, rfl, ?_, ?_, ?_⟩
    · split <;> decide
    · split <;> omega
    · rcases he with he | ⟨rfl, rfl⟩
      · have hfour := four_mul_quarter_le he
        split <;> omega
      · decide
  have hvalue : (Interval.ofBinary m e).low + below * (Binary64.powerOfTwo (e - 2)).1 =
      (Interval.ofBinary m e).value := by
    rw [hlow, ← Nat.add_mul, Nat.sub_add_cancel hle]
    rfl
  have hgap_pos := Nat.mul_pos hpos hup
  have hden : (Interval.ofBinary m e).den = (Binary64.powerOfTwo (e - 2)).2 := rfl
  omega

/-- The interval of a whole number up to `2 ^ 53` **is around it**. -/
theorem isAround_ofBinary (h : Binary64.Fits m e) (hm : 0 < m) (hn : n ≤ 2 ^ 53)
    (hvalue : (n : ℚ) = m * 2 ^ e) : (Interval.ofBinary m e).IsAround n := by
  obtain ⟨hup, hdown⟩ := Binary64.powerOfTwo_pos (e - 2)
  have hcases := exponent_cases h hn hvalue
  have hnumber := value_ofBinary hvalue
  have hhigh := high_ofBinary m e
  have hden : (Interval.ofBinary m e).den = (Binary64.powerOfTwo (e - 2)).2 := rfl
  obtain ⟨hlow, hbelow⟩ := low_ofBinary hm (hcases.imp id fun ⟨he, hm, _⟩ => ⟨he, hm⟩)
  refine ⟨hdown, hnumber, Interval.contains_of_lt (hnumber ▸ hlow) (by omega), fun a hten ha => ?_⟩
  obtain ⟨hfrom, hto⟩ := Interval.le_of_contains ha
  have hge : n < a + 1 := by
    refine Nat.lt_of_mul_lt_mul_right (a := (Interval.ofBinary m e).den) ?_
    rw [Nat.succ_mul, ← hnumber]
    omega
  rcases hcases with he | ⟨rfl, -, rfl⟩
  · have hfour := four_mul_quarter_le he
    have hle : a < n + 1 := by
      refine Nat.lt_of_mul_lt_mul_right (a := (Interval.ofBinary m e).den) ?_
      rw [Nat.succ_mul, ← hnumber]
      omega
    exact Nat.le_antisymm (Nat.lt_succ_iff.1 hle) (Nat.lt_succ_iff.1 hge)
  · -- the number in the middle between the last two is no multiple of ten
    have hle : a ≤ 2 ^ 53 + 1 := by
      refine Nat.le_of_mul_le_mul_right ?_ hdown
      rw [← hden, Nat.add_mul, ← hnumber, Nat.one_mul]
      exact hto.trans_eq hhigh
    omega

/-! ### Grids -/

/-- A grid of a power of ten is met **in the whole number**, or not at all. -/
theorem onGrid?_eq (h : i.IsAround n) (tie : TieRule) (k : Nat) :
    onGrid? tie i k = if 10 ^ k ∣ n then some (n / 10 ^ k) else none := by
  have hstep : Nat.pow 10 (k : Int).toNat = 10 ^ k := rfl
  have hscale : Nat.pow 10 (-(k : Int)).toNat = 1 := by rw [show (-(k : Int)).toNat = 0 by omega]
  have hlower : i.value * 1 / (i.den * 10 ^ k) = n / 10 ^ k := by
    rw [Nat.mul_one, h.value_eq, Nat.mul_comm, Nat.mul_div_mul_left _ _ h.den_pos]
  have hrest : i.value * 1 % (i.den * 10 ^ k) = i.den * (n % 10 ^ k) := by
    rw [Nat.mul_one, h.value_eq, Nat.mul_comm, Nat.mul_mod_mul_left]
  unfold onGrid?
  dsimp only
  rw [hstep, hscale, hlower, hrest]
  by_cases hdvd : 10 ^ k ∣ n
  · -- nothing is left over, so that of both neighbours the lower one is the nearer
    have hnone : 2 * (i.den * (n % 10 ^ k)) < i.den * 10 ^ k := by
      rw [Nat.mod_eq_zero_of_dvd hdvd, Nat.mul_zero, Nat.mul_zero]
      exact Nat.mul_pos h.den_pos (Nat.pow_pos (by decide))
    rw [if_pos hdvd, Nat.div_mul_cancel hdvd, decide_eq_true h.contains]
    cases decide (i.Contains ((n / 10 ^ k + 1) * 10 ^ k) 1) with
    | false => rfl
    | true => exact if_pos hnone
  · -- a multiple of ten that the interval holds is the number itself
    have hten : 10 ∣ 10 ^ k := by
      refine dvd_pow_self 10 ?_
      rintro rfl
      exact hdvd (Nat.one_dvd n)
    have hmissed (a : Nat) : ¬ i.Contains (a * 10 ^ k) 1 := fun ha =>
      hdvd (h.unique _ (Dvd.dvd.mul_left hten a) ha ▸ Nat.dvd_mul_left _ a)
    rw [if_neg hdvd, decide_eq_false (hmissed _), decide_eq_false (hmissed _)]

/-- The grids are searched down to the units, so that a decimal **is found, and it is the whole number**. -/
theorem exists_search (h : i.IsAround n) (tie : TieRule) {steps k : Nat} (hk : k < steps) :
    ∃ places : Nat, 10 ^ places ∣ n ∧ search tie i steps k = some ⟨n / 10 ^ places, places⟩ := by
  -- every number is on the grid of the units, which the search reaches
  induction steps generalizing k with
  | zero => exact absurd hk (Nat.not_lt_zero k)
  | succ steps ih =>
    by_cases hdvd : 10 ^ k ∣ n
    · refine ⟨k, hdvd, ?_⟩
      rw [search, onGrid?_eq h, if_pos hdvd]
    · cases k with
      | zero => exact absurd (Nat.one_dvd n) hdvd
      | succ k =>
        obtain ⟨places, hplaces, hsearch⟩ := ih (Nat.lt_of_succ_lt_succ hk)
        refine ⟨places, hplaces, ?_⟩
        rw [search, onGrid?_eq h, if_neg hdvd]
        dsimp only
        rw [show ((k + 1 : ℕ) : Int) - 1 = k by omega, hsearch]

/-- The search begins **at a grid of at most nineteen zeros**, and not below the units. -/
theorem exists_startExponent {num den : Nat} (hnum : 0 < num) (hden : 0 < den) (hlow : (1 : ℚ) ≤ num / den)
    (hhigh : (num : ℚ) / den ≤ 2 ^ (53 : Int)) : ∃ k : Nat, startExponent num den = k ∧ k < 20 := by
  obtain ⟨hle, hlt⟩ := Binary64.floorLog2_spec hnum hden
  have hfrom : (0 : Int) < Binary64.floorLog2 num den + 1 := by
    refine Binary64.two_zpow_lt_iff.1 ?_
    rw [zpow_zero]
    exact hlow.trans_lt hlt
  have hto : Binary64.floorLog2 num den ≤ 53 := Binary64.two_zpow_le_iff.1 (hle.trans hhigh)
  refine ⟨(startExponent num den).toNat, ?_, ?_⟩
  · rw [startExponent]
    omega
  · rw [startExponent]
    omega

end Shortest

/-! ### Texts -/

variable {n m : Nat} {e i : Int} {x : Binary64} { negative : Bool}

/-- A decimal without places **is written as its digits** and zeros behind them. -/
theorem Decimal.isPlainDigits_positional {places : Nat} (hpos : 0 < n) (h : 10 ^ places ∣ n) :
    IsPlainDigits n (Decimal.positional ⟨n / 10 ^ places, places⟩) := by
  have hplain := (isPlainDigits_ofNat (n / 10 ^ places)).append_zeros
    (Nat.div_pos (Nat.le_of_dvd hpos h) (Nat.pow_pos (by decide))) places
  rw [Nat.div_mul_cancel h] at hplain
  unfold Decimal.positional
  dsimp only
  rw [if_pos (Int.natCast_nonneg places)]
  exact hplain

/-- A positive number **has a significand that is not zero**. -/
theorem significand_pos (hpos : 0 < n) (hvalue : (n : ℚ) = m * 2 ^ e) : 0 < m := by
  refine Nat.pos_of_ne_zero ?_
  rintro rfl
  rw [Nat.cast_zero, zero_mul, Nat.cast_eq_zero] at hvalue
  exact hpos.ne' hvalue

/-- The shortest decimal of a whole number up to `2 ^ 53` **is written as its digits**. -/
theorem isPlainDigits_shortestDecimal (tie : TieRule) (h : Binary64.Fits m e) (hpos : 0 < n) (hn : n ≤ 2 ^ 53)
    (hvalue : (n : ℚ) = m * 2 ^ e) : IsPlainDigits n (shortestDecimal tie m e).positional := by
  have hm := significand_pos hpos hvalue
  obtain ⟨hup, hdown⟩ := Binary64.powerOfTwo_pos e
  have hquotient : ((m * (Binary64.powerOfTwo e).1 : ℕ) : ℚ) / (Binary64.powerOfTwo e).2 = n := by
    rw [Nat.cast_mul, Binary64.powerOfTwo_eq, hvalue]
    field_simp
  obtain ⟨k, hstart, hk⟩ := Shortest.exists_startExponent (Nat.mul_pos hm hup) hdown
    (by rw [hquotient]; exact_mod_cast hpos) (by rw [hquotient]; exact_mod_cast hn)
  obtain ⟨places, hplaces, hsearch⟩ := Shortest.exists_search (Shortest.isAround_ofBinary h hm hn hvalue) tie hk
  unfold shortestDecimal Binary64.magnitude
  dsimp only
  rw [hstart, hsearch]
  exact Decimal.isPlainDigits_positional hpos hplaces

namespace Binary64

/-- A number that is whole **has the magnitude and the sign** of its integer. -/
theorem of_toRat?_finite (h : (finite negative m e).toRat? = some (i : ℚ)) :
    (i.natAbs : ℚ) = m * 2 ^ e ∧ i = if negative then -(i.natAbs : Int) else i.natAbs := by
  have hnonneg : (0 : ℚ) ≤ m * 2 ^ e := by positivity
  have hvalue : (if negative then -1 else 1) * ((m : ℚ) * 2 ^ e) = i := Option.some.inj h
  cases negative with
  | false =>
    rw [if_neg (by decide), one_mul] at hvalue
    rw [hvalue] at hnonneg ⊢
    have hi : (0 : Int) ≤ i := by exact_mod_cast hnonneg
    have habs : (i.natAbs : Int) = i := Int.natAbs_of_nonneg hi
    refine ⟨?_, habs.symm⟩
    rw [← Int.cast_natCast, habs]
  | true =>
    rw [if_pos rfl, neg_one_mul] at hvalue
    have hi : i ≤ 0 := by
      have : (i : ℚ) ≤ 0 := by
        rw [← hvalue]
        exact neg_nonpos.2 hnonneg
      exact_mod_cast this
    have habs : (i.natAbs : Int) = -i := Int.ofNat_natAbs_of_nonpos hi
    refine ⟨?_, ?_⟩
    · rw [← Int.cast_natCast, habs, Int.cast_neg, ← hvalue, neg_neg]
    · rw [if_pos rfl, habs, neg_neg]

/-- The integer of a number **is what it stands for**. -/
theorem toInt?_of_toRat? (h : x.toRat? = some (i : ℚ)) : x.toInt? = some i := by
  cases x with
  | nan => cases h
  | infinite => cases h
  | finite negative m e =>
    obtain ⟨hvalue, hsign⟩ := of_toRat?_finite h
    have hdown := (powerOfTwo_pos e).2
    -- without fractions: the value times the denominator is the numerator
    have hnum : m * (powerOfTwo e).1 = i.natAbs * (powerOfTwo e).2 := by
      have hrat : (m * (powerOfTwo e).1 : ℚ) = i.natAbs * (powerOfTwo e).2 := by
        rw [hvalue, powerOfTwo_eq]
        ring
      exact_mod_cast hrat
    unfold toInt? magnitude
    dsimp only
    rw [hnum, Nat.mul_mod_left, if_pos rfl, Nat.mul_div_cancel _ hdown]
    exact congrArg some hsign.symm

/-- A whole number up to `2 ^ 53` is written **as its plain numeral** by its shortest decimal. -/
theorem isPlainNumeral_toText (hx : x.IsCanonical) (hvalue : x.toRat? = some (i : ℚ)) (hne : i ≠ 0)
    (hi : i.natAbs ≤ 2 ^ 53) : IsPlainNumeral i x.toText := by
  cases x with
  | nan => cases hvalue
  | infinite => cases hvalue
  | finite negative m e =>
    obtain ⟨hmagnitude, hsign⟩ := of_toRat?_finite hvalue
    have hpos : 0 < i.natAbs := Int.natAbs_pos.2 hne
    have hm := significand_pos hpos hmagnitude
    have hdigits := isPlainDigits_shortestDecimal .up hx hpos hi hmagnitude
    unfold toText
    dsimp only
    rw [if_neg hm.ne']
    -- the digits are those of the magnitude, and the sign is written before them
    cases negative with
    | false =>
      rw [if_neg (by decide)] at hsign
      rw [hsign]
      exact .natural hdigits
    | true =>
      rw [if_pos rfl] at hsign
      rw [hsign]
      exact .negative hpos hdigits

/-- A whole number up to `2 ^ 53` is written **as its plain numeral**. -/
theorem isPlainNumeral_formatted (hx : x.IsCanonical) (hvalue : x.toRat? = some (i : ℚ))
    (hi : i.natAbs ≤ 2 ^ 53) : IsPlainNumeral i x.formatted := by
  unfold formatted
  rw [toInt?_of_toRat? hvalue]
  dsimp only
  split
  case isTrue => exact isPlainNumeral_ofInt i
  case isFalse hlarge =>
    refine isPlainNumeral_toText hx hvalue ?_ hi
    rintro rfl
    exact hlarge (by decide)

end Binary64

/-! ### Numbers of JSON -/

/-- An integer of JSON up to `2 ^ 53` **is kept exactly**. -/
theorem JsonNumber.toBinary64_integer (hi : i.natAbs ≤ 2 ^ 53) :
    (integer i).toBinary64.IsCanonical ∧ (integer i).toBinary64.toRat? = some (i : ℚ) := by
  unfold toBinary64
  dsimp only
  split
  case isTrue hneg =>
    have habs : (i.natAbs : Int) = -i := Int.ofNat_natAbs_of_nonpos hneg.le
    refine ⟨(Binary64.ofNat_isCanonical _).neg, ?_⟩
    rw [Binary64.toRat?_neg, Binary64.toRat?_ofNat hi, Option.map_some]
    rw [← Int.cast_natCast, habs, Int.cast_neg, neg_neg]
  case isFalse hnonneg =>
    obtain ⟨n, rfl⟩ := Int.eq_ofNat_of_zero_le (Int.not_lt.1 hnonneg)
    exact ⟨Binary64.ofNat_isCanonical _, Binary64.toRat?_ofNat hi⟩

/-- A number that is read from JSON **keeps its value in a field** if it is whole and up to `2 ^ 53`. -/
theorem JsonNumber.toBinary64_of_ofText? {number : JsonNumber} {t : Text}
    (ht : Json.ofText? t = some (.number number)) (hvalue : number.toRat? = some (i : ℚ))
    (hi : i.natAbs ≤ 2 ^ 53) :
    number.toBinary64.IsCanonical ∧ number.toBinary64.toRat? = some (i : ℚ) := by
  cases number with
  | integer k =>
    obtain rfl : k = i := by exact_mod_cast Option.some.inj hvalue
    exact toBinary64_integer hi
  | float x => exact ⟨Json.isCanonical_of_ofText? ht, hvalue⟩

/-- **Whole numbers are written plainly.** An integer up to `2 ^ 53` in magnitude that stands as a plain numeral
in JSON is read, and the field is written as the numeral; a number of JSON that is written in another way, and
read as a whole number up to `2 ^ 53`, is written as the plain numeral of that. So is each floating point
number of that value, on whichever side of `10 ^ 15` it lies, and two of different values are written
differently. -/
theorem whole_numbers_print_plainly (hi : i.natAbs ≤ 2 ^ 53) :
    (∀ before t after, IsPlainNumeral i t → (∀ c ∈ before, JsonNode.isGap c = true) →
      (∀ c ∈ after, JsonNode.isGap c = true) →
        ∃ value, Json.ofText? (before ++ t ++ after) = some value ∧ (FieldValue.ofJson value).toText = t) ∧
    (∀ t number, Json.ofText? t = some (.number number) → number.toRat? = some (i : ℚ) →
      IsPlainNumeral i (FieldValue.ofJson (.number number)).toText) ∧
    (∀ x : Binary64, x.IsCanonical → x.toRat? = some (i : ℚ) →
      IsPlainNumeral i x.formatted ∧
      ∀ (y : Binary64) (j : Int), y.IsCanonical → y.toRat? = some (j : ℚ) → j.natAbs ≤ 2 ^ 53 → j ≠ i →
        y.formatted ≠ x.formatted) := by
  refine ⟨fun before t after ht hbefore hafter => ?_, fun t number ht hvalue => ?_, fun x hx hvalue => ?_⟩
  · obtain ⟨hcanonical, hvalue⟩ := JsonNumber.toBinary64_integer hi
    have hplain := Binary64.isPlainNumeral_formatted hcanonical hvalue hi
    refine ⟨_, Json.ofText?_plainNumeral ht (hi.trans (by decide)) hbefore hafter, ?_⟩
    exact (isPlainNumeral_iff.1 hplain).trans (isPlainNumeral_iff.1 ht).symm
  · obtain ⟨hcanonical, hvalue⟩ := JsonNumber.toBinary64_of_ofText? ht hvalue hi
    exact Binary64.isPlainNumeral_formatted hcanonical hvalue hi
  · have hplain := Binary64.isPlainNumeral_formatted hx hvalue hi
    refine ⟨hplain, fun y j hy hyvalue hj hne hsame => hne ?_⟩
    have hplain' := Binary64.isPlainNumeral_formatted hy hyvalue hj
    rw [hsame] at hplain'
    exact hplain'.unique hplain

/-- The least of these integers among blanks and with an exponent, beside its neighbour. -/
theorem whole_numbers_print_plainly_at_bound :
    (-9007199254740992 : Int).natAbs ≤ 2 ^ 53 ∧
    (∃ value, Json.ofText? ("\n" ++ "-9007199254740992" ++ " ") = some value ∧
      (FieldValue.ofJson value).toText = "-9007199254740992") ∧
    (Json.ofText? "-9007199254740.992e3" = some (.number (.float (.finite true 4503599627370496 1))) ∧
      IsPlainNumeral (-9007199254740992)
        (FieldValue.ofJson (.number (.float (.finite true 4503599627370496 1)))).toText) ∧
    (Binary64.finite true 9007199254740991 0).formatted ≠
      (Binary64.finite true 4503599627370496 1).formatted := by
  obtain ⟨hread, hnumber, hformatted⟩ := whole_numbers_print_plainly (i := -9007199254740992) (by decide)
  have hexponent : Json.ofText? "-9007199254740.992e3" =
      some (.number (.float (.finite true 4503599627370496 1))) := by
    have hnode : JsonNode.ofText? "-9007199254740.992e3" =
        some (.number ⟨true, "9007199254740", some "992", some (false, "3")⟩) := rfl
    have hvalue : JsonNumeral.value? ⟨true, "9007199254740", some "992", some (false, "3")⟩ =
        some (.float (.finite true 4503599627370496 1)) := by decide +kernel
    rw [Json.ofText?, hnode, Option.bind_eq_bind, Option.bind_some, JsonNode.value?, hvalue, Option.map_some]
  have hbound : (Binary64.finite true 4503599627370496 1).toRat? = some ((-9007199254740992 : Int) : ℚ) := by
    norm_num [Binary64.toRat?]
  have hneighbour : (Binary64.finite true 9007199254740991 0).toRat? = some ((-9007199254740991 : Int) : ℚ) := by
    norm_num [Binary64.toRat?]
  refine ⟨by decide, hread _ _ _ (isPlainNumeral_iff.2 (by decide)) (by decide) (by decide),
    ⟨hexponent, hnumber _ _ hexponent hbound⟩,
    (hformatted _ ?_ hbound).2 _ _ ?_ hneighbour (by decide) (by decide)⟩
  · exact ⟨by decide, by decide, by decide, .inl (by decide)⟩
  · exact ⟨by decide, by decide, by decide, .inl (by decide)⟩

end MailMerge
