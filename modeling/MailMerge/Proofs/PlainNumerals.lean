import MailMerge.Json.Reader
import MailMerge.Proofs.Digits
import MailMerge.Proofs.WrittenGate

/-!
# Plain numerals

An integer is written in one way without a point and an exponent: as the digits that spell it, the first of
which is no zero unless it is the only one, behind a minus sign if the integer is negative. What is said here
of a text does not mention how it is written, so that it can be said of each text that stands for an integer.

* `IsPlainDigits` and `IsPlainNumeral` say that a text is the plain numeral of a natural number, and of an
  integer;
* `isPlainNumeral_iff` — the text of an integer is its one plain numeral;
* `IsPlainNumeral.unique` — a plain numeral stands for one integer;
* `IsPlainDigits.append_zeros` — zeros behind the digits multiply by a power of ten;
* `Json.ofText?_plainNumeral` — a plain numeral is read from JSON as its integer.
-/

namespace MailMerge

/-! ### The specification -/

/-- The **plain digits** of a natural number: decimal digits that spell it, of which the first is no zero if
there are others. -/
structure IsPlainDigits (n : Nat) (t : Text) : Prop where
  ne_nil : t ≠ []
  digits : ∀ c ∈ t, c.isDigit = true
  head : t.head? = some '0' → t = ['0']
  value : Text.digitsValue t = n

/-- The **plain numeral** of an integer: its digits, behind a minus sign if it is negative. -/
inductive IsPlainNumeral : Int → Text → Prop
  | natural {n : Nat} {t : Text} (h : IsPlainDigits n t) : IsPlainNumeral n t
  | negative {n : Nat} {t : Text} (hpos : 0 < n) (h : IsPlainDigits n t) : IsPlainNumeral (-n) ('-' :: t)

variable {n : Nat} {i j : Int} {t u : Text}

/-! ### Digits -/

theorem isPlainDigits_ofNat (n : Nat) : IsPlainDigits n (Text.ofNat n) where
  ne_nil := Text.ofNat_ne_nil n
  digits _ := Text.isDigit_of_mem_ofNat
  head := by
    intro hzero
    rcases Nat.eq_zero_or_pos n with rfl | hpos
    · rfl
    · exact absurd hzero (Text.head?_ofNat_ne hpos)
  value := Text.digitsValue_ofNat n

theorem digitChar_of_isDigit {c : Char} (h : c.isDigit = true) :
    c.toNat - '0'.toNat < 10 ∧ Nat.digitChar (c.toNat - '0'.toNat) = c := by
  rw [Char.isDigit, Bool.and_eq_true, decide_eq_true_eq, decide_eq_true_eq] at h
  have hlow : 48 ≤ c.toNat := h.1
  have hhigh : c.toNat ≤ 57 := h.2
  have hzero : '0'.toNat = 48 := rfl
  have hlt : c.toNat - '0'.toNat < 10 := by omega
  refine ⟨hlt, Char.toNat_inj.1 ?_⟩
  rw [Nat.toNat_digitChar_of_lt_ten hlt]
  omega

/-- Digits **go on** as the digits of what they spell together. -/
theorem toDigits_append_digits {m : Nat} (hm : 0 < m) (hu : ∀ c ∈ u, c.isDigit = true) :
    Nat.toDigits 10 m ++ u = Nat.toDigits 10 (Nat.ofDigitChars 10 u m) := by
  induction u generalizing m with
  | nil => rw [List.append_nil, Nat.ofDigitChars_nil]
  | cons c u ih =>
    obtain ⟨hc, hu⟩ := List.forall_mem_cons.1 hu
    obtain ⟨hlt, hchar⟩ := digitChar_of_isDigit hc
    calc Nat.toDigits 10 m ++ c :: u
      _ = Nat.toDigits 10 m ++ Nat.toDigits 10 (c.toNat - '0'.toNat) ++ u := by
        rw [Nat.toDigits_of_lt_base hlt, hchar, List.append_assoc, List.singleton_append]
      _ = Nat.toDigits 10 (10 * m + (c.toNat - '0'.toNat)) ++ u := by
        rw [Nat.toDigits_append_toDigits (by decide) hm hlt]
      _ = Nat.toDigits 10 (Nat.ofDigitChars 10 (c :: u) m) := by
        rw [ih (by omega) hu, Nat.ofDigitChars_cons]

/-- The plain digits of a number **are the ones it is written with**. -/
theorem IsPlainDigits.eq_ofNat (h : IsPlainDigits n t) : t = Text.ofNat n := by
  obtain ⟨c, u, rfl⟩ := List.exists_cons_of_ne_nil h.ne_nil
  obtain ⟨hc, hu⟩ := List.forall_mem_cons.1 h.digits
  obtain ⟨hlt, hchar⟩ := digitChar_of_isDigit hc
  rcases Nat.eq_zero_or_pos (c.toNat - '0'.toNat) with hzero | hpos
  · -- a zero stands alone
    rw [hzero] at hchar
    have halone := h.head (congrArg some hchar.symm)
    rw [← h.value, halone]
    rfl
  · have hvalue : Nat.ofDigitChars 10 u (c.toNat - '0'.toNat) = n := by
      rw [← h.value, Text.digitsValue, List.foldl_cons, Nat.mul_zero, Nat.zero_add]
      rfl
    calc c :: u
      _ = Nat.toDigits 10 (c.toNat - '0'.toNat) ++ u := by
        rw [Nat.toDigits_of_lt_base hlt, hchar, List.singleton_append]
      _ = Nat.toDigits 10 (Nat.ofDigitChars 10 u (c.toNat - '0'.toNat)) := toDigits_append_digits hpos hu
      _ = Text.ofNat n := by rw [hvalue, Text.ofNat]

/-- Zeros behind the digits **multiply by a power of ten**. -/
theorem IsPlainDigits.append_zeros (h : IsPlainDigits n t) (hpos : 0 < n) (k : Nat) :
    IsPlainDigits (n * 10 ^ k) (t ++ List.replicate k '0') where
  ne_nil := List.append_ne_nil_of_left_ne_nil h.ne_nil _
  digits := by
    refine List.forall_mem_append.2 ⟨h.digits, fun c hc => ?_⟩
    rw [List.eq_of_mem_replicate hc]
    rfl
  head := by
    intro hzero
    rw [List.head?_append_of_ne_nil _ h.ne_nil] at hzero
    -- the digits would be those of zero
    have hvalue := h.value
    rw [h.head hzero] at hvalue
    exact absurd hvalue (Nat.ne_of_lt hpos)
  value := by
    show Nat.ofDigitChars 10 (t ++ List.replicate k '0') 0 = n * 10 ^ k
    have hvalue : Nat.ofDigitChars 10 t 0 = n := h.value
    rw [Nat.ofDigitChars_append, hvalue, Nat.ofDigitChars_replicate_zero, Nat.mul_comm]

/-! ### Integers -/

theorem isPlainNumeral_ofInt (i : Int) : IsPlainNumeral i (Text.ofInt i) := by
  cases i with
  | ofNat n => exact .natural (isPlainDigits_ofNat n)
  | negSucc n => exact .negative n.succ_pos (isPlainDigits_ofNat (n + 1))

/-- The text of an integer **is its plain numeral**, and there is no other. -/
theorem isPlainNumeral_iff : IsPlainNumeral i t ↔ t = Text.ofInt i := by
  constructor
  · rintro (h | ⟨hpos, h⟩)
    case natural n => exact h.eq_ofNat
    case negative n u =>
      obtain ⟨k, rfl⟩ := Nat.exists_eq_succ_of_ne_zero (Nat.ne_of_gt hpos)
      rw [h.eq_ofNat]
      rfl
  · rintro rfl
    exact isPlainNumeral_ofInt i

/-- A plain numeral **stands for one integer**. -/
theorem IsPlainNumeral.unique (hi : IsPlainNumeral i t) (hj : IsPlainNumeral j t) : i = j := by
  have hsign {n : Nat} {u : Text} : ¬ IsPlainDigits n ('-' :: u) := fun h =>
    absurd (h.digits '-' (List.mem_cons_self ..)) (by decide)
  cases hi with
  | natural hi =>
    cases hj with
    | natural hj => rw [← hi.value, ← hj.value]
    | negative _ _ => exact absurd hi hsign
  | negative _ hi =>
    cases hj with
    | natural hj => exact absurd hj hsign
    | negative _ hj => rw [← hi.value, ← hj.value]

/-! ### Reading -/

namespace JsonNode

/-- A numeral behind a minus sign **is read without it**, and takes the sign. -/
theorem numeral?_minus (ht : t.head? ≠ some '-') :
    numeral? ('-' :: t) = (numeral? t).map fun p => ({ p.1 with negative := true }, p.2) := by
  rw [numeral?, numeral?]
  · split
    case h_1 hminus =>
      cases hminus
      -- the digits are the same with and without the sign, and so is what follows them
      split
      case isTrue => rfl
      case isFalse =>
        cases fraction? (t.dropWhile Char.isDigit) with
        | none => rfl
        | some p =>
          obtain ⟨fraction, rest⟩ := p
          simp only [Option.bind_eq_bind, Option.bind_some]
          cases exponent? rest with
          | none => rfl
          | some p => rfl
  · rintro r rfl
    exact ht rfl

/-- The numeral of the digits of a number behind a minus sign. -/
def negativeNumeralOf (n : Nat) : JsonNumeral := { numeralOf n with negative := true }

variable {gap : Text} {steps : Nat}

/-- **Written digits behind a minus sign** are read after blanks. -/
theorem read?_minus (hgap : ∀ c ∈ gap, isGap c = true) (n : Nat) (ht : EndsNumeral t) :
    read? (steps + 1) (gap ++ '-' :: (Text.ofNat n ++ t)) = some (.number (negativeNumeralOf n), t) := by
  have hhead : (Text.ofNat n ++ t).head? ≠ some '-' := by
    rw [List.head?_append_of_ne_nil _ (Text.ofNat_ne_nil n)]
    intro hminus
    exact absurd (Text.isDigit_of_mem_ofNat (List.mem_of_head? hminus)) (by decide)
  rw [read?, skipGaps_append hgap, skipGaps_cons rfl]
  show (numeral? ('-' :: (Text.ofNat n ++ t))).map (fun p => (number p.1, p.2)) = _
  rw [numeral?_minus hhead, numeral?_ofNat n ht]
  rfl

end JsonNode

/-- The numeral of a number behind a minus sign **means its negative**, if that has 64 bits. -/
theorem JsonNumeral.value?_negativeNumeralOf (hpos : 0 < n) (hn : n ≤ 2 ^ 63) :
    (JsonNode.negativeNumeralOf n).value? = some (.integer (-n)) := by
  have hvalue : Nat.ofDigitChars 10 (Text.ofNat n) 0 = n := Nat.ofDigitChars_ten_toDigits
  have habsorb : absorb 0 (Text.ofNat n) = (n, (Text.ofNat n).length) := by
    have hfits : Nat.ofDigitChars 10 (Text.ofNat n) 0 < UInt64.size := by
      rw [hvalue]
      exact Nat.lt_of_le_of_lt hn (by decide)
    rw [absorb_eq hfits, hvalue]
  unfold value? JsonNode.negativeNumeralOf JsonNode.numeralOf
  dsimp only
  rw [habsorb]
  dsimp only
  rw [if_pos ⟨Int.sub_self _, .inr ⟨Nat.ne_of_gt hpos, hn⟩⟩]
  rfl

/-- A plain numeral of 63 bits **is read as its integer**, among blanks. -/
theorem Json.ofText?_plainNumeral {before after : Text} (h : IsPlainNumeral i t) (hi : i.natAbs ≤ 2 ^ 63)
    (hbefore : ∀ c ∈ before, JsonNode.isGap c = true) (hafter : ∀ c ∈ after, JsonNode.isGap c = true) :
    Json.ofText? (before ++ t ++ after) = some (.number (.integer i)) := by
  have hends : JsonNode.EndsNumeral after := by
    intro c hc
    have hgap := hafter c (List.mem_of_mem_head? hc)
    simp only [JsonNode.isGap, Bool.or_eq_true, beq_iff_eq] at hgap
    rcases hgap with ((rfl | rfl) | rfl) | rfl <;> decide
  have hrest : JsonNode.skipGaps after = [] := by
    have := JsonNode.skipGaps_append hafter []
    rwa [List.append_nil] at this
  have hread {numeral : JsonNumeral} {steps : Nat}
      (hnumeral : JsonNode.read? (steps + 1) (before ++ t ++ after) = some (.number numeral, after))
      (hsteps : 2 * (before ++ t ++ after).length + 2 = steps + 1)
      (hvalue : numeral.value? = some (.integer i)) :
      Json.ofText? (before ++ t ++ after) = some (.number (.integer i)) := by
    rw [Json.ofText?, JsonNode.ofText?, hsteps, hnumeral]
    dsimp only
    rw [hrest, List.isEmpty_nil, if_pos rfl, Option.bind_eq_bind, Option.bind_some]
    show numeral.value?.map Json.number = _
    rw [hvalue]
    rfl
  cases h with
  | natural h =>
    refine hread ?_ rfl (JsonNumeral.value?_numeralOf (Nat.lt_of_le_of_lt hi (by decide)))
    rw [h.eq_ofNat, List.append_assoc]
    exact JsonNode.read?_ofNat hbefore _ hends
  | negative hpos h =>
    rw [Int.natAbs_neg, Int.natAbs_natCast] at hi
    refine hread ?_ rfl (JsonNumeral.value?_negativeNumeralOf hpos hi)
    rw [h.eq_ofNat, List.append_assoc]
    exact JsonNode.read?_minus hbefore _ hends

end MailMerge
