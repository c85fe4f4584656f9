import MailMerge.Access.State
import MailMerge.Proofs.WrittenInstants

/-!
# The written gate is read back

The state of the gate is written as a JSON object of one or two members. Neither of them needs escapes:
the attempts are digits, and the end of the lock is written with digits and a few marks. Hence the
grammar finds the members again, and their values are those that were written.

* `IsPlain` says of a character that it stands for itself in a string;
* `JsonNode.numeral?_ofNat` and `JsonNumeral.value?_numeralOf` — written attempts are read back;
* `JsonNode.readMembers?_last` and `JsonNode.readMembers?_cons` — members are recognised one by one;
* `AccessGate.ofText?_toText` — a written gate is read back.
-/

namespace MailMerge

/-! ### Strings without escapes -/

/-- Whether a character **stands for itself** in a string of JSON. -/
def IsPlain (c : Char) : Prop := c ≠ '"' ∧ c ≠ '\\' ∧ 32 ≤ c.toNat

instance (c : Char) : Decidable (IsPlain c) := by unfold IsPlain; infer_instance

/-- Whether a text is made of characters that stand for themselves. -/
def AllPlain (u : Text) : Prop := ∀ c ∈ u, IsPlain c

instance (u : Text) : Decidable (AllPlain u) := List.decidableBAll IsPlain u

variable {u t : Text}

theorem AllPlain.append (hu : AllPlain u) (ht : AllPlain t) : AllPlain (u ++ t) :=
  List.forall_mem_append.2 ⟨hu, ht⟩

theorem AllPlain.cons {c : Char} (hc : IsPlain c) (ht : AllPlain t) : AllPlain (c :: t) :=
  List.forall_mem_cons.2 ⟨hc, ht⟩

theorem isPlain_of_isDigit {c : Char} (h : c.isDigit = true) : IsPlain c := by
  rw [Char.isDigit, Bool.and_eq_true, decide_eq_true_eq, decide_eq_true_eq] at h
  have hlow : 48 ≤ c.toNat := h.1
  have hhigh : c.toNat ≤ 57 := h.2
  refine ⟨?_, ?_, by omega⟩
  · rintro rfl
    exact absurd hlow (by decide)
  · rintro rfl
    exact absurd hhigh (by decide)

theorem Json.flatMap_escapeChar (h : AllPlain u) : u.flatMap Json.escapeChar = u := by
  induction u with
  | nil => rfl
  | cons c u ih =>
    obtain ⟨⟨hquote, hslash, hprintable⟩, hu⟩ := List.forall_mem_cons.1 h
    have hcontrol : ∀ a : Char, a.toNat < 32 → c ≠ a := by
      rintro a ha rfl
      omega
    have hc : Json.escapeChar c = [c] := by
      rw [Json.escapeChar, if_neg hquote, if_neg hslash, if_neg (hcontrol _ (by decide)),
        if_neg (hcontrol _ (by decide)), if_neg (hcontrol _ (by decide)),
        if_neg (hcontrol _ (by decide)), if_neg (hcontrol _ (by decide)), if_neg (by omega)]
    rw [List.flatMap_cons, hc, ih hu, List.singleton_append]

/-- A text of plain characters stands **as it is** between its quotes. -/
theorem Json.quoted_of_plain (h : AllPlain u) : Json.quoted u = '"' :: u ++ ['"'] := by
  rw [Json.quoted, Json.flatMap_escapeChar h]
  rfl

namespace JsonNode

/-- The body of a string of plain characters ends **at the next quote**. -/
theorem stringBody?_append (h : AllPlain u) (t : Text) :
    stringBody? (u ++ '"' :: t) = some (u, t) := by
  induction u with
  | nil => rfl
  | cons c u ih =>
    obtain ⟨⟨hquote, hslash, hprintable⟩, hu⟩ := List.forall_mem_cons.1 h
    have hc : ¬ (c.toNat < 32 ∨ c = '\\') := by
      rintro (hlt | heq)
      · omega
      · exact hslash heq
    rw [List.cons_append, stringBody?, if_neg hc, ih hu]
    · rfl
    · exact hquote
    · rintro a b c d t rfl
      exact absurd rfl hslash
    · rintro e t rfl
      exact absurd rfl hslash

theorem unescape?_of_plain (h : AllPlain u) : unescape? u = some u := by
  induction u with
  | nil => rfl
  | cons c u ih =>
    obtain ⟨⟨-, hslash, -⟩, hu⟩ := List.forall_mem_cons.1 h
    rw [unescape?, ih hu]
    · rfl
    · rintro a b c d t rfl
      exact absurd rfl hslash
    · rintro e t rfl
      exact absurd rfl hslash

/-! ### Numbers -/

/-- The numeral of the digits of a number. -/
def numeralOf (n : Nat) : JsonNumeral := ⟨false, Text.ofNat n, none, none⟩

/-- Whether a text may follow a numeral of digits: it does not go on with it. -/
def EndsNumeral (t : Text) : Prop :=
  ∀ c ∈ t.head?, c.isDigit = false ∧ c ≠ '.' ∧ c ≠ 'e' ∧ c ≠ 'E'

theorem endsNumeral_cons {c : Char}
    (h : c.isDigit = false ∧ c ≠ '.' ∧ c ≠ 'e' ∧ c ≠ 'E') (t : Text) : EndsNumeral (c :: t) := by
  intro a ha
  cases ha
  exact h

theorem digitRun_append (hu : ∀ c ∈ u, c.isDigit = true) (ht : ∀ c ∈ t.head?, c.isDigit = false) :
    digitRun (u ++ t) = (u, t) := by
  have hnil : t.takeWhile Char.isDigit = [] ∧ t.dropWhile Char.isDigit = t := by
    cases t with
    | nil => exact ⟨rfl, rfl⟩
    | cons c t =>
      have hc : ¬ c.isDigit = true := by rw [ht c rfl]; decide
      exact ⟨List.takeWhile_cons_of_neg hc, List.dropWhile_cons_of_neg hc⟩
  rw [digitRun, List.takeWhile_append_of_pos hu, List.dropWhile_append_of_pos hu, hnil.1, hnil.2,
    List.append_nil]

/-- Written digits are **recognised as their numeral**. -/
theorem numeral?_ofNat (n : Nat) (ht : EndsNumeral t) :
    numeral? (Text.ofNat n ++ t) = some (numeralOf n, t) := by
  have hdigits : ∀ c ∈ Text.ofNat n, c.isDigit = true := fun c => Text.isDigit_of_mem_ofNat
  have hrun : digitRun (Text.ofNat n ++ t) = (Text.ofNat n, t) :=
    digitRun_append hdigits fun c hc => (ht c hc).1
  have hwhole : ((Text.ofNat n).isEmpty ||
      ((Text.ofNat n).head? == some '0' && (Text.ofNat n).length != 1)) = false := by
    rw [List.isEmpty_eq_false_iff.2 (Text.ofNat_ne_nil n), Bool.false_or, Bool.and_eq_false_iff]
    rcases Nat.eq_zero_or_pos n with rfl | hpos
    · exact .inr rfl
    · exact .inl (beq_false_of_ne (Text.head?_ofNat_ne hpos))
  have hfraction : fraction? t = some (none, t) := by
    unfold fraction?
    split
    case h_1 r => exact absurd rfl (ht '.' rfl).2.1
    case h_2 => rfl
  have hexponent : exponent? t = some (none, t) := by
    cases t with
    | nil => rfl
    | cons c t =>
      obtain ⟨-, -, hlow, hhigh⟩ := ht c rfl
      unfold exponent?
      exact if_neg (by rintro (h | h) <;> contradiction)
  unfold numeral?
  split
  case h_1 negative r hsign =>
    split at hsign
    case h_1 hminus =>
      -- the digits have no sign
      obtain ⟨c, u, hcons⟩ := List.exists_cons_of_ne_nil (Text.ofNat_ne_nil n)
      rw [hcons] at hminus hdigits
      have hc := hdigits c (List.mem_cons_self ..)
      rw [(List.cons.inj hminus).1] at hc
      cases hc
    case h_2 =>
      cases hsign
      simp only [hrun, hwhole, hfraction, hexponent, Option.bind_eq_bind, Option.bind_some]
      rfl

end JsonNode

/-- A significand **absorbs digits** as long as the number that they spell fits. -/
theorem JsonNumeral.absorb_eq {significand : Nat} (hu : Nat.ofDigitChars 10 u significand < UInt64.size) :
    absorb significand u = (Nat.ofDigitChars 10 u significand, u.length) := by
  induction u generalizing significand with
  | nil => rw [absorb, Nat.ofDigitChars_nil]; rfl
  | cons c u ih =>
    have hnext : 10 * significand + Text.digitsValue [c] =
        10 * significand + (c.toNat - '0'.toNat) := by
      simp [Text.digitsValue]
    rw [Nat.ofDigitChars_cons] at hu ⊢
    have hle : 10 * significand + (c.toNat - '0'.toNat) ≤
        Nat.ofDigitChars 10 u (10 * significand + (c.toNat - '0'.toNat)) := by
      rw [Nat.ofDigitChars_eq_ofDigitChars_zero]
      exact Nat.le_add_right_of_le (Nat.le_mul_of_pos_left _ (Nat.pow_pos (by decide)))
    rw [absorb]
    dsimp only
    rw [hnext, if_neg (by omega), ih hu]
    rfl

/-- The numeral of a number of less than 64 bits **means that number**. -/
theorem JsonNumeral.value?_numeralOf {n : Nat} (h : n < UInt64.size) :
    (JsonNode.numeralOf n).value? = some (.integer n) := by
  have hvalue : Nat.ofDigitChars 10 (Text.ofNat n) 0 = n := Nat.ofDigitChars_ten_toDigits
  have habsorb : absorb 0 (Text.ofNat n) = (n, (Text.ofNat n).length) := by
    have hfits : Nat.ofDigitChars 10 (Text.ofNat n) 0 < UInt64.size := by rwa [hvalue]
    rw [absorb_eq hfits, hvalue]
  unfold value? JsonNode.numeralOf
  dsimp only
  rw [habsorb]
  simp

namespace JsonNode

/-! ### Values and members -/

theorem skipGaps_append {gap : Text} (hgap : ∀ c ∈ gap, isGap c = true) (t : Text) :
    skipGaps (gap ++ t) = skipGaps t := List.dropWhile_append_of_pos hgap

theorem skipGaps_cons {c : Char} (h : isGap c = false) (t : Text) : skipGaps (c :: t) = c :: t :=
  List.dropWhile_cons_of_neg (by rw [h]; decide)

theorem isGap_of_isDigit {c : Char} (h : c.isDigit = true) : isGap c = false := by
  have hne : ∀ a : Char, a.isDigit = false → (c == a) = false := by
    intro a ha
    refine beq_false_of_ne ?_
    rintro rfl
    rw [h] at ha
    cases ha
  rw [isGap, hne ' ' rfl, hne '\n' rfl, hne '\t' rfl, hne '\r' rfl]
  rfl

variable {gap : Text} {steps : Nat}

/-- A **string** of plain characters is read after blanks. -/
theorem read?_string (hgap : ∀ c ∈ gap, isGap c = true) (hu : AllPlain u) :
    read? (steps + 1) (gap ++ '"' :: (u ++ '"' :: t)) = some (.string u, t) := by
  rw [read?, skipGaps_append hgap, skipGaps_cons rfl]
  show (stringBody? (u ++ '"' :: t)).map (fun p => (string p.1, p.2)) = _
  rw [stringBody?_append hu]
  rfl

/-- **Written digits** are read after blanks. -/
theorem read?_ofNat (hgap : ∀ c ∈ gap, isGap c = true) (n : Nat) (ht : EndsNumeral t) :
    read? (steps + 1) (gap ++ (Text.ofNat n ++ t)) = some (.number (numeralOf n), t) := by
  obtain ⟨d, v, hcons⟩ := List.exists_cons_of_ne_nil (Text.ofNat_ne_nil n)
  have hd : d.isDigit = true :=
    Text.isDigit_of_mem_ofNat (n := n) (by rw [hcons]; exact List.mem_cons_self ..)
  have hhead : skipGaps (gap ++ (Text.ofNat n ++ t)) = d :: (v ++ t) := by
    rw [skipGaps_append hgap, hcons, List.cons_append, skipGaps_cons (isGap_of_isDigit hd)]
  have hnumeral : numeral? (d :: (v ++ t)) = some (numeralOf n, t) := by
    rw [← List.cons_append, ← hcons, numeral?_ofNat n ht]
  rw [read?, hhead]
  -- a digit begins none of the other values
  have hne : ∀ {a : Char} {r : Text}, a.isDigit = false → d :: (v ++ t) ≠ a :: r := by
    rintro a r ha heq
    rw [(List.cons.inj heq).1] at hd
    rw [hd] at ha
    cases ha
  split
  case h_1 heq => exact absurd heq (hne rfl)
  case h_2 heq => exact absurd heq (hne rfl)
  case h_3 heq => exact absurd heq (hne rfl)
  case h_4 heq => exact absurd heq (hne rfl)
  case h_5 heq => exact absurd heq (hne rfl)
  case h_6 heq => exact absurd heq (hne rfl)
  case h_7 => rw [hnumeral]; rfl

variable {name r r' : Text} {value : JsonNode} {members : List (Text × JsonNode)}

/-- The **last member** of an object is read with the brace behind it. -/
theorem readMembers?_last (hgap : ∀ c ∈ gap, isGap c = true) (hname : AllPlain name)
    (hvalue : read? steps r = some (value, r')) (hend : skipGaps r' = '}' :: t) :
    readMembers? (steps + 1) (gap ++ '"' :: (name ++ '"' :: ':' :: r)) =
      some ([(name, value)], t) := by
  rw [readMembers?, skipGaps_append hgap, skipGaps_cons rfl]
  simp only [stringBody?_append hname, skipGaps_cons (c := ':') rfl, hvalue, hend]

/-- A member is read **before the others** of its object. -/
theorem readMembers?_cons {t' : Text} (hgap : ∀ c ∈ gap, isGap c = true)
    (hname : AllPlain name) (hvalue : read? steps r = some (value, r'))
    (hend : skipGaps r' = ',' :: t) (hmembers : readMembers? steps t = some (members, t')) :
    readMembers? (steps + 1) (gap ++ '"' :: (name ++ '"' :: ':' :: r)) =
      some ((name, value) :: members, t') := by
  rw [readMembers?, skipGaps_append hgap, skipGaps_cons rfl]
  simp only [stringBody?_append hname, skipGaps_cons (c := ':') rfl, hvalue, hend, hmembers]
  rfl

end JsonNode

/-! ### Written instants -/

theorem allPlain_padded (width n : Nat) : AllPlain (Text.padded width n) := fun _ hc =>
  isPlain_of_isDigit (Text.isDigit_of_mem_padded hc)

theorem allPlain_yearText (year : Int) : AllPlain (Date.yearText year) := by
  unfold Date.yearText
  split
  case isTrue => exact allPlain_padded _ _
  case isFalse =>
    refine .cons ?_ (allPlain_padded _ _)
    split <;> decide

theorem allPlain_fractionText (nanos : Nat) : AllPlain (Instant.fractionText nanos) := by
  unfold Instant.fractionText
  split
  case isTrue => exact fun _ hc => absurd hc List.not_mem_nil
  case isFalse =>
    split
    case isTrue => exact .cons (by decide) (allPlain_padded _ _)
    case isFalse =>
      split
      case isTrue => exact .cons (by decide) (allPlain_padded _ _)
      case isFalse => exact .cons (by decide) (allPlain_padded _ _)

theorem allPlain_dashed (d : Date) : AllPlain d.dashed := by
  unfold Date.dashed
  refine .append (.append (.append (.append (allPlain_yearText _) ?_) (allPlain_padded _ _)) ?_)
    (allPlain_padded _ _)
  · decide
  · decide

/-- A written instant of the calendar is **made of plain characters**. -/
theorem allPlain_rfc3339 {i : Instant} (h : i.date?.isSome) : AllPlain (i.rfc3339 "Z") := by
  obtain ⟨d, hd⟩ := Option.isSome_iff_exists.1 h
  have hmark : AllPlain "T" ∧ AllPlain ":" ∧ AllPlain "Z" := by decide
  obtain ⟨hdate, htime, hzone⟩ := hmark
  rw [Instant.rfc3339, hd]
  exact (((((((allPlain_dashed d).append hdate).append (allPlain_padded _ _)).append htime).append
    (allPlain_padded _ _)).append htime).append (allPlain_padded _ _)).append
    (allPlain_fractionText _) |>.append hzone

/-! ### Members -/

namespace AccessGate

open JsonNode

/-- The attempts are **read from their numeral**. -/
theorem attemptsOf?_numeralOf (attempts : UInt32) :
    attemptsOf? (.number (numeralOf attempts.toNat)) = some attempts := by
  have hlt := attempts.toNat_lt
  rw [attemptsOf?, JsonNumeral.value?_numeralOf (Nat.lt_trans hlt (by decide))]
  show (if 0 ≤ (attempts.toNat : Int) ∧ (attempts.toNat : Int).toNat < UInt32.size then
    some (UInt32.ofNat (attempts.toNat : Int).toNat) else none) = some attempts
  rw [if_pos ⟨by omega, hlt⟩, Int.toNat_natCast, UInt32.ofNat_toNat]

/-- The end of a lock is **read from its text**. -/
theorem lockedUntilOf?_endingText {ending : Instant} (h : ending.IsReal) :
    lockedUntilOf? (.string (endingText ending)) = some (some ending) := by
  rw [lockedUntilOf?, endingText, unescape?_of_plain (allPlain_rfc3339 h.1), Option.bind_eq_bind,
    Option.bind_some, Instant.ofLooseRfc3339?_rfc3339 h]
  rfl

/-- The members of a written state. -/
def membersOf (gate : AccessGate) : List (Text × JsonNode) :=
  (attemptsName, .number (numeralOf gate.attempts.toNat)) ::
    match gate.lockedUntil with
    | some ending => [(lockedUntilName, .string (endingText ending))]
    | none => []

/-- The end of the lock, where there is one, is one of the calendar. -/
def IsWritable (gate : AccessGate) : Prop := ∀ ending, gate.lockedUntil = some ending → ending.IsReal

variable {gate : AccessGate}

theorem ofMembers?_membersOf (h : gate.IsWritable) : ofMembers? gate.membersOf = some gate := by
  obtain ⟨attempts, lockedUntil⟩ := gate
  have hattempts := attemptsOf?_numeralOf attempts
  have hne : (attemptsName == lockedUntilName) = false ∧
      (lockedUntilName == attemptsName) = false := by decide
  cases lockedUntil with
  | none =>
    have hnamed : named? (membersOf ⟨attempts, none⟩) = some (membersOf ⟨attempts, none⟩) := rfl
    rw [ofMembers?, hnamed]
    simp only [membersOf, Option.bind_eq_bind, Option.bind_some, single?, List.filter_cons,
      List.filter_nil, BEq.rfl, hne.1, if_true, Bool.false_eq_true, if_false, hattempts]
    rfl
  | some ending =>
    have hnamed : named? (membersOf ⟨attempts, some ending⟩) =
        some (membersOf ⟨attempts, some ending⟩) := rfl
    have hending := lockedUntilOf?_endingText (h ending rfl)
    rw [ofMembers?, hnamed]
    simp only [membersOf, Option.bind_eq_bind, Option.bind_some, single?, List.filter_cons,
      List.filter_nil, BEq.rfl, hne.1, hne.2, if_true, Bool.false_eq_true, if_false, hattempts,
      hending]
    rfl

/-! ### The written state -/

/-- What follows the attempts in the written state. -/
def restText : Option Instant → Text
  | some ending => ',' :: (Json.newLine 1 ++ '"' :: (lockedUntilName ++ '"' :: ':' ::
      ([' '] ++ '"' :: (endingText ending ++ '"' :: (Json.newLine 0 ++ ['\x7d'])))))
  | none => Json.newLine 0 ++ ['\x7d']

/-- The written state **begins with the attempts**. -/
theorem toText_eq (h : gate.IsWritable) :
    gate.toText = '\x7b' :: (Json.newLine 1 ++ '"' :: (attemptsName ++ '"' :: ':' ::
      ([' '] ++ (Text.ofNat gate.attempts.toNat ++ restText gate.lockedUntil)))) := by
  have hnumber : (JsonNumber.integer gate.attempts.toNat).toText = Text.ofNat gate.attempts.toNat := rfl
  obtain ⟨attempts, lockedUntil⟩ := gate
  have hattempts : Json.quoted attemptsName = '"' :: attemptsName ++ ['"'] := rfl
  have hlocked : Json.quoted lockedUntilName = '"' :: lockedUntilName ++ ['"'] := rfl
  have hcolon : (": " : Text) = [':', ' '] := rfl
  have hbrace : ("\x7d" : Text) = ['\x7d'] := rfl
  cases lockedUntil with
  | none =>
    simp only [toText, toJson, Json.pretty, Json.prettyFields, hattempts, hcolon, hbrace, hnumber,
      restText, List.append_assoc, List.cons_append, List.nil_append]
  | some ending =>
    have hending := Json.quoted_of_plain (allPlain_rfc3339 (h ending rfl).1)
    simp only [toText, toJson, Json.pretty, Json.prettyFields, hattempts, hcolon, hbrace, hnumber,
      hlocked, endingText, hending, restText, List.append_assoc, List.cons_append, List.nil_append]

/-- The members of a written state **are read**, from the first name on. -/
theorem readMembers?_membersOf (h : gate.IsWritable) (k : Nat) :
    readMembers? (k + 3) ('"' :: (attemptsName ++ '"' :: ':' ::
      ([' '] ++ (Text.ofNat gate.attempts.toNat ++ restText gate.lockedUntil)))) =
      some (gate.membersOf, []) := by
  have hgap : ∀ c ∈ Json.newLine 1, isGap c = true := List.all_eq_true.1 rfl
  have hblank : ∀ c ∈ [' '], isGap c = true := List.all_eq_true.1 rfl
  have hnone : ∀ c ∈ ([] : Text), isGap c = true := List.all_eq_true.1 rfl
  have hnames : AllPlain attemptsName ∧ AllPlain lockedUntilName := by decide
  obtain ⟨hattempts, hlocked⟩ := hnames
  have hclose : skipGaps (Json.newLine 0 ++ ['\x7d']) = ['\x7d'] := rfl
  have hends : EndsNumeral (restText gate.lockedUntil) := by
    cases gate.lockedUntil with
    | none => exact endsNumeral_cons (by decide) _
    | some ending => exact endsNumeral_cons (by decide) _
  have hvalue : read? (k + 2) ([' '] ++ (Text.ofNat gate.attempts.toNat ++
      restText gate.lockedUntil)) =
      some (.number (numeralOf gate.attempts.toNat), restText gate.lockedUntil) :=
    read?_ofNat hblank _ hends
  cases hlock : gate.lockedUntil with
  | none =>
    -- the attempts are the only member
    rw [hlock] at hvalue
    refine (readMembers?_last hnone hattempts hvalue hclose).trans ?_
    rw [membersOf, hlock]
  | some ending =>
    have hending : read? (k + 1) ([' '] ++ '"' :: (endingText ending ++ '"' ::
        (Json.newLine 0 ++ ['\x7d']))) =
        some (.string (endingText ending), Json.newLine 0 ++ ['\x7d']) :=
      read?_string hblank (allPlain_rfc3339 (h ending hlock).1)
    have hlast := readMembers?_last hgap hlocked hending hclose
    rw [hlock] at hvalue
    refine (readMembers?_cons hnone hattempts hvalue rfl hlast).trans ?_
    rw [membersOf, hlock]

/-- A **written state is read back**. -/
theorem ofText?_toText (h : gate.IsWritable) : ofText? gate.toText = some gate := by
  -- four steps are enough, and there are at least so many
  obtain ⟨k, hk⟩ : ∃ k, 2 * gate.toText.length + 2 = k + 4 := by
    rw [toText_eq h, List.length_cons]
    exact ⟨_, by rw [Nat.mul_add, Nat.add_assoc]⟩
  have hobject : JsonNode.ofText? gate.toText = some (.object gate.membersOf) := by
    have hread : read? (k + 4) gate.toText = some (.object gate.membersOf, []) := by
      rw [toText_eq h, read?, skipGaps_cons rfl]
      -- the blanks before the first member are dropped with the brace
      show (readMembers? (k + 3) _).map (fun p => (object p.1, p.2)) = _
      rw [readMembers?_membersOf h]
      rfl
    rw [JsonNode.ofText?, hk, hread]
    rfl
  rw [ofText?, hobject]
  exact ofMembers?_membersOf h

end AccessGate

end MailMerge
