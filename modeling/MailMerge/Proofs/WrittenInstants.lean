import MailMerge.Proofs.Digits

/-!
# Written instants are read back

An instant is written with its date and time in coordinated universal time. The reader finds the same
date, the same time of day and the same fraction of the second, whatever the year and however many
digits the fraction has, and these make the same instant.

* `Date.dayNumber_of_ofDayNumber?` — the date of a day number has that day number;
* `Reading.looseDate?_dashed` and `Reading.looseTime?_written` — the two halves of a written instant
  are read back;
* `Instant.IsReal` says which instants there are;
* `Instant.ofLooseRfc3339?_rfc3339` — a written instant is read back.
-/

namespace MailMerge

/-! ### Day numbers -/

/-- The month and day of a day of the year **count its days**. -/
theorem monthAndDay_spec (lengths : List Nat) (month rest : Nat) :
    month ≤ (Date.monthAndDay lengths month rest).1 ∧
      1 ≤ (Date.monthAndDay lengths month rest).2 ∧
      (lengths.take ((Date.monthAndDay lengths month rest).1 - month)).foldr (· + ·) 0 +
        ((Date.monthAndDay lengths month rest).2 - 1) = rest := by
  induction lengths generalizing month rest with
  | nil => exact ⟨Nat.le_refl _, Nat.le_add_left _ _, by simp [Date.monthAndDay]⟩
  | cons length lengths ih =>
    rw [Date.monthAndDay]
    split
    case isTrue => exact ⟨Nat.le_refl _, Nat.le_add_left _ _, by simp⟩
    case isFalse hlt =>
      obtain ⟨hmonth, hday, hsum⟩ := ih (month + 1) (rest - length)
      generalize Date.monthAndDay lengths (month + 1) (rest - length) = r at hmonth hday hsum ⊢
      have htake : r.1 - month = r.1 - (month + 1) + 1 := by omega
      rw [htake, List.take_succ_cons, List.foldr_cons]
      exact ⟨by omega, hday, by omega⟩

/-- The year of a day **does not begin after it**. -/
theorem daysBeforeYear_yearOfDay_le (n : Int) : daysBeforeYear (Date.yearOfDay n) ≤ n := by
  unfold Date.yearOfDay
  dsimp only
  split
  case isTrue =>
    -- one year below the estimate is always enough
    rw [daysBeforeYear]
    omega
  case isFalse hestimate =>
    split
    case isTrue hnext => exact hnext
    case isFalse => exact Int.not_lt.1 hestimate

namespace Date

theorem of?_eq_some_iff {year : Int} {month day : Nat} {d : Date} :
    of? year month day = some d ↔ d.year = year ∧ d.month = month ∧ d.day = day := by
  constructor
  · intro h
    unfold of? at h
    split at h
    · cases h
      exact ⟨rfl, rfl, rfl⟩
    · cases h
  · rintro ⟨rfl, rfl, rfl⟩
    exact of?_eq_some d

/-- The date of a day number **has that day number**. -/
theorem dayNumber_of_ofDayNumber? {n : Int} {d : Date} (h : ofDayNumber? n = some d) :
    d.dayNumber = n := by
  unfold ofDayNumber? at h
  dsimp only at h
  generalize hyear : yearOfDay (n + epochDays) = year at h
  have hle := daysBeforeYear_yearOfDay_le (n + epochDays)
  rw [hyear] at hle
  obtain ⟨-, hday, hsum⟩ :=
    monthAndDay_spec (monthLengths year) 1 (n + epochDays - daysBeforeYear year).toNat
  obtain ⟨rfl, hmonth, hday'⟩ := of?_eq_some_iff.1 h
  rw [← hmonth, ← hday'] at hsum
  rw [← hday'] at hday
  rw [dayNumber, daysBeforeMonth]
  omega

end Date

/-! ### Reading dates -/

namespace Reading

theorem mark?_cons (c : Char) (t : Text) : mark? c (c :: t) = some t := by rw [mark?, if_pos rfl]

/-- A mark is read behind no blanks. -/
theorem mark?_trimStart_cons {c : Char} (h : isBlank c = false) (t : Text) :
    mark? c (Text.trimStart (c :: t)) = some t := by rw [Text.trimStart_cons h, mark?_cons]

/-- A text that begins with digits **begins with no sign**. -/
theorem isDigit_of_append_eq_cons {digits t r : Text} {c : Char} (hne : digits ≠ [])
    (hdigits : ∀ d ∈ digits, d.isDigit = true) (h : digits ++ t = c :: r) : c.isDigit = true := by
  obtain ⟨d, u, rfl⟩ := List.exists_cons_of_ne_nil hne
  rw [← (List.cons.inj h).1]
  exact hdigits d (List.mem_cons_self ..)

/-- A **written year** is read back, with its sign or without. -/
theorem year?_yearText (year : Int) (t : Text) :
    year? (Date.yearText year ++ '-' :: t) = some (year, '-' :: t) := by
  have hdash : ∀ c ∈ ('-' :: t).head?, c.isDigit = false := by
    intro c hc
    cases hc
    rfl
  by_cases hshort : 0 ≤ year ∧ year ≤ 9999
  · have hlength : (Text.padded 4 year.toNat).length = 4 :=
      Text.length_padded (by omega) (by decide)
    have hdigits : ∀ c ∈ Text.padded 4 year.toNat, c.isDigit = true := fun c =>
      Text.isDigit_of_mem_padded
    have hread : digits? 1 4 (Text.padded 4 year.toNat ++ '-' :: t) = some (year.toNat, '-' :: t) := by
      rw [digits?_append hdigits (by omega) (by omega) (.inl hlength), Text.digitsValue_padded]
    rw [Date.yearText, if_pos hshort, year?,
      Text.trimStart_of_digits (Text.padded_ne_nil 4 year.toNat) hdigits]
    split
    case h_1 r heq =>
      exact nomatch isDigit_of_append_eq_cons (Text.padded_ne_nil 4 year.toNat) hdigits heq
    case h_2 r heq =>
      exact nomatch isDigit_of_append_eq_cons (Text.padded_ne_nil 4 year.toNat) hdigits heq
    case h_3 =>
      rw [hread, Option.map_some, Int.toNat_of_nonneg hshort.1]
  · -- behind a sign there are as many digits as the year has, up to the dash
    have hdigits : ∀ c ∈ Text.padded 4 year.natAbs, c.isDigit = true := fun c =>
      Text.isDigit_of_mem_padded
    have hpos := Text.le_length_padded 4 year.natAbs
    have hread : digits? 1 (Text.padded 4 year.natAbs ++ '-' :: t).length
        (Text.padded 4 year.natAbs ++ '-' :: t) = some (year.natAbs, '-' :: t) := by
      rw [digits?_append hdigits (by omega) (by rw [List.length_append]; omega) (.inr hdash),
        Text.digitsValue_padded]
    rw [Date.yearText, if_neg hshort]
    split
    case isTrue hneg =>
      rw [List.cons_append, year?, Text.trimStart_cons (by decide)]
      show (digits? 1 _ _).map (fun p => (-(p.1 : Int), p.2)) = _
      rw [hread, Option.map_some, Int.ofNat_natAbs_of_nonpos (by omega), Int.neg_neg]
    case isFalse hpos =>
      rw [List.cons_append, year?, Text.trimStart_cons (by decide)]
      show (digits? 1 _ _).map (fun p => ((p.1 : Int), p.2)) = _
      rw [hread, Option.map_some, Int.natAbs_of_nonneg (by omega)]

end Reading

theorem daysInMonth_le (year : Int) (month : Nat) : daysInMonth year month ≤ 31 := by
  rw [daysInMonth]
  split
  case isTrue => decide
  case isFalse =>
    have hall : ∀ length ∈ monthLengths year, length ≤ 31 := by
      simp only [monthLengths, List.forall_mem_cons]
      split <;> simp
    rw [List.getD_eq_getElem?_getD]
    cases hget : (monthLengths year)[month - 1]? with
    | none => decide
    | some length => exact hall length (List.mem_of_getElem? hget)

/-- A **written date** is read back. -/
theorem Reading.looseDate?_dashed (d : Date) (t : Text) :
    looseDate? (d.dashed ++ t) = some (d, t) := by
  have hmonth : d.month < 100 := by have := d.month_le; omega
  have hday : d.day < 100 := by have := d.day_le; have := daysInMonth_le d.year d.month; omega
  have htext : d.dashed ++ t = Date.yearText d.year ++ '-' :: (Text.padded 2 d.month ++
      '-' :: (Text.padded 2 d.day ++ t)) := by
    simp [Date.dashed]
  rw [htext, looseDate?, year?_yearText]
  simp only [Option.bind_eq_bind, Option.bind_some, mark?_trimStart_cons (c := '-') (by decide),
    short?_padded hmonth, short?_padded hday, Date.of?_eq_some]
  rfl

/-! ### Reading times -/

namespace Reading

/-- Digits behind a point are read as a **fraction of a second**. -/
theorem fraction?_padded {width n : Nat} (hw : 0 < width) (hle : width ≤ 9) (h : n < 10 ^ width)
    {t : Text} (ht : ∀ c ∈ t.head?, c.isDigit = false) :
    fraction? ('.' :: Text.padded width n ++ t) = some (n * 10 ^ (9 - width), t) := by
  have hlength : (Text.padded width n).length = width := Text.length_padded h hw
  have hrun : (Text.padded width n ++ t).takeWhile Char.isDigit = Text.padded width n := by
    rw [List.takeWhile_append_of_pos fun c => Text.isDigit_of_mem_padded]
    cases t with
    | nil => rw [List.takeWhile_nil, List.append_nil]
    | cons c t => rw [List.takeWhile_cons_of_neg (by rw [ht c rfl]; decide), List.append_nil]
  have hne : (Text.padded width n).isEmpty = false :=
    List.isEmpty_eq_false_iff.2 (Text.padded_ne_nil width n)
  have htake : (Text.padded width n).take 9 = Text.padded width n :=
    List.take_of_length_le (by omega)
  rw [List.cons_append, fraction?]
  dsimp only
  rw [hrun, hne, htake, hlength, Text.digitsValue_padded, if_neg (by decide), List.drop_left' hlength]
  rfl

/-- A **written fraction** is read back, however many digits it has. -/
theorem fraction?_fractionText {nanos : Nat} (h : nanos < Instant.nanosPerSecond) {t : Text}
    (ht : ∀ c ∈ t.head?, c.isDigit = false ∧ c ≠ '.') :
    fraction? (Instant.fractionText nanos ++ t) = some (nanos, t) := by
  have hlt : nanos < 1000000000 := h
  have hdigit : ∀ c ∈ t.head?, c.isDigit = false := fun c hc => (ht c hc).1
  -- nothing, or as many digits as are needed of three, six and nine
  unfold Instant.fractionText
  split
  case isTrue hzero =>
    subst hzero
    rw [List.nil_append]
    unfold fraction?
    split
    case h_1 r => exact absurd rfl (ht '.' rfl).2
    case h_2 => rfl
  case isFalse =>
    split
    case isTrue hmilli =>
      rw [fraction?_padded (by decide) (by decide) (by omega) hdigit]
      congr 2
      omega
    case isFalse =>
      split
      case isTrue hmicro =>
        rw [fraction?_padded (by decide) (by decide) (by omega) hdigit]
        congr 2
        omega
      case isFalse =>
        rw [fraction?_padded (by decide) (by decide) hlt hdigit]
        congr 2
        omega

/-- A **written time of day** is read back. -/
theorem looseTime?_written {time : TimeOfDay} (hhour : time.hour ≤ 23) (hminute : time.minute ≤ 59)
    (hsecond : time.second ≤ 60) (hnanos : time.nanos < Instant.nanosPerSecond) {t : Text}
    (ht : ∀ c ∈ t.head?, c.isDigit = false ∧ c ≠ '.') :
    looseTime? (Text.padded 2 time.hour ++ ':' :: (Text.padded 2 time.minute ++ ':' ::
      (Text.padded 2 time.second ++ (Instant.fractionText time.nanos ++ t)))) = some (time, t) := by
  have htime : timeOfDay? time.hour time.minute time.second time.nanos = some time := by
    rw [timeOfDay?, if_pos ⟨hhour, hminute, hsecond⟩]
  rw [looseTime?]
  simp only [Option.bind_eq_bind, Option.bind_some, mark?_trimStart_cons (c := ':') (by decide),
    short?_padded (show time.hour < 100 by omega), short?_padded (show time.minute < 100 by omega),
    short?_padded (show time.second < 100 by omega), fraction?_fractionText hnanos ht, htime]
  rfl

end Reading

/-! ### Instants -/

namespace Instant

/-- Whether an instant is one of the calendar: its year is supported, and its nanoseconds fill less
than a second, or less than two where a leap second may be. -/
def IsReal (i : Instant) : Prop :=
  i.date?.isSome ∧ (i.nanos < nanosPerSecond ∨ (i.nanos < 2 * nanosPerSecond ∧ i.seconds % 60 = 59))

/-- The time of day of an instant **is one of the clock**. -/
theorem timeOfDay_bounds {i : Instant} (h : i.IsReal) :
    i.timeOfDay.hour ≤ 23 ∧ i.timeOfDay.minute ≤ 59 ∧ i.timeOfDay.second ≤ 60 ∧
      i.timeOfDay.nanos < nanosPerSecond := by
  obtain ⟨-, hnanos⟩ := h
  unfold timeOfDay
  dsimp only
  have hsecond : (i.seconds % 86400).toNat < 86400 := by omega
  unfold nanosPerSecond at hnanos ⊢
  refine ⟨by omega, by omega, ?_, ?_⟩
  · split <;> omega
  · split <;> omega

/-- The date and the time of day of an instant **make that instant**. -/
theorem of_date_timeOfDay {i : Instant} {d : Date} (h : i.IsReal) (hd : i.date? = some d) :
    Instant.of d i.timeOfDay 0 = i := by
  have hday := Date.dayNumber_of_ofDayNumber? hd
  obtain ⟨-, hnanos⟩ := h
  unfold Instant.of timeOfDay
  dsimp only
  unfold nanosPerSecond at hnanos ⊢
  cases i with
  | mk seconds nanos =>
    dsimp only at hday hnanos ⊢
    by_cases hleap : 1000000000 ≤ nanos
    · -- the leap second is written as the second 60
      have hlast : (seconds % 86400).toNat % 60 + 1 = 60 := by omega
      simp only [hleap, if_true, hlast]
      congr 1
      · omega
      · omega
    · have hlast : (seconds % 86400).toNat % 60 ≠ 60 := by omega
      simp only [hleap, if_false, Nat.add_zero]
      rw [if_neg hlast, if_neg hlast]
      congr 1
      omega

/-- A **written instant is read back**. -/
theorem ofLooseRfc3339?_rfc3339 {i : Instant} (h : i.IsReal) :
    ofLooseRfc3339? (i.rfc3339 "Z") = some i := by
  obtain ⟨d, hd⟩ := Option.isSome_iff_exists.1 h.1
  obtain ⟨hhour, hminute, hsecond, hnanos⟩ := timeOfDay_bounds h
  have htext : i.rfc3339 "Z" = d.dashed ++ 'T' :: (Text.padded 2 i.timeOfDay.hour ++ ':' ::
      (Text.padded 2 i.timeOfDay.minute ++ ':' :: (Text.padded 2 i.timeOfDay.second ++
        (fractionText i.timeOfDay.nanos ++ ['Z'])))) := by
    rw [rfc3339, hd]
    simp
  have hzone : ∀ c ∈ (['Z'] : Text).head?, c.isDigit = false ∧ c ≠ '.' := by
    intro c hc
    cases hc
    decide
  have hmark (t : Text) : (Reading.mark? 'T' ('T' :: t) <|> Reading.mark? 't' ('T' :: t) <|>
      Reading.mark? ' ' ('T' :: t)) = some t := by
    rw [Reading.mark?_cons]
    rfl
  have hread : Reading.looseRfc3339? (i.rfc3339 "Z") = some ((d, i.timeOfDay, 0), []) := by
    rw [htext, Reading.looseRfc3339?, Reading.looseDate?_dashed]
    simp only [Option.bind_eq_bind, Option.bind_some, hmark,
      Reading.looseTime?_written hhour hminute hsecond hnanos hzone]
    rfl
  rw [ofLooseRfc3339?, hread]
  show ofParts? (d, i.timeOfDay, 0) = some i
  rw [ofParts?, of_date_timeOfDay h hd, hd]
  rfl

end Instant

end MailMerge
