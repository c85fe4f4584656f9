import MailMerge.Field.Format
import MailMerge.Proofs.CalendarDays

/-!
# Written dates

A date can stand in a field in many forms: alone, with a time of day, with an offset from coordinated
universal time, or as the day count of a spreadsheet. Each of them is put into a copy as the same day. The
forms are tried one after the other, and none of them is taken for another one: what is read of it leaves
something over, or runs out before its end.

* `writtenDay` and `dottedDay` are the two ways to write a day;
* `WrittenDate` says which texts a day is written as, with a time of day and an offset or without;
* `Reading.date?_writtenDay` and `Reading.rfc3339?_writtenDay` — what is read behind a written day;
* `Date.ofIso?_writtenDate` — each form of a day is read as that day;
* `Date.ofIso?_eq_none` — and a day that does not exist is not read;
* `formatted_dates_agree` — all forms of a date are put into a copy as one text.
-/

namespace MailMerge

/-! ### Written forms -/

/-- A day written `YYYY-MM-DD`. -/
def writtenDay (year month day : Nat) : Text :=
  Text.padded 4 year ++ '-' :: (Text.padded 2 month ++ '-' :: Text.padded 2 day)

/-- A day written `DD.MM.YYYY`. -/
def dottedDay (year month day : Nat) : Text :=
  Text.padded 2 day ++ '.' :: (Text.padded 2 month ++ '.' :: Text.padded 4 year)

/-- Hours and minutes written `HH:MM`. -/
def clockText (hour minute : Nat) : Text := Text.padded 2 hour ++ ':' :: Text.padded 2 minute

/-- The **fraction** of a second: nothing, or any number of digits behind a point. -/
inductive WrittenFraction : Text → Prop
  | none : WrittenFraction []
  | digits {digits : Text} (hne : digits ≠ []) (hdigits : ∀ c ∈ digits, c.isDigit = true) :
      WrittenFraction ('.' :: digits)

/-- A **time of day** with seconds, up to the leap second. -/
inductive WrittenTime : Text → Prop
  | clock {hour minute second : Nat} {fraction : Text} (hhour : hour ≤ 23) (hminute : minute ≤ 59)
      (hsecond : second ≤ 60) (hfraction : WrittenFraction fraction) :
      WrittenTime (clockText hour minute ++ ':' :: (Text.padded 2 second ++ fraction))

/-- An **offset** from coordinated universal time. -/
inductive WrittenOffset : Text → Prop
  | zero {mark : Char} (hmark : mark = 'Z' ∨ mark = 'z') : WrittenOffset [mark]
  | clock {sign : Char} {hours minutes : Nat} (hsign : sign = '+' ∨ sign = '-') (hhours : hours ≤ 23)
      (hminutes : minutes ≤ 59) : WrittenOffset (sign :: clockText hours minutes)

/-- The texts that a **day is written** as: alone, with hours and minutes, with a time of day, or with a time
of day and an offset. -/
inductive WrittenDate (year month day : Nat) : Text → Prop
  | alone : WrittenDate year month day (writtenDay year month day)
  | toMinute {hour minute : Nat} (hhour : hour ≤ 23) (hminute : minute ≤ 59) :
      WrittenDate year month day (writtenDay year month day ++ 'T' :: clockText hour minute)
  | toSecond {time : Text} (htime : WrittenTime time) :
      WrittenDate year month day (writtenDay year month day ++ 'T' :: time)
  | instant {mark : Char} {time offset : Text} (hmark : mark = 'T' ∨ mark = 't' ∨ mark = ' ')
      (htime : WrittenTime time) (hoffset : WrittenOffset offset) :
      WrittenDate year month day (writtenDay year month day ++ mark :: (time ++ offset))

/-! ### Blanks -/

namespace Text

variable {t : Text}

/-- A text that begins and ends with no blank **is not trimmed**. -/
theorem trim_eq_self (hhead : ∀ c ∈ t.head?, isBlank c = false) (hlast : ∀ c ∈ t.getLast?, isBlank c = false) :
    trim t = t := by
  have hstart (u : Text) (h : ∀ c ∈ u.head?, isBlank c = false) : u.dropWhile isBlank = u := by
    cases u with
    | nil => rfl
    | cons c u => exact trimStart_cons (h c rfl) u
  have hend : t.reverse.dropWhile isBlank = t.reverse := by
    refine hstart _ fun c hc => ?_
    rw [List.head?_reverse] at hc
    exact hlast c hc
  rw [trim, trimStart, hstart t hhead, trimEnd, hend, List.reverse_reverse]

/-- No character of a text **is blank**. -/
def NoBlanks (t : Text) : Prop := ∀ c ∈ t, isBlank c = false

theorem noBlanks_padded (width n : Nat) : NoBlanks (padded width n) :=
  fun _ hc => isBlank_of_isDigit (isDigit_of_mem_padded hc)

theorem NoBlanks.append {u : Text} (ht : NoBlanks t) (hu : NoBlanks u) : NoBlanks (t ++ u) :=
  List.forall_mem_append.2 ⟨ht, hu⟩

theorem NoBlanks.cons {c : Char} (hc : isBlank c = false) (ht : NoBlanks t) : NoBlanks (c :: t) :=
  List.forall_mem_cons.2 ⟨hc, ht⟩

end Text

open Text (NoBlanks noBlanks_padded)

theorem noBlanks_clockText (hour minute : Nat) : NoBlanks (clockText hour minute) :=
  (noBlanks_padded 2 hour).append (.cons (by decide) (noBlanks_padded 2 minute))

theorem WrittenTime.noBlanks {time : Text} (h : WrittenTime time) : NoBlanks time := by
  obtain ⟨-, -, -, hfraction⟩ := h
  refine (noBlanks_clockText _ _).append (.cons (by decide) ((noBlanks_padded 2 _).append ?_))
  cases hfraction with
  | none => exact List.forall_mem_nil _
  | digits _ hdigits => exact .cons (by decide) fun c hc => Text.isBlank_of_isDigit (hdigits c hc)

theorem WrittenOffset.noBlanks {offset : Text} (h : WrittenOffset offset) : NoBlanks offset := by
  cases h with
  | zero hmark =>
    refine .cons ?_ (List.forall_mem_nil _)
    rcases hmark with rfl | rfl <;> rfl
  | clock hsign =>
    refine .cons ?_ (noBlanks_clockText _ _)
    rcases hsign with rfl | rfl <;> rfl

/-- An offset **ends the fraction** before it. -/
theorem WrittenOffset.head {offset : Text} (h : WrittenOffset offset) :
    ∀ c ∈ offset.head?, c.isDigit = false ∧ c ≠ '.' := by
  intro c hc
  cases h with
  | zero hmark =>
    cases hc
    rcases hmark with rfl | rfl <;> decide
  | clock hsign =>
    cases hc
    rcases hsign with rfl | rfl <;> decide

variable {year month day : Nat} {t time offset : Text} {date : Date}

theorem writtenDay_ne_nil : writtenDay year month day ≠ [] :=
  List.append_ne_nil_of_left_ne_nil (Text.padded_ne_nil 4 year) _

theorem clockText_ne_nil (hour minute : Nat) : clockText hour minute ≠ [] :=
  List.append_ne_nil_of_left_ne_nil (Text.padded_ne_nil 2 hour) _

theorem WrittenTime.ne_nil (h : WrittenTime time) : time ≠ [] := by
  cases h
  exact List.append_ne_nil_of_left_ne_nil (clockText_ne_nil _ _) _

theorem WrittenDate.ne_nil (h : WrittenDate year month day t) : t ≠ [] := by
  cases h with
  | alone => exact writtenDay_ne_nil
  | toMinute => exact List.append_ne_nil_of_left_ne_nil writtenDay_ne_nil _
  | toSecond => exact List.append_ne_nil_of_left_ne_nil writtenDay_ne_nil _
  | instant => exact List.append_ne_nil_of_left_ne_nil writtenDay_ne_nil _

/-- A written day **is not trimmed**, nor is what follows it without a blank at its end. -/
theorem trim_writtenDay_append (ht : ∀ c ∈ t.getLast?, isBlank c = false) :
    Text.trim (writtenDay year month day ++ t) = writtenDay year month day ++ t := by
  have hday : NoBlanks (writtenDay year month day) :=
    (noBlanks_padded 4 year).append
      (.cons (by decide) ((noBlanks_padded 2 month).append (.cons (by decide) (noBlanks_padded 2 day))))
  refine Text.trim_eq_self (fun c hc => ?_) fun c hc => ?_
  · rw [List.head?_append_of_ne_nil _ writtenDay_ne_nil] at hc
    exact hday c (List.mem_of_mem_head? hc)
  · by_cases hnil : t = []
    · rw [hnil, List.append_nil] at hc
      exact hday c (List.mem_of_getLast? hc)
    · rw [List.getLast?_append_of_ne_nil _ hnil] at hc
      exact ht c hc

theorem WrittenDate.trim_eq (h : WrittenDate year month day t) : Text.trim t = t := by
  -- The one blank that a written date may hold stands between the day and the time.
  have hend {mark : Char} {u : Text} (hne : u ≠ []) (hu : NoBlanks u) :
      ∀ c ∈ (mark :: u).getLast?, isBlank c = false := by
    intro c hc
    rw [List.getLast?_cons_of_ne_nil hne] at hc
    exact hu c (List.mem_of_getLast? hc)
  cases h with
  | alone =>
    rw [← List.append_nil (writtenDay year month day)]
    exact trim_writtenDay_append fun c hc => nomatch hc
  | toMinute => exact trim_writtenDay_append (hend (clockText_ne_nil _ _) (noBlanks_clockText _ _))
  | toSecond h => exact trim_writtenDay_append (hend h.ne_nil h.noBlanks)
  | instant _ h hoffset =>
    exact trim_writtenDay_append
      (hend (List.append_ne_nil_of_left_ne_nil h.ne_nil _) (h.noBlanks.append hoffset.noBlanks))

/-! ### Reading -/

namespace Reading

/-- What has been read is **passed on** to what follows. -/
theorem some_bind {α β : Type} (a : α) (next : α → Option β) : (some a >>= next) = next a := rfl

theorem digits?_padded {width n : Nat} (h : n < 10 ^ width) (hw : 0 < width) (t : Text) :
    digits? width width (Text.padded width n ++ t) = some (n, t) := by
  have hlength := Text.length_padded h hw
  rw [digits?_append (fun c => Text.isDigit_of_mem_padded) (Nat.le_of_eq hlength.symm)
    (Nat.le_of_eq hlength) (.inl hlength), Text.digitsValue_padded]

theorem two?_padded {n : Nat} (h : n ≤ 99) (t : Text) : digits? 2 2 (Text.padded 2 n ++ t) = some (n, t) :=
  digits?_padded (Nat.lt_succ_of_le h) (by decide) t

theorem four?_padded {n : Nat} (h : n ≤ 9999) (t : Text) : digits? 4 4 (Text.padded 4 n ++ t) = some (n, t) :=
  digits?_padded (Nat.lt_succ_of_le h) (by decide) t

/-- A written day is **read as a date**, if there is one. -/
theorem date?_writtenDay (hyear : year ≤ 9999) (hmonth : month ≤ 99) (hday : day ≤ 99) (t : Text) :
    date? (writtenDay year month day ++ t) = (Date.of? year month day).map fun date => (date, t) := by
  have hyear? (u : Text) : year? (Text.padded 4 year ++ '-' :: u) = some ((year : Int), '-' :: u) := by
    have htext : Text.padded 4 year = Date.yearText year := by
      rw [Date.yearText, if_pos ⟨Int.natCast_nonneg _, by omega⟩, Int.toNat_natCast]
    rw [htext, year?_yearText]
  have htext : writtenDay year month day ++ t =
      Text.padded 4 year ++ '-' :: (Text.padded 2 month ++ '-' :: (Text.padded 2 day ++ t)) := by
    simp [writtenDay]
  rw [htext, date?]
  simp only [some_bind, hyear?, mark?_cons,
    short?_padded (show month < 100 by omega), short?_padded (show day < 100 by omega)]
  cases Date.of? year month day <;> rfl

theorem hourMinute?_clockText {hour minute : Nat} (hhour : hour ≤ 23) (hminute : minute ≤ 59) (t : Text) :
    hourMinute? (clockText hour minute ++ t) = some ((hour, minute), t) := by
  have htext : clockText hour minute ++ t = Text.padded 2 hour ++ ':' :: (Text.padded 2 minute ++ t) := by
    simp [clockText]
  rw [htext, hourMinute?]
  simp only [some_bind, mark?_cons,
    short?_padded (show hour < 100 by omega), short?_padded (show minute < 100 by omega)]
  rfl

/-- A **fraction** is read up to its end. -/
theorem fraction?_written {fraction : Text} (h : WrittenFraction fraction) :
    ∃ nanos, ∀ t, (∀ c ∈ t.head?, c.isDigit = false ∧ c ≠ '.') →
      fraction? (fraction ++ t) = some (nanos, t) := by
  cases h with
  | none =>
    refine ⟨0, fun t ht => ?_⟩
    rw [List.nil_append]
    unfold fraction?
    split
    case h_1 r => exact absurd rfl (ht '.' rfl).2
    case h_2 => rfl
  | @digits digits hne hdigits =>
    refine ⟨Text.digitsValue (digits.take 9) * Nat.pow 10 (9 - (digits.take 9).length), fun t ht => ?_⟩
    -- Only the first nine digits count, but all of them are read.
    have hrun : (digits ++ t).takeWhile Char.isDigit = digits := by
      rw [List.takeWhile_append_of_pos hdigits]
      cases t with
      | nil => rw [List.takeWhile_nil, List.append_nil]
      | cons c t => rw [List.takeWhile_cons_of_neg (by rw [(ht c rfl).1]; decide), List.append_nil]
    rw [List.cons_append, fraction?]
    dsimp only
    rw [hrun, List.isEmpty_eq_false_iff.2 hne, if_neg (by decide), List.drop_left]

/-- A time of day is **read to its end**. -/
theorem time?_written (h : WrittenTime time) : ∃ read, time? time = some (read, []) := by
  obtain @⟨hour, minute, second, fraction, hhour, hminute, hsecond, hfraction⟩ := h
  obtain ⟨nanos, hnanos⟩ := fraction?_written hfraction
  have hend : fraction? fraction = some (nanos, []) := by
    have hread := hnanos [] fun c hc => nomatch hc
    rwa [List.append_nil] at hread
  refine ⟨⟨hour, minute, second, nanos⟩, ?_⟩
  rw [time?, hourMinute?_clockText hhour hminute]
  simp only [some_bind, mark?_cons, short?_padded (show second < 100 by omega), hend,
    timeOfDay?, if_pos (show hour ≤ 23 ∧ minute ≤ 59 ∧ second ≤ 60 from ⟨hhour, hminute, hsecond⟩)]
  rfl

/-- Hours and minutes **are no time of day** with seconds. -/
theorem time?_clockText {hour minute : Nat} (hhour : hour ≤ 23) (hminute : minute ≤ 59) :
    time? (clockText hour minute) = none := by
  have hread := hourMinute?_clockText hhour hminute []
  rw [List.append_nil] at hread
  rw [time?, hread]
  rfl

theorem offset?_written (h : WrittenOffset offset) : ∃ read, offset? (mark? ':') offset = some (read, []) := by
  cases h with
  | zero hmark => exact ⟨0, by rw [offset?, if_pos hmark]⟩
  | @clock sign hours minutes hsign hhours hminutes =>
    have hread := two?_padded (show minutes ≤ 99 by omega) []
    rw [List.append_nil] at hread
    rcases hsign with rfl | rfl
    · refine ⟨1 * ((hours * 3600 + minutes * 60 : Nat) : Int), ?_⟩
      rw [offset?, if_neg (by decide), if_pos rfl, clockText]
      simp only [some_bind, mark?_cons,
        two?_padded (show hours ≤ 99 by omega), hread]
      rw [if_neg (by omega)]
    · refine ⟨-1 * ((hours * 3600 + minutes * 60 : Nat) : Int), ?_⟩
      rw [offset?, if_neg (by decide), if_neg (by decide), if_pos (.inl rfl), clockText]
      simp only [some_bind, mark?_cons,
        two?_padded (show hours ≤ 99 by omega), hread]
      rw [if_neg (by omega)]

/-- What is read of an instant **behind its date**: a mark, a time of day and an offset. -/
def instantBehind? (date : Date) (t : Text) : Option ((Date × TimeOfDay × Int) × Text) := do
  let t ← mark? 'T' t <|> mark? 't' t <|> mark? ' ' t
  let (hour, t) ← digits? 2 2 t
  let t ← mark? ':' t
  let (minute, t) ← digits? 2 2 t
  let t ← mark? ':' t
  let (second, t) ← digits? 2 2 t
  let (nanos, t) ← fraction? t
  let time ← timeOfDay? hour minute second nanos
  let (offset, t) ← offset? (mark? ':') t
  return ((date, time, offset), t)

/-- An instant **begins with a written day**, if there is that day. -/
theorem rfc3339?_writtenDay (hyear : year ≤ 9999) (hmonth : month ≤ 99) (hday : day ≤ 99) (t : Text) :
    rfc3339? (writtenDay year month day ++ t) =
      Date.of? year month day >>= fun date => instantBehind? date t := by
  have htext : writtenDay year month day ++ t =
      Text.padded 4 year ++ '-' :: (Text.padded 2 month ++ '-' :: (Text.padded 2 day ++ t)) := by
    simp [writtenDay]
  rw [htext, rfc3339?]
  simp only [some_bind, mark?_cons,
    four?_padded hyear, two?_padded hmonth, two?_padded hday]
  rfl

theorem timeMark?_cons {mark : Char} (h : mark = 'T' ∨ mark = 't' ∨ mark = ' ') (t : Text) :
    (mark? 'T' (mark :: t) <|> mark? 't' (mark :: t) <|> mark? ' ' (mark :: t)) = some t := by
  rcases h with rfl | rfl | rfl <;> rfl

/-- Behind a time of day there is **the offset** to be read. -/
theorem instantBehind?_time {mark : Char} (hmark : mark = 'T' ∨ mark = 't' ∨ mark = ' ')
    (htime : WrittenTime time) (date : Date) :
    ∃ read, ∀ t, (∀ c ∈ t.head?, c.isDigit = false ∧ c ≠ '.') →
      instantBehind? date (mark :: (time ++ t)) =
        (offset? (mark? ':') t).map fun p => ((date, read, p.1), p.2) := by
  obtain @⟨hour, minute, second, fraction, hhour, hminute, hsecond, hfraction⟩ := htime
  obtain ⟨nanos, hnanos⟩ := fraction?_written hfraction
  refine ⟨⟨hour, minute, second, nanos⟩, fun t ht => ?_⟩
  have htext : clockText hour minute ++ ':' :: (Text.padded 2 second ++ fraction) ++ t =
      Text.padded 2 hour ++ ':' :: (Text.padded 2 minute ++ ':' :: (Text.padded 2 second ++
        (fraction ++ t))) := by
    simp [clockText]
  rw [htext, instantBehind?, timeMark?_cons hmark]
  simp only [some_bind, mark?_cons,
    two?_padded (show hour ≤ 99 by omega), two?_padded (show minute ≤ 99 by omega),
    two?_padded (show second ≤ 99 by omega), hnanos t ht,
    timeOfDay?, if_pos (show hour ≤ 23 ∧ minute ≤ 59 ∧ second ≤ 60 from ⟨hhour, hminute, hsecond⟩)]
  cases offset? (mark? ':') t <;> rfl

/-- Behind hours and minutes alone there is **no instant**. -/
theorem instantBehind?_clockText {hour minute : Nat} (hhour : hour ≤ 23) (hminute : minute ≤ 59)
    (date : Date) : instantBehind? date ('T' :: clockText hour minute) = none := by
  have hread := two?_padded (show minute ≤ 99 by omega) []
  rw [List.append_nil] at hread
  rw [instantBehind?, timeMark?_cons (.inl rfl), clockText]
  simp only [some_bind, mark?_cons,
    two?_padded (show hour ≤ 99 by omega), hread]
  rfl

section Days

variable (hyear : year ≤ 9999) (hmonth : month ≤ 99) (hday : day ≤ 99)
include hyear hmonth hday

/-- Behind a written day there is **a time of day** to be read. -/
theorem dateTime?_writtenDay (h : Date.of? year month day = some date) (t : Text) :
    dateTime? (writtenDay year month day ++ 'T' :: t) = (time? t).map fun p => (date, p.2) := by
  rw [dateTime?, date?_writtenDay hyear hmonth hday, h]
  simp only [Option.map_some, some_bind, mark?_cons]
  cases time? t <;> rfl

theorem dateTimeToMinute?_written (h : Date.of? year month day = some date) {hour minute : Nat}
    (hhour : hour ≤ 23) (hminute : minute ≤ 59) :
    dateTimeToMinute? (writtenDay year month day ++ 'T' :: clockText hour minute) = some (date, []) := by
  have hclock := hourMinute?_clockText hhour hminute []
  rw [List.append_nil] at hclock
  have htime : timeOfDay? hour minute 0 0 = some ⟨hour, minute, 0, 0⟩ :=
    if_pos ⟨hhour, hminute, by decide⟩
  rw [dateTimeToMinute?, date?_writtenDay hyear hmonth hday, h]
  simp only [Option.map_some, some_bind, mark?_cons, hclock, htime]
  rfl

end Days

end Reading

open Reading

section Days

variable (hyear : year ≤ 9999) (hmonth : month ≤ 99) (hday : day ≤ 99)
include hyear hmonth hday

/-- A day that does not exist **is not read**. -/
theorem Date.ofIso?_eq_none (h : Date.of? year month day = none) :
    Date.ofIso? (writtenDay year month day) = none := by
  have hdate := date?_writtenDay hyear hmonth hday []
  have hinstant := rfc3339?_writtenDay hyear hmonth hday []
  rw [List.append_nil, h] at hdate hinstant
  rw [Date.ofIso?, hdate, hinstant, dateTime?, hdate, dateTimeToMinute?, hdate]
  rfl

/-- Each written form of a day **is read as that day**. -/
theorem Date.ofIso?_writtenDate (h : Date.of? year month day = some date) (ht : WrittenDate year month day t) :
    Date.ofIso? t = some date := by
  have hdate (t : Text) : date? (writtenDay year month day ++ t) = some (date, t) := by
    rw [date?_writtenDay hyear hmonth hday, h, Option.map_some]
  have hinstant (t : Text) : rfc3339? (writtenDay year month day ++ t) = instantBehind? date t := by
    rw [rfc3339?_writtenDay hyear hmonth hday, h, some_bind]
  -- the first reader that takes a form to its end decides; those before it leave something over or fail
  cases ht with
  | alone =>
    have hread := hdate []
    rw [List.append_nil] at hread
    rw [Date.ofIso?, hread]
    rfl
  | toMinute hhour hminute =>
    rw [Date.ofIso?, hdate, hinstant, instantBehind?_clockText hhour hminute,
      dateTime?_writtenDay hyear hmonth hday h, time?_clockText hhour hminute,
      dateTimeToMinute?_written hyear hmonth hday h hhour hminute]
    rfl
  | @toSecond time htime =>
    obtain ⟨read, hread⟩ := time?_written htime
    have hoffset : instantBehind? date ('T' :: time) = none := by
      obtain ⟨_, hbehind⟩ := instantBehind?_time (.inl rfl) htime date
      have hend := hbehind [] fun c hc => absurd hc (Option.not_mem_none c)
      rwa [List.append_nil] at hend
    rw [Date.ofIso?, hdate, hinstant, hoffset, dateTime?_writtenDay hyear hmonth hday h, hread]
    rfl
  | instant hmark htime hoffset =>
    obtain ⟨shift, hshift⟩ := offset?_written hoffset
    obtain ⟨read, hbehind⟩ := instantBehind?_time hmark htime date
    rw [Date.ofIso?, hdate, hinstant, hbehind _ hoffset.head, hshift]
    rfl

end Days

/-! ### Formatting -/

/-- A date of the years 0000 to 9999 is written **with all four digits**. -/
theorem Date.dotted_eq (hyear : year ≤ 9999) (h : date.year = year ∧ date.month = month ∧ date.day = day) :
    date.dotted = dottedDay year month day := by
  obtain ⟨hdate, rfl, rfl⟩ := h
  rw [dotted, hdate, yearText, if_pos ⟨Int.natCast_nonneg _, by omega⟩, Int.toNat_natCast]
  simp [dottedDay]

/-- A text without blanks at its ends is put into a copy **as the date that is read**, if one is. -/
theorem formatIsoDate_eq (htrim : Text.trim t = t) (hne : t ≠ []) :
    formatIsoDate t = ((Date.ofIso? t).map Date.dotted).getD invalidDate := by
  rw [formatIsoDate, htrim, List.isEmpty_eq_false_iff.2 hne, if_neg (by decide)]
  cases Date.ofIso? t <;> rfl

/-- A number, written or not, is put into a copy **as the date that it counts**, if there is one. -/
theorem formatSerialDate_number {x : Binary64} (h : dateOfSerial? x = some date) :
    formatSerialDate (.number x) = date.dotted := by
  rw [formatSerialDate, some_bind, h]

theorem formatSerialDate_text {x : Binary64} (ht : Binary64.ofText? (Text.trim t) = some x)
    (h : dateOfSerial? x = some date) : formatSerialDate (.text t) = date.dotted := by
  rw [formatSerialDate, ht, some_bind, h]

/-- A number that **counts the days** of a spreadsheet up to a date is of that date. -/
theorem dateOfSerial?_eq {n : Int} {x : Binary64} (hday : IsDay n date)
    (hx : x.floor? = some (n + serialEpoch)) : dateOfSerial? x = some date := by
  rw [dateOfSerial?, hx, some_bind, Int.add_sub_cancel, ← isDay_iff.1 hday, Date.ofDayNumber?_dayNumber]

/-- **All forms of a date agree**: whatever a day of the years 0000 to 9999 is written as, with any time of
day and any offset, and whatever number counts the days up to it, with any fraction, it is put into a copy
as that day. A day that does not exist is put there as the text for an invalid date. -/
theorem formatted_dates_agree (hyear : year ≤ 9999) (hmonth : month ≤ 99) (hday : day ≤ 99) :
    (∀ date : Date, date.year = year ∧ date.month = month ∧ date.day = day →
      (∀ t, WrittenDate year month day t → formatIsoDate t = dottedDay year month day) ∧
      (∃ n, IsDay n date) ∧
      ∀ n, IsDay n date → ∀ x : Binary64, x.floor? = some (n + serialEpoch) →
        formatSerialDate (.number x) = dottedDay year month day ∧
        ∀ t, Binary64.ofText? (Text.trim t) = some x →
          formatSerialDate (.text t) = dottedDay year month day) ∧
    ((¬ ∃ date : Date, date.year = year ∧ date.month = month ∧ date.day = day) →
      formatIsoDate (writtenDay year month day) = invalidDate) := by
  refine ⟨fun date hdate => ⟨fun t ht => ?_, ⟨_, isDay_dayNumber date⟩, fun n hn x hx => ⟨?_, fun t ht => ?_⟩⟩,
    fun hnone => ?_⟩
  · have hread := Date.ofIso?_writtenDate hyear hmonth hday (Date.of?_eq_some_iff.2 hdate) ht
    rw [formatIsoDate_eq ht.trim_eq ht.ne_nil, hread]
    exact Date.dotted_eq hyear hdate
  · rw [formatSerialDate_number (dateOfSerial?_eq hn hx)]
    exact Date.dotted_eq hyear hdate
  · rw [formatSerialDate_text ht (dateOfSerial?_eq hn hx)]
    exact Date.dotted_eq hyear hdate
  · have hof : Date.of? (year : Int) month day = none := by
      cases hread : Date.of? (year : Int) month day with
      | none => rfl
      | some date => exact absurd ⟨date, Date.of?_eq_some_iff.1 hread⟩ hnone
    have hwritten : WrittenDate year month day (writtenDay year month day) := .alone
    rw [formatIsoDate_eq hwritten.trim_eq hwritten.ne_nil, Date.ofIso?_eq_none hyear hmonth hday hof]
    rfl

/-- The leap day of a leap century agrees in all forms, and that of a common one is **no date**. -/
theorem formatted_dates_agree_on_leap_day :
    formatIsoDate "2000-02-29" = "29.02.2000".toList ∧
    formatIsoDate "2000-02-29 23:59:60.9999999999-23:59" = "29.02.2000".toList ∧
    formatSerialDate (.number (.finite false 5028307191988224 (-37))) = "29.02.2000".toList ∧
    formatSerialDate (.text " 36585.75 ") = "29.02.2000".toList ∧
    formatIsoDate "1900-02-29" = "Invalid Date".toList := by
  let date : Date := ⟨2000, 2, 29, by decide, by decide, by decide, by decide, by decide⟩
  have hday : IsDay 11016 date := isDay_iff.2 (by decide)
  have htime : WrittenTime "23:59:60.9999999999" :=
    @WrittenTime.clock 23 59 60 ".9999999999" (by decide) (by decide) (by decide)
      (@WrittenFraction.digits "9999999999" (by decide) (by decide))
  have hoffset : WrittenOffset "-23:59" := @WrittenOffset.clock '-' 23 59 (.inr rfl) (by decide) (by decide)
  have hlast : WrittenDate 2000 2 29 "2000-02-29 23:59:60.9999999999-23:59" :=
    .instant (.inr (.inr rfl)) htime hoffset
  obtain ⟨hleap, -⟩ := @formatted_dates_agree 2000 2 29 (by decide) (by decide) (by decide)
  obtain ⟨hwritten, -, hserial⟩ := hleap date ⟨rfl, rfl, rfl⟩
  obtain ⟨hnumber, htext⟩ := hserial 11016 hday (.finite false 5028307191988224 (-37)) (by decide +kernel)
  obtain ⟨-, hcommon⟩ := @formatted_dates_agree 1900 2 29 (by decide) (by decide) (by decide)
  refine ⟨hwritten _ .alone, hwritten _ hlast, hnumber, htext _ (by decide +kernel), hcommon ?_⟩
  rintro ⟨d, hyear, hmonth, hday⟩
  have hle := d.day_le
  rw [hyear, hmonth, hday] at hle
  exact absurd hle (by decide)

end MailMerge
