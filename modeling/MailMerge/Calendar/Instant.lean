import MailMerge.Calendar.Date

/-!
# Instants

A point in time is kept as whole seconds from 1970-01-01T00:00:00Z and the
nanoseconds after them. A leap second is kept in the second before it, with a
thousand million nanoseconds more.

* `Instant.plusMinutes?` adds a whole number of minutes;
* `Instant.rfc3339` writes an instant in coordinated universal time.
-/

namespace MailMerge

/-- A time of day, the second up to 60 to admit a leap second. -/
structure TimeOfDay where
  hour : Nat
  minute : Nat
  second : Nat
  nanos : Nat
  deriving DecidableEq, Repr

/-- An **instant**: seconds from 1970-01-01T00:00:00Z, and nanoseconds. -/
structure Instant where
  seconds : Int
  nanos : Nat
  deriving DecidableEq, Repr

namespace Instant

/-- One second in nanoseconds. -/
def nanosPerSecond : Nat := 1000000000

/-- Whether an instant comes before another. -/
def Before (a b : Instant) : Prop :=
  a.seconds < b.seconds ∨ (a.seconds = b.seconds ∧ a.nanos < b.nanos)

instance (a b : Instant) : Decidable (a.Before b) := by unfold Before; infer_instance

/-- The date of an instant in coordinated universal time, if the calendar
supports its year. -/
def date? (i : Instant) : Option Date := Date.ofDayNumber? (i.seconds / 86400)

/-- The time of day of an instant. A second that holds a thousand million
nanoseconds or more is shown as the leap second after it. -/
def timeOfDay (i : Instant) : TimeOfDay :=
  let second := (i.seconds % 86400).toNat
  let isLeap := nanosPerSecond ≤ i.nanos
  { hour := second / 3600
    minute := second / 60 % 60
    second := second % 60 + (if isLeap then 1 else 0)
    nanos := if isLeap then i.nanos - nanosPerSecond else i.nanos }

/-- The instant of a date and a time of day that lie `offset` seconds ahead of
coordinated universal time. The second 60 is kept inside the second before it. -/
def of (date : Date) (time : TimeOfDay) (offset : Int) : Instant :=
  let leap := time.second = 60
  { seconds := date.dayNumber * 86400 +
      ((time.hour * 3600 + time.minute * 60 + (if leap then 59 else time.second) : Nat) : Int) -
      offset
    nanos := time.nanos + (if leap then nanosPerSecond else 0) }

/-- The instant after a whole number of minutes, if the calendar supports its
year. Leaving a leap second forwards lands in the second after it, and backwards
counts the leap second itself. -/
def plusMinutes? (i : Instant) (minutes : Int) : Option Instant :=
  let isLeap := nanosPerSecond ≤ i.nanos
  let moved : Instant :=
    if isLeap ∧ 0 < minutes then ⟨i.seconds + minutes * 60, i.nanos - nanosPerSecond⟩
    else if isLeap ∧ minutes < 0 then ⟨i.seconds + 1 + minutes * 60, i.nanos - nanosPerSecond⟩
    else ⟨i.seconds + minutes * 60, i.nanos⟩
  moved.date?.map fun _ => moved

/-! ### Writing -/

/-- The fraction of a second: none, three, six or nine digits, the fewest that
lose nothing. -/
def fractionText (nanos : Nat) : Text :=
  if nanos = 0 then []
  else if nanos % 1000000 = 0 then '.' :: Text.padded 3 (nanos / 1000000)
  else if nanos % 1000 = 0 then '.' :: Text.padded 6 (nanos / 1000)
  else '.' :: Text.padded 9 nanos

/-- An instant as RFC 3339 text in coordinated universal time, with the given
mark for the offset zero. Years outside 0000 … 9999 have a sign. -/
def rfc3339 (zone : Text) (i : Instant) : Text :=
  let time := i.timeOfDay
  (match i.date? with
    | some date => date.dashed
    | none => Text.ofInt (i.seconds / 86400)) ++
    "T" ++ Text.padded 2 time.hour ++ ":" ++ Text.padded 2 time.minute ++ ":" ++
    Text.padded 2 time.second ++ fractionText time.nanos ++ zone

end Instant

end MailMerge
