import MailMerge.Text.Blank
import MailMerge.Calendar.Instant

/-!
# Reading dates and times

The written forms of dates and instants that documents and state files may hold.
Each reader takes what it reads from the head of a text and hands back the rest.

* `Date.ofIso?` reads a date, or the date of a date and time: `YYYY-MM-DD` with
  short numbers and signed years, RFC 3339, or the same without an offset;
* `Instant.ofRfc3339?` reads an instant strictly;
* `Instant.ofLooseRfc3339?` reads an instant with short numbers, signed years and
  blanks between the parts.
-/

namespace MailMerge

namespace Reading

/-! ### Parts -/

/-- Reads from `least` to `most` digits, as many as there are. -/
def digits? (least most : Nat) (t : Text) : Option (Nat × Text) :=
  let run := (t.take most).takeWhile Char.isDigit
  if least ≤ run.length then some (Text.digitsValue run, t.drop run.length) else none

/-- Reads one given character. -/
def mark? (c : Char) : Text → Option Text
  | [] => none
  | d :: t => if d = c then some t else none

/-- Reads a number of at most two digits, after blanks. -/
def short? (t : Text) : Option (Nat × Text) := digits? 1 2 (Text.trimStart t)

/-- Reads a year, after blanks: up to four digits, or a sign and any number of
digits. -/
def year? (t : Text) : Option (Int × Text) :=
  match Text.trimStart t with
  | '-' :: r => (digits? 1 r.length r).map fun p => (-(p.1 : Int), p.2)
  | '+' :: r => (digits? 1 r.length r).map fun p => ((p.1 : Int), p.2)
  | r => (digits? 1 4 r).map fun p => ((p.1 : Int), p.2)

/-- Reads a fraction of a second, if a point announces one: at least one digit.
Digits after the ninth are dropped. -/
def fraction? (t : Text) : Option (Nat × Text) :=
  match t with
  | '.' :: r =>
    let run := r.takeWhile Char.isDigit
    if run.isEmpty then none
    else
      let kept := run.take 9
      some (Text.digitsValue kept * Nat.pow 10 (9 - kept.length), r.drop run.length)
  | r => some (0, r)

/-- A time of day from its numbers, if they are in range. -/
def timeOfDay? (hour minute second nanos : Nat) : Option TimeOfDay :=
  if hour ≤ 23 ∧ minute ≤ 59 ∧ second ≤ 60 then some ⟨hour, minute, second, nanos⟩ else none

/-- Reads an offset from coordinated universal time in seconds: `Z`, or a sign,
two digits of hours, a separator and two digits of minutes. -/
def offset? (separator : Text → Option Text) (t : Text) : Option (Int × Text) := do
  match t with
  | [] => none
  | sign :: r =>
    if sign = 'Z' ∨ sign = 'z' then some (0, r)
    else
      let direction : Int ←
        if sign = '+' then some 1 else if sign = '-' ∨ sign = '−' then some (-1) else none
      let (hours, r) ← digits? 2 2 r
      let r ← separator r
      let (minutes, r) ← digits? 2 2 r
      if 59 < minutes ∨ 23 < hours then none
      else some (direction * ((hours * 3600 + minutes * 60 : Nat) : Int), r)

/-! ### Dates and times -/

/-- Reads `year-month-day`, the numbers short and after blanks. -/
def date? (t : Text) : Option (Date × Text) := do
  let (year, t) ← year? t
  let t ← mark? '-' t
  let (month, t) ← short? t
  let t ← mark? '-' t
  let (day, t) ← short? t
  let date ← Date.of? year month day
  return (date, t)

/-- Reads `hour:minute`, the numbers short and after blanks. -/
def hourMinute? (t : Text) : Option ((Nat × Nat) × Text) := do
  let (hour, t) ← short? t
  let t ← mark? ':' t
  let (minute, t) ← short? t
  return ((hour, minute), t)

/-- Reads `hour:minute:second` with an optional fraction. -/
def time? (t : Text) : Option (TimeOfDay × Text) := do
  let ((hour, minute), t) ← hourMinute? t
  let t ← mark? ':' t
  let (second, t) ← short? t
  let (nanos, t) ← fraction? t
  let time ← timeOfDay? hour minute second nanos
  return (time, t)

/-- What was read, if nothing is left over. -/
def all? {α : Type} : Option (α × Text) → Option α
  | some (a, []) => some a
  | _ => none

/-- A date, a mark `T` and a time without seconds. -/
def dateTimeToMinute? (t : Text) : Option (Date × Text) := do
  let (date, t) ← date? t
  let t ← mark? 'T' t
  let ((hour, minute), t) ← hourMinute? t
  let _ ← timeOfDay? hour minute 0 0
  return (date, t)

/-- A date, a mark `T` and a time with seconds. -/
def dateTime? (t : Text) : Option (Date × Text) := do
  let (date, t) ← date? t
  let t ← mark? 'T' t
  let (_, t) ← time? t
  return (date, t)

/-- A date, a time and an offset with every number at full width, as RFC 3339
has them. -/
def rfc3339? (t : Text) : Option ((Date × TimeOfDay × Int) × Text) := do
  let (year, t) ← digits? 4 4 t
  let t ← mark? '-' t
  let (month, t) ← digits? 2 2 t
  let t ← mark? '-' t
  let (day, t) ← digits? 2 2 t
  let date ← Date.of? year month day
  let t ← mark? 'T' t <|> mark? 't' t <|> mark? ' ' t
  let (hour, t) ← digits? 2 2 t
  let t ← mark? ':' t
  let (minute, t) ← digits? 2 2 t
  let t ← mark? ':' t
  let (second, t) ← digits? 2 2 t
  let (nanos, t) ← fraction? t
  let time ← timeOfDay? hour minute second nanos
  let (offset, t) ← offset? (mark? ':') t
  return ((date, time, offset), t)

/-- As `year-month-day`, with blanks also before the dashes. -/
def looseDate? (t : Text) : Option (Date × Text) := do
  let (year, t) ← year? t
  let t ← mark? '-' (Text.trimStart t)
  let (month, t) ← short? t
  let t ← mark? '-' (Text.trimStart t)
  let (day, t) ← short? t
  let date ← Date.of? year month day
  return (date, t)

/-- As `hour:minute:second`, with blanks also before the colons. -/
def looseTime? (t : Text) : Option (TimeOfDay × Text) := do
  let (hour, t) ← short? t
  let t ← mark? ':' (Text.trimStart t)
  let (minute, t) ← short? t
  let t ← mark? ':' (Text.trimStart t)
  let (second, t) ← short? t
  let (nanos, t) ← fraction? t
  let time ← timeOfDay? hour minute second nanos
  return (time, t)

/-- The zone of a loose instant: the name `UTC` in any case, or an offset whose
separator is any run of colons and blanks. -/
def looseZone? (t : Text) : Option (Int × Text) :=
  if Text.asciiLower (t.take 3) = "utc" then some (0, t.drop 3)
  else offset? (fun r => some (r.dropWhile fun c => c == ':' || isBlank c)) t

/-- A date, a time and a zone in the loose form, blanks after it included. -/
def looseRfc3339? (t : Text) : Option ((Date × TimeOfDay × Int) × Text) := do
  let (date, t) ← looseDate? t
  let t ← mark? 'T' t <|> mark? 't' t <|> mark? ' ' t
  let (time, t) ← looseTime? t
  let (offset, t) ← looseZone? (Text.trimStart t)
  return ((date, time, offset), Text.trimStart t)

end Reading

open Reading

/-- Reads a date in one of its ISO 8601 forms: a date alone, RFC 3339, or a date
and a time without an offset. The date is the written one, whatever the offset. -/
def Date.ofIso? (t : Text) : Option Date :=
  all? (date? t)
    <|> (all? (rfc3339? t)).map (·.1)
    <|> all? (dateTime? t)
    <|> all? (dateTimeToMinute? t)

namespace Instant

/-- The instant of a date, a time and an offset, if the calendar supports its year
in coordinated universal time. -/
def ofParts? (parts : Date × TimeOfDay × Int) : Option Instant :=
  let instant := of parts.1 parts.2.1 parts.2.2
  instant.date?.map fun _ => instant

/-- Reads an instant written as RFC 3339 has it. -/
def ofRfc3339? (t : Text) : Option Instant := all? (rfc3339? t) >>= ofParts?

/-- Reads an instant written as RFC 3339 has it or more loosely: short numbers,
signed years, and blanks between the parts. -/
def ofLooseRfc3339? (t : Text) : Option Instant := all? (looseRfc3339? t) >>= ofParts?

end Instant

end MailMerge
