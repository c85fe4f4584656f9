import MailMerge.Calendar.Reading
import MailMerge.Field.Value
import MailMerge.Markup.Escape

/-!
# Formatting fields

How a field is put into a copy: dates are written `DD.MM.YYYY`, markup is escaped,
and line feeds become line breaks. Formatting never fails: what does not fit its
format is passed on as it is.

* `formatSerialDate` and `formatIsoDate` write the two kinds of dates;
* `renderValue` formats, escapes and breaks a value;
* `FormatRules.dateFormat?` says how the fields of a name are formatted.
-/

namespace MailMerge

/-- The **kind of date** that a field holds: the day count of a spreadsheet, or
ISO 8601 text. -/
inductive DateFormat where
  | serialDate
  | isoDate
  deriving DecidableEq, Repr

namespace DateFormat

/-- The name of a format. -/
def name : DateFormat → Text
  | .serialDate => "serial-date"
  | .isoDate => "iso-date"

/-- The format of a name. -/
def ofName? (t : Text) : Option DateFormat :=
  if t = "serial-date" then some .serialDate
  else if t = "iso-date" then some .isoDate
  else none

end DateFormat

/-- The **rules of formatting**: the names of the fields that hold dates, and
whether line feeds become line breaks. -/
structure FormatRules where
  serialDateFields : List Text
  isoDateFields : List Text
  lineBreaks : Bool
  deriving DecidableEq, Repr

namespace FormatRules

/-- The date format of the fields of a name. A name in both lists holds day
counts. -/
def dateFormat? (rules : FormatRules) (name : Text) : Option DateFormat :=
  if rules.serialDateFields.contains name then some .serialDate
  else if rules.isoDateFields.contains name then some .isoDate
  else none

/-- The rules that format nothing. -/
def plain : FormatRules := ⟨[], [], false⟩

end FormatRules

/-- The day count of a spreadsheet on 1970-01-01. -/
def serialEpoch : Int := 25569

/-- The date of a day count. The fraction is the time of day. -/
def dateOfSerial? (serial : Binary64) : Option Date :=
  serial.floor? >>= fun days => Date.ofDayNumber? (days - serialEpoch)

/-- A day count as `DD.MM.YYYY`. A text may hold the number; anything that is no day
count is passed on. -/
def formatSerialDate (value : FieldValue) : Text :=
  let serial? :=
    match value with
    | .number x => some x
    | .text t => Binary64.ofText? (Text.trim t)
    | .empty => none
  match serial? >>= dateOfSerial? with
  | some date => date.dotted
  | none => value.toText

/-- What is written for a text that is no ISO 8601 date. -/
def invalidDate : Text := "Invalid Date"

/-- An ISO 8601 date or date with time as `DD.MM.YYYY`. Blank text stays empty. -/
def formatIsoDate (t : Text) : Text :=
  let trimmed := Text.trim t
  if trimmed.isEmpty then []
  else
    match Date.ofIso? trimmed with
    | some date => date.dotted
    | none => invalidDate

/-- The text of a value in a format, before escaping. -/
def formatValue (value : FieldValue) : Option DateFormat → Text
  | some .serialDate => formatSerialDate value
  | some .isoDate => formatIsoDate value.toText
  | none => value.toText

/-- A value as it is put into markup. -/
def renderValue (rules : FormatRules) (value : FieldValue) (format : Option DateFormat) : Text :=
  let escaped := escapeMarkup (formatValue value format)
  if rules.lineBreaks then withLineBreaks escaped else escaped

/-- A field as it is put into markup, in the format of its name. -/
def renderField (rules : FormatRules) (name : Text) (value : FieldValue) : Text :=
  renderValue rules value (rules.dateFormat? name)

end MailMerge
