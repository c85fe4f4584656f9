import MailMerge.Json.Printer
import MailMerge.Json.Reader

/-!
# Field values

A record holds one value for each of its fields: a text, a number, or nothing.

* `FieldValue.ofJson` makes a field of a JSON value;
* `FieldValue.toText` is the text of a field before any formatting.
-/

namespace MailMerge

/-- The **value of a field**, as it stands in a cell of a table or a form. -/
inductive FieldValue where
  | text (content : Text)
  | number (value : Binary64)
  | empty
  deriving DecidableEq, Repr

namespace FieldValue

/-- The field of a JSON value. Truth values become their names, and arrays and
objects, which a flat record has no place for, their JSON text. -/
def ofJson : Json → FieldValue
  | .null => .empty
  | .bool true => .text "true"
  | .bool false => .text "false"
  | .number n => .number n.toBinary64
  | .string t => .text t
  | value => .text value.compact

/-- The text of a field: numbers as a spreadsheet cell shows them. -/
def toText : FieldValue → Text
  | .text t => t
  | .number x => x.formatted
  | .empty => []

end FieldValue

end MailMerge
