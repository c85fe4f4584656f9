import MailMerge.Number.Decimal

/-!
# JSON values

Records, shared values and state files come as JSON. Objects keep the order in
which their names first appear, and a repeated name replaces the earlier value
where it stands. Whole numbers that fit into 64 bits are kept exactly; all other
numbers are binary floating point.

* `Json` is the type of values, and `Json.field?` looks a name up in an object;
* `Json.object` of a list of pairs is built by `Json.ofFields`.
-/

namespace MailMerge

/-- A **number** as a JSON text holds it: an integer of 64 bits, signed or
unsigned, or else a floating point number. -/
inductive JsonNumber where
  | integer (value : Int)
  | float (value : Binary64)
  deriving DecidableEq, Repr

/-- The floating point number nearest to a number. -/
def JsonNumber.toBinary64 : JsonNumber → Binary64
  | .integer n => if n < 0 then (Binary64.ofNat n.natAbs).neg else Binary64.ofNat n.toNat
  | .float x => x

/-- A **JSON value**. -/
inductive Json where
  | null
  | bool (value : Bool)
  | number (value : JsonNumber)
  | string (value : Text)
  | array (items : List Json)
  | object (fields : List (Text × Json))
  deriving Inhabited

namespace Json

/-- The object of a list of fields: of several fields of one name the last gives
the value and the first the place. -/
def ofFields (fields : List (Text × Json)) : Json :=
  .object (fields.foldl (fun table f => upsert f.1 f.2 table) [])

/-- The value of a field of an object. -/
def field? (name : Text) : Json → Option Json
  | .object fields => fields.lookup name
  | _ => none

/-- The text that a value is, if it is one. -/
def text? : Json → Option Text
  | .string t => some t
  | _ => none

/-- The truth value that a value is, if it is one. -/
def bool? : Json → Option Bool
  | .bool b => some b
  | _ => none

/-- The integer that a value is, if it is one. -/
def integer? : Json → Option Int
  | .number (.integer n) => some n
  | _ => none

/-- The elements of an array. -/
def items? : Json → Option (List Json)
  | .array items => some items
  | _ => none

/-- The fields of an object. -/
def fields? : Json → Option (List (Text × Json))
  | .object fields => some fields
  | _ => none

end Json

end MailMerge
