import MailMerge.Field.Value

/-!
# Records

A **record** maps field names to values and keeps the order in which the names
first appeared. A **shared context** is a record for all copies together with the
names that no single record may override.

* `Record.insert` sets a field, `Record.get?` reads it;
* `Record.listOfJson?` reads a list of records from JSON text.
-/

namespace MailMerge

/-- A **record**: the fields of one row, in the order of its columns. -/
structure Record where
  fields : List (Text × FieldValue)
  deriving DecidableEq, Repr

namespace Record

/-- The record without fields. -/
def empty : Record := ⟨[]⟩

/-- Sets a field. A name that is there keeps its place. -/
def insert (r : Record) (name : Text) (value : FieldValue) : Record :=
  ⟨upsert name value r.fields⟩

/-- The value of a field. -/
def get? (r : Record) (name : Text) : Option FieldValue := r.fields.lookup name

/-- The record of the members of a JSON object. -/
def ofFields (fields : List (Text × Json)) : Record :=
  fields.foldl (fun r f => r.insert f.1 (.ofJson f.2)) empty

/-- The record of a JSON object. -/
def ofJson? (value : Json) : Option Record := value.fields?.map ofFields

/-- Reads a record from JSON text. -/
def ofText? (t : Text) : Option Record := Json.ofText? t >>= ofJson?

/-- Reads a list of records from JSON text. -/
def listOfText? (t : Text) : Option (List Record) :=
  Json.ofText? t >>= Json.items? >>= fun items => items.mapM ofJson?

end Record

/-- A **shared context**: values common to all copies, and the reserved names, which
a field of a record does not override. -/
structure SharedContext where
  values : Record
  reserved : List Text
  deriving DecidableEq, Repr

namespace SharedContext

/-- The context without values. -/
def empty : SharedContext := ⟨.empty, []⟩

/-- Sets a shared value. -/
def insert (s : SharedContext) (name : Text) (value : FieldValue) : SharedContext :=
  { s with values := s.values.insert name value }

/-- Reserves names. -/
def reserve (s : SharedContext) (names : List Text) : SharedContext :=
  { s with reserved := s.reserved ++ names }

/-- The shared value of a name. -/
def get? (s : SharedContext) (name : Text) : Option FieldValue := s.values.get? name

/-- Whether a name is reserved. -/
def isReserved (s : SharedContext) (name : Text) : Bool := s.reserved.contains name

/-- Whether a field of a record gives way to the shared value of its name. -/
def shadows (s : SharedContext) (name : Text) : Bool :=
  s.isReserved name && (s.get? name).isSome

end SharedContext

end MailMerge
