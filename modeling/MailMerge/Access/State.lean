import MailMerge.Access.Gate
import MailMerge.Calendar.Reading
import MailMerge.Json.Printer
import MailMerge.Json.Reader

/-!
# The written state of the gate

The gate is kept as a JSON object of its attempts and the end of its lock.

* `AccessGate.toText` writes the state;
* `AccessGate.ofText?` reads it. Members of other names are passed over, and so is what
  they hold.
-/

namespace MailMerge

namespace AccessGate

/-- The name of the member that holds the attempts. -/
def attemptsName : Text := "attempts"

/-- The name of the member that holds the end of the lock. -/
def lockedUntilName : Text := "locked_until"

/-! ### Writing -/

/-- The end of a lock as it is written. -/
def endingText (ending : Instant) : Text := ending.rfc3339 "Z"

/-- The state as JSON. -/
def toJson (gate : AccessGate) : Json :=
  .object ((attemptsName, .number (.integer gate.attempts.toNat)) ::
    match gate.lockedUntil with
    | some ending => [(lockedUntilName, .string (endingText ending))]
    | none => [])

/-- The state **as text**. -/
def toText (gate : AccessGate) : Text := gate.toJson.pretty 0

/-! ### Reading -/

/-- The attempts that a value holds: a whole number of 32 bits. -/
def attemptsOf? : JsonNode → Option UInt32
  | .number numeral =>
    match numeral.value? with
    | some (.integer n) =>
      if 0 ≤ n ∧ n.toNat < UInt32.size then some (UInt32.ofNat n.toNat) else none
    | _ => none
  | _ => none

/-- The end of a lock that a value holds, or that there is none. -/
def lockedUntilOf? : JsonNode → Option (Option Instant)
  | .null => some none
  | .string body => (JsonNode.unescape? body >>= Instant.ofLooseRfc3339?).map some
  | _ => none

/-- The only value of a name in a list of members, or none. A name that occurs twice is
refused. -/
def single? (name : Text) (members : List (Text × JsonNode)) : Option (Option JsonNode) :=
  match members.filter fun m => m.1 == name with
  | [] => some none
  | [m] => some (some m.2)
  | _ => none

/-- The names of members, unescaped. -/
def named? (members : List (Text × JsonNode)) : Option (List (Text × JsonNode)) :=
  members.mapM fun m => (JsonNode.unescape? m.1).map fun name => (name, m.2)

/-- The state that the members of an object hold. The attempts must be given. -/
def ofMembers? (members : List (Text × JsonNode)) : Option AccessGate := do
  let members ← named? members
  let attempts ← (← single? attemptsName members) >>= attemptsOf?
  let lockedUntil ←
    match ← single? lockedUntilName members with
    | some value => lockedUntilOf? value
    | none => some none
  return ⟨attempts, lockedUntil⟩

/-- The state that a value holds: an object, or a list of the attempts and the end of the
lock. -/
def ofNode? : JsonNode → Option AccessGate
  | .object members => ofMembers? members
  | .array [attempts] => (attemptsOf? attempts).map fun n => ⟨n, none⟩
  | .array [attempts, ending] => do
    let attempts ← attemptsOf? attempts
    let lockedUntil ← lockedUntilOf? ending
    return ⟨attempts, lockedUntil⟩
  | _ => none

/-- Reads the state from a **text**. -/
def ofText? (t : Text) : Option AccessGate := JsonNode.ofText? t >>= ofNode?

end AccessGate

end MailMerge
