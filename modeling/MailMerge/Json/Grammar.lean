import MailMerge.Text.Basic

/-!
# The grammar of JSON

Reading a JSON text takes two steps. This module does the first: it recognises
the grammar and keeps numerals and strings as they are written. What they mean is
decided afterwards, and only for the parts that are looked at: a part that nobody
asks for may hold a number beyond all bounds or an unpaired surrogate.

* `JsonNode` is a recognised value, `JsonNumeral` a recognised number;
* `JsonNode.ofText?` recognises a whole text.
-/

namespace MailMerge

/-- A **numeral** as it is written: sign, digits before and behind the point, and
the exponent with its sign, if there are such. -/
structure JsonNumeral where
  negative : Bool
  whole : Text
  fraction : Option Text
  exponent : Option (Bool × Text)
  deriving DecidableEq, Repr

/-- A **recognised value**. Strings and names are kept as they stand between
their quotes. -/
inductive JsonNode where
  | null
  | bool (value : Bool)
  | number (numeral : JsonNumeral)
  | string (body : Text)
  | array (items : List JsonNode)
  | object (members : List (Text × JsonNode))
  deriving Inhabited

namespace JsonNode

/-- Whether a character is a blank of the grammar. -/
def isGap (c : Char) : Bool := c == ' ' || c == '\n' || c == '\t' || c == '\r'

/-- A text without the blanks at its start. -/
def skipGaps (t : Text) : Text := t.dropWhile isGap

/-- A character of the sixteen hexadecimal digits. -/
def isHexDigit (c : Char) : Bool := (Text.digitValue? 16 c).isSome

/-- Reads the body of a string up to its closing quote, and hands back what
follows. Control characters must be escaped, and escapes must be known. -/
def stringBody? : Text → Option (Text × Text)
  | [] => none
  | '"' :: t => some ([], t)
  | '\\' :: 'u' :: a :: b :: c :: d :: t =>
    if [a, b, c, d].all isHexDigit then
      (stringBody? t).map fun p => ('\\' :: 'u' :: a :: b :: c :: d :: p.1, p.2)
    else none
  | '\\' :: e :: t =>
    if e ∈ ['"', '\\', '/', 'b', 'f', 'n', 'r', 't'] then
      (stringBody? t).map fun p => ('\\' :: e :: p.1, p.2)
    else none
  | c :: t =>
    if c.toNat < 32 ∨ c = '\\' then none else (stringBody? t).map fun p => (c :: p.1, p.2)

/-- The run of digits at the head of a text. -/
def digitRun (t : Text) : Text × Text := (t.takeWhile Char.isDigit, t.dropWhile Char.isDigit)

/-- Reads the fraction of a numeral, if a point announces one. -/
def fraction? : Text → Option (Option Text × Text)
  | '.' :: t =>
    let (digits, rest) := digitRun t
    if digits.isEmpty then none else some (some digits, rest)
  | t => some (none, t)

/-- Reads the exponent of a numeral, if a mark announces one. -/
def exponent? : Text → Option (Option (Bool × Text) × Text)
  | [] => some (none, [])
  | c :: t =>
    if c = 'e' ∨ c = 'E' then
      let (negative, t) :=
        match t with
        | '-' :: r => (true, r)
        | '+' :: r => (false, r)
        | r => (false, r)
      let (digits, rest) := digitRun t
      if digits.isEmpty then none else some (some (negative, digits), rest)
    else some (none, c :: t)

/-- Reads a numeral. A zero before the point stands alone. -/
def numeral? (t : Text) : Option (JsonNumeral × Text) := do
  let (negative, t) :=
    match t with
    | '-' :: r => (true, r)
    | r => (false, r)
  let (whole, t) := digitRun t
  if whole.isEmpty || (whole.head? == some '0' && whole.length != 1) then none
  else
    let (fraction, t) ← fraction? t
    let (exponent, t) ← exponent? t
    return (⟨negative, whole, fraction, exponent⟩, t)

mutual

/-- Reads a value after blanks. The first argument bounds the number of steps. -/
def read? : Nat → Text → Option (JsonNode × Text)
  | 0, _ => none
  | steps + 1, t =>
    match skipGaps t with
    | 'n' :: 'u' :: 'l' :: 'l' :: r => some (.null, r)
    | 't' :: 'r' :: 'u' :: 'e' :: r => some (.bool true, r)
    | 'f' :: 'a' :: 'l' :: 's' :: 'e' :: r => some (.bool false, r)
    | '"' :: r => (stringBody? r).map fun p => (.string p.1, p.2)
    | '[' :: r =>
      match skipGaps r with
      | ']' :: r => some (.array [], r)
      | r => (readItems? steps r).map fun p => (.array p.1, p.2)
    | '{' :: r =>
      match skipGaps r with
      | '}' :: r => some (.object [], r)
      | r => (readMembers? steps r).map fun p => (.object p.1, p.2)
    | r => (numeral? r).map fun p => (.number p.1, p.2)

/-- Reads the elements of an array and its closing bracket. -/
def readItems? : Nat → Text → Option (List JsonNode × Text)
  | 0, _ => none
  | steps + 1, t =>
    match read? steps t with
    | none => none
    | some (item, r) =>
      match skipGaps r with
      | ']' :: r => some ([item], r)
      | ',' :: r => (readItems? steps r).map fun p => (item :: p.1, p.2)
      | _ => none

/-- Reads the members of an object and its closing brace. -/
def readMembers? : Nat → Text → Option (List (Text × JsonNode) × Text)
  | 0, _ => none
  | steps + 1, t =>
    match skipGaps t with
    | '"' :: r =>
      match stringBody? r with
      | none => none
      | some (name, r) =>
        match skipGaps r with
        | ':' :: r =>
          match read? steps r with
          | none => none
          | some (value, r) =>
            match skipGaps r with
            | '}' :: r => some ([(name, value)], r)
            | ',' :: r => (readMembers? steps r).map fun p => ((name, value) :: p.1, p.2)
            | _ => none
        | _ => none
    | _ => none

end

/-- Recognises a whole text, blanks around the value included. Each step reads at
least one character, so that twice the length bounds their number. -/
def ofText? (t : Text) : Option JsonNode :=
  match read? (2 * t.length + 2) t with
  | some (node, rest) => if (skipGaps rest).isEmpty then some node else none
  | none => none

end JsonNode

end MailMerge
