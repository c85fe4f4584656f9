import MailMerge.Json.Basic
import MailMerge.Json.Grammar

/-!
# Reading JSON

The meaning of recognised JSON, and the reader that puts both steps together.

* `JsonNumeral.value?` gives a numeral its number. Numerals with a point or an
  exponent are computed from the leading digits of the significand that fit into
  64 bits and one multiplication or division by a power of ten, which may differ
  from the nearest number in the last place;
* `JsonNode.unescape?` gives a string its text;
* `Json.ofText?` reads a text. Values nested deeper than `maxDepth` are refused.
-/

namespace MailMerge

namespace JsonNumeral

/-- Appends digits to a significand as long as it fits into 64 bits, and counts
those appended. -/
def absorb (significand : Nat) : Text → Nat × Nat
  | [] => (significand, 0)
  | c :: t =>
    let next := 10 * significand + Text.digitsValue [c]
    if UInt64.size ≤ next then (significand, 0)
    else
      let (value, count) := absorb next t
      (value, count + 1)

/-- Divides by a power of ten, in steps of at most `10 ^ 308`. -/
def scaleDown (x : Binary64) (n : Nat) : Binary64 :=
  if n ≤ 308 then x.div (.ofDecimal false 1 n)
  else if x = .zero false then x
  else scaleDown (x.div (.ofDecimal false 1 308)) (n - 308)
termination_by n

/-- The significand times a power of ten, if it is finite. -/
def scale? (significand : Nat) (exponent : Int) : Option Binary64 :=
  let x := Binary64.ofNat significand
  if exponent < 0 then some (scaleDown x exponent.natAbs)
  else if 308 < exponent then if significand = 0 then some x else none
  else
    let y := x.mul (.ofDecimal false 1 exponent)
    if y.isInfinite then none else some y

/-- The value of the exponent of a numeral. Exponents of 32 bits or more are not
told apart: upwards only zero stays finite, and downwards all is zero. -/
def scaled? (significand : Nat) (shift : Int) : Option (Bool × Text) → Option Binary64
  | none => scale? significand shift
  | some (negative, digits) =>
    let value := Text.digitsValue digits
    if 2147483648 ≤ value then
      if significand ≠ 0 ∧ !negative then none else some (.zero false)
    else scale? significand (if negative then shift - value else shift + value)

/-- The **number of a numeral**: an integer if it is written as one and fits into
64 bits, else a floating point number, if it is finite. Minus zero is a floating
point number. -/
def value? (n : JsonNumeral) : Option JsonNumber :=
  let (significand, count) := absorb 0 n.whole
  let shift : Int := n.whole.length - count
  match n.fraction, n.exponent with
  | none, none =>
    if shift = 0 ∧ (!n.negative ∨ (significand ≠ 0 ∧ significand ≤ 9223372036854775808)) then
      some (.integer (if n.negative then -significand else significand))
    else signed (scale? significand shift)
  | fraction, exponent =>
    let (significand, count) := absorb significand (fraction.getD [])
    signed (scaled? significand (shift - count) exponent)
where
  /-- The floating point number with the sign of the numeral. -/
  signed (x : Option Binary64) : Option JsonNumber :=
    x.map fun x => .float (if n.negative then x.neg else x)

end JsonNumeral

namespace JsonNode

/-- The number that hexadecimal digits spell. -/
def hexValue (t : Text) : Nat :=
  t.foldl (fun n c => 16 * n + (Text.digitValue? 16 c).getD 0) 0

/-- The text of a string body: its escapes resolved, surrogates in pairs. -/
def unescape? : Text → Option Text
  | [] => some []
  | '\\' :: 'u' :: a :: b :: c :: d :: t =>
    let unit := hexValue [a, b, c, d]
    if 0xDC00 ≤ unit ∧ unit ≤ 0xDFFF then none
    else if 0xD800 ≤ unit ∧ unit ≤ 0xDBFF then
      match t with
      | '\\' :: 'u' :: e :: f :: g :: h :: t =>
        let low := hexValue [e, f, g, h]
        if 0xDC00 ≤ low ∧ low ≤ 0xDFFF then
          (unescape? t).map fun r =>
            Char.ofNat (0x10000 + (unit - 0xD800) * 0x400 + (low - 0xDC00)) :: r
        else none
      | _ => none
    else (unescape? t).map (Char.ofNat unit :: ·)
  | '\\' :: e :: t =>
    (unescape? t).map
      ((match e with
        | 'b' => '\x08'
        | 'f' => '\x0c'
        | 'n' => '\n'
        | 'r' => '\r'
        | 't' => '\t'
        | e => e) :: ·)
  | c :: t => (unescape? t).map (c :: ·)

/-- The greatest number of containers around a value. -/
def maxDepth : Nat := 127

mutual

/-- The value of a recognised value, nested at most `depth` containers deep. -/
def value? (depth : Nat) : JsonNode → Option Json
  | .null => some .null
  | .bool b => some (.bool b)
  | .number numeral => numeral.value?.map .number
  | .string body => (unescape? body).map .string
  | .array items =>
    match depth with
    | 0 => none
    | depth + 1 => (values? depth items).map .array
  | .object members =>
    match depth with
    | 0 => none
    | depth + 1 => (fields? depth members).map Json.ofFields

/-- The values of the elements of an array. -/
def values? (depth : Nat) : List JsonNode → Option (List Json)
  | [] => some []
  | item :: items => do
    let value ← value? depth item
    let values ← values? depth items
    return value :: values

/-- The values of the members of an object. -/
def fields? (depth : Nat) : List (Text × JsonNode) → Option (List (Text × Json))
  | [] => some []
  | (name, node) :: members => do
    let name ← unescape? name
    let value ← value? depth node
    let fields ← fields? depth members
    return (name, value) :: fields

end

end JsonNode

/-- Reads a JSON text. -/
def Json.ofText? (t : Text) : Option Json :=
  JsonNode.ofText? t >>= JsonNode.value? JsonNode.maxDepth

end MailMerge
