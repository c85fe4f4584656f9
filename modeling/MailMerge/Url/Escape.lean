import MailMerge.Text.Utf8

/-!
# Escapes in URLs

A character that may not stand in a part of a URL is written as its bytes, each a percent
sign and two hexadecimal digits.

* `percentEncode` escapes the characters of a text that a part does not admit;
* `percentDecode` reads escapes.
-/

namespace MailMerge

/-- Two hexadecimal capitals behind a percent sign. -/
def percentByte (b : UInt8) : Text :=
  let digit (n : Nat) := (Nat.digitChar n).toUpper
  ['%', digit (b.toNat / 16), digit (b.toNat % 16)]

/-- A text with some of its characters escaped. -/
def percentEncode (isEscaped : Char → Bool) (t : Text) : Text :=
  t.flatMap fun c => if isEscaped c then (Text.toUtf8 [c]).flatMap percentByte else [c]

namespace UrlPart

/-- Control characters and all that is not ASCII are escaped everywhere. -/
def isControl (c : Char) : Bool := c.toNat < 0x20 || 0x7F ≤ c.toNat

/-- Whether a character is one of some others. -/
def isOneOf (others : Text) (c : Char) : Bool := others.elem c

/-- What is escaped in a fragment. -/
def inFragment (c : Char) : Bool := isControl c || isOneOf " \"<>`" c

/-- What is escaped in a path. -/
def inPath (c : Char) : Bool := inFragment c || isOneOf "#?\x7b\x7d" c

/-- What is escaped in a name or password. -/
def inUser (c : Char) : Bool := inPath c || isOneOf "/:;=@[\\]^|" c

/-- What is escaped in a query. -/
def inQuery (c : Char) : Bool := isControl c || isOneOf " \"#<>" c

/-- What is escaped in the query of a web address. -/
def inWebQuery (c : Char) : Bool := inQuery c || c == '\''

end UrlPart

/-- The value of a hexadecimal digit in bytes. -/
def hexByte? (b : UInt8) : Option Nat := Text.digitValue? 16 (Char.ofNat b.toNat)

/-- Reads escapes. A percent sign without two digits stands for itself. -/
def percentDecode : Bytes → Bytes
  | [] => []
  | 0x25 :: a :: b :: rest =>
    match hexByte? a, hexByte? b with
    | some high, some low => UInt8.ofNat (16 * high + low) :: percentDecode rest
    | _, _ => 0x25 :: percentDecode (a :: b :: rest)
  | b :: rest => b :: percentDecode rest

end MailMerge
