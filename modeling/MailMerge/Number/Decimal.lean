import MailMerge.Number.Shortest

/-!
# Decimal text of numbers

How a number is written in a document, and how a text is read as a number.

* `Binary64.toText` writes the shortest decimal positionally, never with an
  exponent, and the not-finite numbers by name;
* `Binary64.formatted` writes a number the way a spreadsheet cell shows it;
* `Binary64.ofText?` reads a decimal with optional sign, fraction and exponent,
  or one of the names.
-/

namespace MailMerge

namespace Decimal

/-- A decimal written positionally: digits, a point where needed, and zeros on
either side, but no exponent. -/
def positional (d : Decimal) : Text :=
  let digits := Text.ofNat d.digits
  if 0 ≤ d.exponent then digits ++ List.replicate d.exponent.toNat '0'
  else
    let places := (-d.exponent).toNat
    if places < digits.length then
      digits.take (digits.length - places) ++ "." ++ digits.drop (digits.length - places)
    else "0." ++ List.replicate (places - digits.length) '0' ++ digits

end Decimal

namespace Binary64

/-- A minus sign for negative numbers. -/
def signText ( negative : Bool) : Text := if negative then "-" else []

/-- The text of a number: the shortest digits that read back, written
positionally. Negative zero keeps its sign. -/
def toText : Binary64 → Text
  | .nan => "NaN"
  | .infinite negative => signText negative ++ "inf"
  | .finite negative m e =>
    signText negative ++ if m = 0 then ['0'] else (shortestDecimal .up m e).positional

/-- The text of a number as a spreadsheet cell shows it: a whole number below
`10 ^ 15` in magnitude is written as an integer, so that negative zero is `0`; all
others are written by `toText`. -/
def formatted (x : Binary64) : Text :=
  match x.toInt? with
  | some n => if n.natAbs < 1000000000000000 then Text.ofInt n else x.toText
  | none => x.toText

/-! ### Reading -/

/-- The decimal exponent after a mantissa: empty, or a mark, an optional sign and
at least one digit. -/
def readExponent? : Text → Option Int
  | [] => some 0
  | c :: t =>
    if c = 'e' ∨ c = 'E' then
      let (negative, digits) :=
        match t with
        | '-' :: r => (true, r)
        | '+' :: r => (false, r)
        | r => (false, r)
      if digits.isEmpty || !digits.all Char.isDigit then none
      else
        let value : Int := Text.digitsValue digits
        some (if negative then -value else value)
    else none

/-- Reads an unsigned decimal: digits with an optional point among them, at least
one digit in all, and an optional exponent. -/
def readDecimal? ( negative : Bool) (t : Text) : Option Binary64 :=
  let whole := t.takeWhile Char.isDigit
  let rest := t.dropWhile Char.isDigit
  let (fraction, rest) :=
    match rest with
    | '.' :: r => (r.takeWhile Char.isDigit, r.dropWhile Char.isDigit)
    | r => ([], r)
  if whole.isEmpty && fraction.isEmpty then none
  else
    (readExponent? rest).map fun exponent =>
      ofDecimal negative (Text.digitsValue (whole ++ fraction)) (exponent - fraction.length)

/-- Reads a number: an optional sign, then a decimal or one of the names `inf`,
`infinity` and `nan` in any case. -/
def ofText? (t : Text) : Option Binary64 :=
  let (negative, magnitude) :=
    match t with
    | '-' :: r => (true, r)
    | '+' :: r => (false, r)
    | r => (false, r)
  let name := Text.asciiLower magnitude
  if name = "inf" ∨ name = "infinity" then some (.infinite negative)
  else if name = "nan" then some .nan
  else readDecimal? negative magnitude

end Binary64

end MailMerge
