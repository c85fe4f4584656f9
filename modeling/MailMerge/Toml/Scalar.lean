import MailMerge.Toml.Basic
import MailMerge.Toml.Token

/-!
# Numbers and moments of TOML

* `TomlScalar.moment?` reads dates and times of day;
* `TomlScalar.float?` and `TomlScalar.integer?` read numbers;
* `TomlScalar.scalar?` reads whichever of them comes first, or a truth value.
-/

namespace MailMerge

namespace TomlScalar

/-! ### Digits -/

/-- Digits behind a first one, with single underscores between digits dropped. -/
def moreDigits (isDigit : Char → Bool) : Text → Text × Text
  | '_' :: c :: t =>
    if isDigit c then
      let (digits, rest) := moreDigits isDigit t
      (c :: digits, rest)
    else ([], '_' :: c :: t)
  | c :: t =>
    if isDigit c then
      let (digits, rest) := moreDigits isDigit t
      (c :: digits, rest)
    else ([], c :: t)
  | [] => ([], [])

/-- One digit or more, with single underscores between them. -/
def digits? (isDigit : Char → Bool) : Text → Option (Text × Text)
  | c :: t =>
    if isDigit c then
      let (digits, rest) := moreDigits isDigit t
      some (c :: digits, rest)
    else none
  | [] => none

/-- A sign, and what follows it. Without one a number is not negative. -/
def sign : Text → Bool × Text
  | '-' :: t => (true, t)
  | '+' :: t => (false, t)
  | t => (false, t)

/-- Decimal digits that do not begin with a zero, or a single zero. -/
def whole? (t : Text) : Option (Text × Text) :=
  match t with
  | '0' :: rest => some (['0'], rest)
  | t => digits? Char.isDigit t

/-- The number that digits of a base spell. -/
def valueIn (base : Nat) (digits : Text) : Nat :=
  digits.foldl (fun n c => base * n + (Text.digitValue? base c).getD 0) 0

/-! ### Integers -/

/-- A number that fits into 64 bits with a sign. -/
def fitted? (n : Int) : Option Int :=
  if -9223372036854775808 ≤ n ∧ n ≤ 9223372036854775807 then some n else none

/-- Reads an integer whose base stands behind a zero at its head. -/
def based? (base : Nat) (t : Text) : Option (Int × Text) := do
  let (digits, rest) ← digits? (fun c => (Text.digitValue? base c).isSome) t
  let n ← fitted? (valueIn base digits)
  return (n, rest)

/-- Reads an **integer**. -/
def integer? : Text → Option (Int × Text)
  | '0' :: 'x' :: t => based? 16 t
  | '0' :: 'o' :: t => based? 8 t
  | '0' :: 'b' :: t => based? 2 t
  | t => do
    let (isNegative, t) := sign t
    let (digits, rest) ← whole? t
    let n : Int := valueIn 10 digits
    let n ← fitted? (if isNegative then -n else n)
    return (n, rest)

/-! ### Floats -/

/-- Reads a fraction with its point. -/
def fraction? : Text → Option (Text × Text)
  | '.' :: t => (digits? Char.isDigit t).map fun p => ('.' :: p.1, p.2)
  | _ => none

/-- Reads an exponent with its mark. -/
def exponent? : Text → Option (Text × Text)
  | c :: t =>
    if c = 'e' ∨ c = 'E' then
      let (isNegative, t) := sign t
      (digits? Char.isDigit t).map fun p =>
        ((if isNegative then ['e', '-'] else ['e']) ++ p.1, p.2)
    else none
  | [] => none

/-- Reads a number with a fraction or an exponent. It must not be too great. -/
def decimal? (t : Text) : Option (Binary64 × Text) := do
  let (isNegative, t) := sign t
  let (digits, rest) ← whole? t
  let (tail, rest) ←
    match fraction? rest with
    | some (fraction, rest) =>
      match exponent? rest with
      | some (exponent, rest) => some (fraction ++ exponent, rest)
      | none => some (fraction, rest)
    | none => exponent? rest
  let x ← Binary64.ofText? ((if isNegative then ['-'] else []) ++ digits ++ tail)
  if x.isInfinite && !isNegative then none else return (x, rest)

/-- Reads a float that has a name. -/
def named? (t : Text) : Option (Binary64 × Text) :=
  let (isNegative, t) := sign t
  match Text.dropPrefix? "inf" t, Text.dropPrefix? "nan" t with
  | some rest, _ => some (.infinite isNegative, rest)
  | none, some rest => some (.nan, rest)
  | none, none => none

/-- Reads a **float**. -/
def float? (t : Text) : Option (Binary64 × Text) := decimal? t <|> named? t

/-! ### Moments -/

/-- Reads a number of exactly `count` digits that is within bounds. -/
def field? (count least most : Nat) (t : Text) : Option (Nat × Text) :=
  let digits := t.take count
  if digits.length = count ∧ digits.all Char.isDigit ∧ least ≤ Text.digitsValue digits ∧
      Text.digitsValue digits ≤ most then
    some (Text.digitsValue digits, t.drop count)
  else none

/-- What follows a mark. -/
def mark? (marks : Text) : Text → Option Text
  | c :: t => if marks.elem c then some t else none
  | [] => none

/-- The number of days of a month. -/
def daysOf (year month : Nat) : Nat :=
  let isLeap := (year % 4 = 0 ∧ year % 100 ≠ 0) ∨ year % 400 = 0
  if month = 2 then (if isLeap then 29 else 28)
  else if month = 4 ∨ month = 6 ∨ month = 9 ∨ month = 11 then 30
  else 31

/-- Goes past a date. -/
def date? (t : Text) : Option Text := do
  let (year, t) ← field? 4 0 9999 t
  let (month, t) ← field? 2 1 12 (← mark? "-" t)
  let (_, t) ← field? 2 1 (daysOf year month) (← mark? "-" t)
  return t

/-- Goes past a time of day, whose seconds may have a fraction. -/
def time? (t : Text) : Option Text := do
  let (_, t) ← field? 2 0 23 t
  let (_, t) ← field? 2 0 59 (← mark? ":" t)
  let (_, t) ← field? 2 0 60 (← mark? ":" t)
  match t with
  | '.' :: c :: rest => if c.isDigit then return rest.dropWhile Char.isDigit else return t
  | t => return t

/-- Goes past the offset of a time of day. -/
def zone? (t : Text) : Option Text :=
  match t with
  | 'Z' :: t | 'z' :: t => some t
  | _ => do
    let (_, t) ← field? 2 0 23 (← mark? "+-" t)
    let (_, t) ← field? 2 0 59 (← mark? ":" t)
    return t

/-- Goes past a date, a time of day, or both. -/
def pastMoment? (t : Text) : Option Text :=
  match date? t with
  | none => time? t
  | some rest =>
    match mark? "Tt " rest >>= time? with
    | some timed => some ((zone? timed).getD timed)
    | none => some rest

/-- Reads a **moment**. -/
def moment? (t : Text) : Option (Text × Text) :=
  (pastMoment? t).map fun rest => (t.take (t.length - rest.length), rest)

/-! ### Scalars -/

/-- Reads a **scalar** that is not a string. -/
def scalar? (t : Text) : Option (Toml × Text) :=
  match Text.dropPrefix? "true" t, Text.dropPrefix? "false" t with
  | some rest, _ => some (.boolean true, rest)
  | none, some rest => some (.boolean false, rest)
  | none, none =>
    (moment? t).map (fun p => (.moment p.1, p.2)) <|>
      (float? t).map (fun p => (.float p.1, p.2)) <|>
        (integer? t).map fun p => (.integer p.1, p.2)

end TomlScalar

end MailMerge
