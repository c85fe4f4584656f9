import MailMerge.Json.Basic

/-!
# Writing JSON

* `Json.compact` writes a value without blanks;
* `Json.pretty` writes it over several lines, two blanks for each level;
* `JsonNumber.toText` writes floating point numbers with the shortest digits that
  read back, positionally from `10 ^ -5` to below `10 ^ 16` and with an exponent
  elsewhere, so that they never look like integers.
-/

namespace MailMerge

/-- A floating point number as JSON has it. Numbers that are not finite have no
form of their own and are written `null`. -/
def Binary64.jsonText : Binary64 → Text
  | .nan | .infinite _ => "null"
  | .finite negative m e =>
    Binary64.signText negative ++
      if m = 0 then ['0', '.', '0']
      else
        let d := shortestDecimal .even m e
        let digits := Text.ofNat d.digits
        let exponent := d.exponent + (digits.length : Int) - 1
        if -5 ≤ exponent ∧ exponent ≤ 15 then
          if 0 ≤ d.exponent then d.positional ++ ".0" else d.positional
        else
          digits.take 1 ++ (if 1 < digits.length then '.' :: digits.drop 1 else []) ++ "e" ++
            (if exponent < 0 then Text.ofInt exponent else '+' :: Text.ofInt exponent)

/-- A number as JSON has it. -/
def JsonNumber.toText : JsonNumber → Text
  | .integer n => Text.ofInt n
  | .float x => x.jsonText

namespace Json

/-- The four hexadecimal digits of a number below `2 ^ 16`. -/
def hexDigits (n : Nat) : Text :=
  [n / 4096 % 16, n / 256 % 16, n / 16 % 16, n % 16].map Nat.digitChar

/-- A character inside a string. Quotes, backslashes and control characters are
escaped. -/
def escapeChar (c : Char) : Text :=
  if c = '"' then "\\\""
  else if c = '\\' then "\\\\"
  else if c = '\n' then "\\n"
  else if c = '\r' then "\\r"
  else if c = '\t' then "\\t"
  else if c = '\x08' then "\\b"
  else if c = '\x0c' then "\\f"
  else if c.toNat < 32 then "\\u" ++ hexDigits c.toNat
  else [c]

/-- A text between quotes. -/
def quoted (t : Text) : Text := '"' :: t.flatMap escapeChar ++ "\""

mutual

/-- A value **without blanks**. -/
def compact : Json → Text
  | .null => "null"
  | .bool true => "true"
  | .bool false => "false"
  | .number n => n.toText
  | .string t => quoted t
  | .array items => '[' :: compactItems items ++ "]"
  | .object fields => '\x7b' :: compactFields fields ++ "\x7d"

/-- The elements of an array with commas between them. -/
def compactItems : List Json → Text
  | [] => []
  | [item] => compact item
  | item :: items => compact item ++ ',' :: compactItems items

/-- The fields of an object with commas between them. -/
def compactFields : List (Text × Json) → Text
  | [] => []
  | [(name, value)] => quoted name ++ ':' :: compact value
  | (name, value) :: fields => quoted name ++ ':' :: compact value ++ ',' :: compactFields fields

end

/-- A new line at a level of nesting. -/
def newLine (level : Nat) : Text := '\n' :: List.replicate (2 * level) ' '

mutual

/-- A value **over several lines**, at a level of nesting. -/
def pretty (level : Nat) : Json → Text
  | .array [] => "[]"
  | .array items => '[' :: prettyItems (level + 1) items ++ newLine level ++ "]"
  | .object [] => "\x7b\x7d"
  | .object fields => '\x7b' :: prettyFields (level + 1) fields ++ newLine level ++ "\x7d"
  | .null => "null"
  | .bool true => "true"
  | .bool false => "false"
  | .number n => n.toText
  | .string t => quoted t

/-- The elements of an array, each on a line of its own. -/
def prettyItems (level : Nat) : List Json → Text
  | [] => []
  | [item] => newLine level ++ pretty level item
  | item :: items => newLine level ++ pretty level item ++ ',' :: prettyItems level items

/-- The fields of an object, each on a line of its own. -/
def prettyFields (level : Nat) : List (Text × Json) → Text
  | [] => []
  | [(name, value)] => newLine level ++ quoted name ++ ": " ++ pretty level value
  | (name, value) :: fields =>
    newLine level ++ quoted name ++ ": " ++ pretty level value ++ ',' :: prettyFields level fields

end

end Json

end MailMerge
