import MailMerge.Text.Blank
import MailMerge.Text.Letter
import MailMerge.Text.Scan

/-!
# Tags as text

Regions, markers and tokens are found in the raw text of a main part. A **tag** is
then whatever stands from a `<` to the next `>`.

* `tagLength` is the matcher of the tags that open in a given way;
* `anyTag` is the matcher of all tags;
* `attribute?` reads an attribute of a start tag.
-/

namespace MailMerge

/-- The number of characters up to the first `>`, that one included. -/
def lengthThroughClose : Text → Option Nat
  | [] => none
  | c :: t => if c = '>' then some 1 else (lengthThroughClose t).map (· + 1)

/-- Matches a tag that begins with `opening`, where the next character must not
continue the name. -/
def tagLength (opening : Text) (endsName : Char → Bool) : Matcher := fun t =>
  match Text.dropPrefix? opening t with
  | some (c :: r) =>
    if endsName c then
      match lengthThroughClose (c :: r) with
      | some n => opening.length + n
      | none => 0
    else 0
  | _ => 0

/-- Whether a character ends a name for the tags that are told apart by words. -/
def endsWord (c : Char) : Bool := !isWordChar c

/-- Whether a character ends a name for the tags that are told apart by blanks. -/
def endsAtBlank (c : Char) : Bool := isBlank c || c == '>'

/-- Matches any tag. -/
def anyTag : Matcher := fun t =>
  match t with
  | '<' :: r =>
    match lengthThroughClose r with
    | some n => n + 1
    | none => 0
  | _ => 0

/-! ### Attributes -/

/-- The attribute that begins somewhere in the rest of a tag, given the character
before the rest. Only a name after a blank counts. -/
def attributeAfter (name : Text) (previous : Char) : Text → Option Text
  | [] => none
  | c :: t =>
    if Text.startsWith (name ++ "=\"") (c :: t) then
      let rest := t.drop (name.length + 1)
      if isBlank previous then (Text.cut? "\"" rest).map (·.1)
      else attributeAfter name '"' rest
    else attributeAfter name c t
termination_by t => t.length

/-- The value of the attribute of a start tag: what stands between double quotes
behind the name and an equals sign. -/
def attribute? (name tag : Text) : Option Text := attributeAfter name '<' tag

end MailMerge
