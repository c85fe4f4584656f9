import MailMerge.Text.Blank
import MailMerge.Text.Scan

/-!
# Placeholder conventions

A template names the fields to fill in either between delimiters, `{{name}}` or
`<<name>>` (escaped in markup), or by their bare names.

* `PlaceholderConvention.detect` tells the convention of a template;
* `Delimiters.token` matches a token of a delimited convention, and `tokenName` is the
  name that it holds;
* `scanPlaceholders` lists the names of a template.
-/

namespace MailMerge

/-- The **delimiters** of tokens, and the characters that a name between them may
not hold. -/
structure Delimiters where
  opening : Text
  closing : Text
  excluded : List Char
  deriving DecidableEq, Repr

/-- The **convention** by which a template names fields. -/
inductive PlaceholderConvention where
  | braces
  | angles
  | bare
  deriving DecidableEq, Repr

namespace PlaceholderConvention

/-- The delimiters of a convention, as they stand in markup. -/
def delimiters? : PlaceholderConvention → Option Delimiters
  | .braces => some ⟨"\x7b\x7b", "\x7d\x7d", ['\x7b', '\x7d', '<', '>']⟩
  | .angles => some ⟨"&lt;&lt;", "&gt;&gt;", ['&', '<', '>']⟩
  | .bare => none

/-- How a token of a convention looks in print. -/
def display : PlaceholderConvention → Text
  | .braces => "\x7b\x7bname\x7d\x7d"
  | .angles => "<<name>>"
  | .bare => "bare names"

/-- The convention of a template: the first whose opening delimiter occurs, and
bare names if none does. -/
def detect (template : Text) : PlaceholderConvention :=
  if Text.contains "\x7b\x7b" template then .braces
  else if Text.contains "&lt;&lt;" template then .angles
  else .bare

end PlaceholderConvention

namespace Delimiters

/-- Matches a **token**: the opening delimiter, at least one character that a name
may hold, and the closing delimiter. -/
def token (d : Delimiters) : Matcher := fun t =>
  match Text.dropPrefix? d.opening t with
  | none => 0
  | some rest =>
    let inner := rest.takeWhile fun c => !d.excluded.contains c
    if inner.isEmpty then 0
    else if Text.startsWith d.closing (rest.drop inner.length) then
      d.opening.length + inner.length + d.closing.length
    else 0

/-- The name in a token: what stands between the delimiters, without the blanks
around it. -/
def tokenName (d : Delimiters) (token : Text) : Text :=
  Text.trim ((token.drop d.opening.length).take
    (token.length - d.opening.length - d.closing.length))

end Delimiters

/-- The members of a list without those that occurred before. -/
def firstOccurrences (seen : List Text) : List Text → List Text
  | [] => []
  | t :: ts =>
    if seen.contains t then firstOccurrences seen ts else t :: firstOccurrences (t :: seen) ts

/-- The names of the placeholders of a fragment, in the order of their first
appearance. Bare names cannot be told from text, so that none is listed. -/
def scanPlaceholders (convention : PlaceholderConvention) (fragment : Text) : List Text :=
  match convention.delimiters? with
  | none => []
  | some d => firstOccurrences [] ((matchesIn d.token fragment).map d.tokenName)

end MailMerge
