import MailMerge.Text.Blank
import MailMerge.Text.Scan
import MailMerge.Region.Marker

/-!
# Comments as markers

The markers of a region may be comments that hold nothing but the name of the marker
and blanks around it.

* `Comment.marker` matches the comments of a name;
* `Comment.region` finds the region between two of them;
* `Comment.strip` removes them.
-/

namespace MailMerge.Comment

/-- The number of characters of `name`, blanks and `-->`, with blanks before the
name. The name may itself begin with blanks. -/
def bodyLength (name : Text) : Text → Option Nat
  | [] => none
  | c :: t =>
    let here? := do
      let rest ← Text.dropPrefix? name (c :: t)
      let blanks := rest.takeWhile isBlank
      let _ ← Text.dropPrefix? "-->" (rest.drop blanks.length)
      return name.length + blanks.length + 3
    match here? with
    | some n => some n
    | none => if isBlank c then (bodyLength name t).map (· + 1) else none

/-- Matches a comment that holds a name. -/
def marker (name : Text) : Matcher := fun t =>
  match Text.dropPrefix? "<!--" t >>= bodyLength name with
  | some n => 4 + n
  | none => 0

/-- The first comment that holds a name. -/
def find? (name t : Text) : Option Found := findMatch? (marker name) (fun _ => true) t

/-- Whether one of the two comments occurs. -/
def isPresent (names : MarkerNames) (t : Text) : Bool :=
  (find? names.start t).isSome || (find? names.stop t).isSome

/-- The region between the two comments. -/
def region (names : MarkerNames) (t : Text) : Except MissingMarker Region :=
  match find? names.start t with
  | none => .error (.named names.start)
  | some opening =>
    match find? names.stop opening.after with
    | none => .error (.named names.stop)
    | some closing =>
      .ok
        { before := opening.before ++ opening.piece
          inside := closing.before
          after := closing.piece ++ closing.after }

/-- Removes the comments of one name. -/
def erase (name fragment : Text) : Text := rewriteMatches (marker name) (fun _ => []) fragment

/-- Removes the comments of both names. -/
def strip (names : MarkerNames) (fragment : Text) : Text :=
  erase names.stop (erase names.start fragment)

end MailMerge.Comment
