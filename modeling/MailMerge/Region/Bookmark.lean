import MailMerge.Markup.Tag
import MailMerge.Region.Marker

/-!
# Bookmarks as markers

The markers of a region may be bookmarks. A bookmark has a start tag, which carries
its name, and an end tag, which is paired with it by the attribute `w:id`. The
region begins behind the end tag of the start bookmark and ends before the start tag
of the end bookmark.

* `Bookmark.region` finds the region;
* `Bookmark.strip` removes the tags of both bookmarks.
-/

namespace MailMerge.Bookmark

/-- Matches the start tag of any bookmark. -/
def startTag : Matcher := tagLength "<w:bookmarkStart" endsWord

/-- Matches the end tag of any bookmark. -/
def endTag : Matcher := tagLength "<w:bookmarkEnd" endsWord

/-- Whether a start tag carries a name. -/
def isNamed (name tag : Text) : Bool := attribute? "w:name" tag == some name

/-- Whether an end tag is paired with an identifier. -/
def isPairedWith (id tag : Text) : Bool := attribute? "w:id" tag == some id

/-- The first start tag of a name. -/
def findStart? (name t : Text) : Option Found := findMatch? startTag (isNamed name) t

/-- The first end tag paired with an identifier. -/
def findEnd? (id t : Text) : Option Found := findMatch? endTag (isPairedWith id) t

/-- Whether one of the two bookmarks occurs. -/
def isPresent (names : MarkerNames) (t : Text) : Bool :=
  (findStart? names.start t).isSome || (findStart? names.stop t).isSome

/-- The region between the two bookmarks. -/
def region (names : MarkerNames) (t : Text) : Except MissingMarker Region :=
  match findStart? names.start t with
  | none => .error (.named names.start)
  | some opening =>
    match attribute? "w:id" opening.piece >>= fun id => findEnd? id opening.after with
    | none => .error (.bookmarkEnd names.start)
    | some paired =>
      match findStart? names.stop paired.after with
      | none => .error (.named names.stop)
      | some closing =>
        .ok
          { before := opening.before ++ opening.piece ++ paired.before ++ paired.piece
            inside := closing.before
            after := closing.piece ++ closing.after }

/-- Whether a start tag belongs to one of the two bookmarks. -/
def isMarker (names : MarkerNames) (tag : Text) : Bool :=
  isNamed names.start tag || isNamed names.stop tag

/-- The identifiers of the two bookmarks in a fragment. -/
def markerIds (names : MarkerNames) (fragment : Text) : List Text :=
  ((matchesIn startTag fragment).filter (isMarker names)).filterMap (attribute? "w:id")

/-- Removes the start tags of the two bookmarks, then the end tags that are paired
with them. -/
def strip (names : MarkerNames) (fragment : Text) : Text :=
  let ids := markerIds names fragment
  let withoutStarts :=
    rewriteMatches startTag (fun tag => if isMarker names tag then [] else tag) fragment
  rewriteMatches endTag (fun tag => if ids.any (isPairedWith · tag) then [] else tag) withoutStarts

end MailMerge.Bookmark
