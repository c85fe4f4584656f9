import MailMerge.Region.Body
import MailMerge.Region.Bookmark
import MailMerge.Region.Comment

/-!
# Locating the region

Bookmarks are looked for first, then comments, and the whole body is taken last. A
located region is split into the template of the copies and the section properties
at its end, which are put out once behind all copies.

* `MarkerStrategy` is a way of marking; `detect?` finds the one that a main part uses;
* `splitTrailingSection` splits section properties off the end of a region;
* `breakContext` says whether a place lies inside a paragraph;
* `locate` puts all of it together.
-/

namespace MailMerge

/-- A **way of marking** the region, in the order in which they are tried. -/
inductive MarkerStrategy where
  | bookmark
  | comment
  | wholeBody
  deriving DecidableEq, Repr

namespace MarkerStrategy

/-- All ways of marking, in the order in which they are tried. -/
def all : List MarkerStrategy := [.bookmark, .comment, .wholeBody]

/-- The name of a way of marking. -/
def name : MarkerStrategy → Text
  | .bookmark => "bookmark"
  | .comment => "comment"
  | .wholeBody => "whole-body"

/-- Whether a main part uses a way of marking. One of the two markers is enough. -/
def isUsed (names : MarkerNames) (t : Text) : MarkerStrategy → Bool
  | .bookmark => Bookmark.isPresent names t
  | .comment => Comment.isPresent names t
  | .wholeBody => Body.isPresent t

/-- The region that a way of marking delimits. -/
def region (names : MarkerNames) (t : Text) : MarkerStrategy → Except MissingMarker Region
  | .bookmark => Bookmark.region names t
  | .comment => Comment.region names t
  | .wholeBody => Body.region t

/-- A fragment without the markers of a way of marking. -/
def strip (names : MarkerNames) (fragment : Text) : MarkerStrategy → Text
  | .bookmark => Bookmark.strip names fragment
  | .comment => Comment.strip names fragment
  | .wholeBody => fragment

/-- The first way of marking that a main part uses. -/
def detect? (names : MarkerNames) (t : Text) : Option MarkerStrategy :=
  all.find? (isUsed names t)

end MarkerStrategy

/-- A fragment without any markers of the given names. -/
def stripMarkers (names : MarkerNames) (fragment : Text) : Text :=
  Comment.strip names (Bookmark.strip names fragment)

/-! ### Section properties -/

/-- Whether an element of section properties begins at the head of a text. -/
def startsSection (t : Text) : Bool :=
  match Text.dropPrefix? "<w:sectPr" t with
  | some (c :: _) => isBlank c || c == '>' || c == '/'
  | _ => false

/-- Cuts before the first section properties that no end of paragraph properties
follows. Those of a paragraph are followed by one. -/
def cutBeforeSection? : Text → Option (Text × Text)
  | [] => none
  | c :: t =>
    if startsSection (c :: t) && !Text.contains "</w:pPr>" (c :: t) then some ([], c :: t)
    else (cutBeforeSection? t).map fun p => (c :: p.1, p.2)

/-- A region as content and the section properties at its end, which are empty if
the region does not end in such. -/
def splitTrailingSection (region : Text) : Text × Text :=
  if Text.endsWith "</w:sectPr>" (Text.trimEnd region) then
    (cutBeforeSection? region).getD (region, [])
  else (region, [])

/-- The section properties at the end of the body of a main part. -/
def bodySection (t : Text) : Text :=
  let body := ((Text.lastCut? "</w:body>" t).map (·.1)).getD t
  (splitTrailingSection body).2

/-! ### Break contexts -/

/-- Where breaks between copies stand: between paragraphs and tables, or inside a
paragraph. -/
inductive BreakContext where
  | block
  | inline
  deriving DecidableEq, Repr

/-- Matches the tags of paragraphs. -/
def paragraphTag : Matcher := fun t =>
  match tagLength "<w:p" endsAtBlank t with
  | 0 => tagLength "</w:p" endsAtBlank t
  | n => n

/-- How a tag of a paragraph changes the number of open paragraphs. -/
def paragraphStep (tag : Text) : Int :=
  if Text.startsWith "</" tag then -1 else if Text.endsWith "/>" tag then 0 else 1

/-- How tags change the number of open paragraphs all together. -/
def paragraphChange : List Text → Int
  | [] => 0
  | tag :: tags => paragraphStep tag + paragraphChange tags

/-- The number of paragraphs that a text leaves open. -/
def openParagraphs (t : Text) : Int := paragraphChange (matchesIn paragraphTag t)

/-- The context behind a text: inside a paragraph if one is open. -/
def breakContext (before : Text) : BreakContext :=
  if 0 < openParagraphs before then .inline else .block

/-! ### Locations -/

/-- A **located region**: its offsets in bytes, the template of the copies, the
section properties that are put out behind them, those of the whole body, and the
context of breaks. -/
structure Location where
  strategy : MarkerStrategy
  regionStart : Nat
  regionStop : Nat
  template : Text
  trailing : Text
  sectionProperties : Text
  context : BreakContext
  deriving DecidableEq, Repr

/-- The location of a region that a way of marking has found. -/
def Location.ofRegion (names : MarkerNames) (strategy : MarkerStrategy) (r : Region) : Location :=
  let (content, trailing) := splitTrailingSection r.inside
  { strategy := strategy
    regionStart := r.start
    regionStop := r.stop
    template := stripMarkers names content
    trailing := trailing
    sectionProperties := Text.trim (bodySection r.text)
    context := breakContext r.before }

/-- **Locates** the region of a main part. -/
def locate (names : MarkerNames) (t : Text) : Except MissingMarker Location :=
  match MarkerStrategy.detect? names t with
  | none => .error (.named names.start)
  | some strategy => (strategy.region names t).map (Location.ofRegion names strategy)

end MailMerge
