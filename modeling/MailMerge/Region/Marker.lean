import MailMerge.Text.Basic

/-!
# Section markers

A template marks the part that is repeated for each record, its **region**, by a
start marker and an end marker.

* `MarkerNames` are the names of the two markers;
* `MissingMarker` is a marker that a template lacks;
* `Region` is a main part cut into the text before, inside and after its region.
-/

namespace MailMerge

/-- The **names of the markers** of a region. -/
structure MarkerNames where
  start : Text
  stop : Text
  deriving DecidableEq, Repr

/-- The names that templates use by default. -/
def MarkerNames.standard : MarkerNames := ⟨"SectionStart", "SectionEnd"⟩

/-- A **marker that is missing**: the start or end marker of a name, the end tag of
the bookmark that starts the region, or a tag of the body. -/
inductive MissingMarker where
  | named (name : Text)
  | bookmarkEnd (name : Text)
  | bodyStart
  | bodyEnd
  deriving DecidableEq, Repr

/-- The text of a missing marker. -/
def MissingMarker.message : MissingMarker → Text
  | .named name => name
  | .bookmarkEnd name => name ++ " (bookmark end)"
  | .bodyStart => "w:body"
  | .bodyEnd => "</w:body>"

/-- A **region** of a main part, with all that stands before and after it. -/
structure Region where
  before : Text
  inside : Text
  after : Text
  deriving DecidableEq, Repr

namespace Region

/-- The main part of a region. -/
def text (r : Region) : Text := r.before ++ r.inside ++ r.after

/-- The offset of the first byte of a region. -/
def start (r : Region) : Nat := Text.utf8Size r.before

/-- The offset of the byte behind a region. -/
def stop (r : Region) : Nat := r.start + Text.utf8Size r.inside

end Region

end MailMerge
