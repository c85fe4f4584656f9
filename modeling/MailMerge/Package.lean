import MailMerge.Archive.Reading
import MailMerge.Error
import MailMerge.Markup.Tag

/-!
# Packages

A template is an archive, one part of which is the **main part**, the text of the
document. A relationship names it; without one it has its usual name.

* `mainPartOf?` finds the main part in a list of relationships;
* `Package.ofArchive?` opens an archive and `Package.ofBytes?` its bytes;
* `Package.repackage` puts another text in the place of the main part. No other part
  changes.
-/

namespace MailMerge

/-- The part that lists the relationships of a package. -/
def relationshipsPart : Text := "_rels/.rels"

/-- The usual name of the main part. -/
def usualMainPart : Text := "word/document.xml"

/-- The number of characters of a namespace before a name, its colon included; zero if
there is none. -/
def namespaceLength (t : Text) : Nat :=
  match t.takeWhile isWordChar, t.dropWhile isWordChar with
  | c :: space, ':' :: _ => (c :: space).length + 1
  | _, _ => 0

/-- Matches the tag of a relationship, with or without a namespace before its name. -/
def relationshipTag : Matcher := fun t =>
  match t with
  | '<' :: r =>
    let space := namespaceLength r
    match tagLength "Relationship" endsWord (r.drop space) with
    | 0 => tagLength "<Relationship" endsWord t
    | n + 1 => space + n + 2
  | _ => 0

/-- Whether a relationship leads to the main part. -/
def leadsToMain (tag : Text) : Bool :=
  ((attribute? "Type" tag).map (Text.endsWith "/officeDocument")).getD false

/-- The main part that relationships name: the target of the first one that leads to a
main part, with the slashes at its head dropped. -/
def mainPartOf? (relationships : Text) : Option Text :=
  match findMatch? relationshipTag leadsToMain relationships with
  | some found => (attribute? "Target" found.piece).map fun target => target.dropWhile (· == '/')
  | none => none

/-- A **package**: an archive, the name of its main part and the text of it. -/
structure Package where
  archive : Archive
  mainName : Text
  mainText : Text
  deriving DecidableEq, Repr

namespace Package

/-- The name of the main part of an archive. -/
def mainName? (archive : Archive) : Except PackageFault Text :=
  match archive.part? relationshipsPart with
  | none => .ok usualMainPart
  | some part =>
    match part.text with
    | .ok relationships => .ok ((mainPartOf? relationships).getD usualMainPart)
    | .error fault => .error (.unreadableRelationships fault)

/-- Opens an archive. -/
def ofArchive? (archive : Archive) : Except PackageFault Package := do
  let name ← mainName? archive
  match archive.part? name with
  | none => throw (.missingMain name)
  | some part =>
    match part.text with
    | .ok text => return ⟨archive, name, text⟩
    | .error fault => throw (.unreadableMain name fault)

/-- Opens the bytes of an archive. -/
def ofBytes? (bytes : Bytes) : Except PackageFault Package :=
  match Archive.ofBytes? bytes with
  | .ok archive => ofArchive? archive
  | .error fault => .error (.notAnArchive fault)

/-- The number of parts of a package. -/
def size (p : Package) : Nat := p.archive.parts.length

/-- The archive of a package with another text as its main part, which is stored by the
same method as before. -/
def repackage (p : Package) (text : Text) : Archive :=
  p.archive.mapPart p.mainName fun part => Part.ofContent part.name part.method text.toUtf8

end Package

end MailMerge
