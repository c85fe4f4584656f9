import MailMerge.Assembly
import MailMerge.Package
import MailMerge.Region.Location

/-!
# Templates

A **template** is a package whose region has been located. It is opened once for a run,
and documents are assembled from it.

* `Template.ofBytes?` opens a template;
* `Template.assemble` makes a document of it, given the copies.
-/

namespace MailMerge

/-- An opened **template**. -/
structure Template where
  package : Package
  location : Location
  deriving DecidableEq, Repr

namespace Template

/-- Locates the region of a package. -/
def ofPackage? (names : MarkerNames) (package : Package) : Except MergeError Template := do
  let location ← (locate names package.mainText).mapError .markerNotFound
  return ⟨package, location⟩

/-- Opens a template. -/
def ofBytes? (names : MarkerNames) (bytes : Bytes) : Except MergeError Template := do
  let package ← (Package.ofBytes? bytes).mapError .malformedPackage
  ofPackage? names package

/-- The main part of a document, given the copies. It is checked if `validates` is set. -/
def mainPart (t : Template) (validates : Bool) (copies : Text) : Except StructureFault Text := do
  let text ← splice t.package.mainText t.location.regionStart t.location.regionStop
    t.location.trailing copies
  if validates then checkWellFormed text
  return text

/-- **Assembles** a document, given the copies. -/
def assemble (t : Template) (validates : Bool) (copies : Text) : Except MergeError Archive := do
  let text ← (t.mainPart validates copies).mapError .structuralValidation
  return t.package.repackage text

end Template

end MailMerge
