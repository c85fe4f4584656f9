import MailMerge.Replication
import MailMerge.Proofs.OpenElements

/-!
# Places of page breaks

A page break between copies is a run or, between paragraphs, a paragraph around it. Which of the two it is
depends on open paragraphs alone, and not on the element around the markers. Hence no paragraph is put into
a paragraph; but a run or a table may take neither of the two, and both are put there all the same.

* `pageBreak` is the tree of a page break, and `Content.FitsIn` says where it may stand;
* `pageBreak_fits_iff` — page breaks fit in all elements but tables, their rows, runs and their texts.
-/

namespace MailMerge

/-! ### The specification -/

/-- The **tree of a page break** inside a paragraph: a run. -/
def Content.pageBreakRun : Content := .element ⟨"w:r", []⟩ (.empty ⟨"w:br", " w:type=\"page\""⟩ .nil) [] .nil

/-- The **tree of a page break**. Between paragraphs it is a paragraph around a run. -/
def pageBreak : BreakContext → Content
  | .inline => .pageBreakRun
  | .block => .element ⟨"w:p", []⟩ .pageBreakRun [] .nil

/-- The elements that **take no paragraphs**, and those that **take no runs**, as far as main parts are made
of paragraphs, tables and runs. -/
def excludedParents (name : Text) : List Text :=
  if name = "w:p" then ["w:tbl", "w:tr", "w:p", "w:r", "w:t"]
  else if name = "w:r" then ["w:r", "w:t", "w:tbl", "w:tr"]
  else []

/-- Whether the outermost elements of a tree **may stand in an element**. -/
def Content.FitsIn (parent : Text) : Content → Prop
  | nil => True
  | data _ rest => rest.FitsIn parent
  | aside _ rest => rest.FitsIn parent
  | empty label rest => parent ∉ excludedParents label.name ∧ rest.FitsIn parent
  | element label _ _ rest => parent ∉ excludedParents label.name ∧ rest.FitsIn parent

/-- The elements that take **neither paragraphs nor runs**. -/
def closedElements : List Text := ["w:tbl", "w:tr", "w:r", "w:t"]

variable {names : MarkerNames} {content : Content} {location : Location} {parent : Text}

/-! ### Page breaks -/

theorem text_pageBreak (context : BreakContext) (sectionProperties : Text) :
    BreakKind.page.markup context sectionProperties = (pageBreak context).text := by
  cases context with
  | block => rfl
  | inline => rfl

/-- A run fits in an element **unless this is closed**. -/
theorem fitsIn_inline_iff : (pageBreak .inline).FitsIn parent ↔ parent ∉ closedElements := by
  have hperm : (excludedParents "w:r").Perm closedElements := by decide
  calc (pageBreak .inline).FitsIn parent
    _ ↔ parent ∉ excludedParents "w:r" := and_iff_left trivial
    _ ↔ parent ∉ closedElements := not_congr hperm.mem_iff

/-- A paragraph fits in an element **unless this is closed, or a paragraph** itself. -/
theorem fitsIn_block_iff : (pageBreak .block).FitsIn parent ↔ parent ≠ "w:p" ∧ parent ∉ closedElements := by
  have hperm : (excludedParents "w:p").Perm ("w:p".toList :: closedElements) := by decide
  calc (pageBreak .block).FitsIn parent
    _ ↔ parent ∉ excludedParents "w:p" := and_iff_left trivial
    _ ↔ parent ∉ "w:p".toList :: closedElements := not_congr hperm.mem_iff
    _ ↔ parent ≠ "w:p" ∧ parent ∉ closedElements := by rw [List.mem_cons, not_or]

/-- The context of a location is **that of the place** where its region begins. -/
theorem context_eq_of_locate (h : content.MadeOf bracketedPieces)
    (hlocate : locate names content.text = .ok location) :
    location.context = if "w:p".toList ∈ content.openAt location.regionStart then .inline else .block := by
  obtain ⟨strategy, r, -, hregion, rfl⟩ := exists_region_of_locate hlocate
  have htext : content.text = r.before ++ (r.inside ++ r.after) := by
    rw [← Region.text_of_region hregion, Region.text, List.append_assoc]
  have hbefore := (Bracketed.cutsAtBrackets.of_region hregion (content.bracketed_text h)).1
  exact breakContext_eq h htext hbefore

/-- **Page breaks fit** in the element around the region of a main part if and only if this is not a table, a
row of a table, a run or a text. -/
theorem pageBreak_fits_iff (h : content.MadeOf bracketedPieces)
    (hlocate : locate names content.text = .ok location)
    (hparent : (content.openAt location.regionStart).getLast? = some parent) (aliases : List Alias)
    (rules : FormatRules) :
    (Replicator.of location .page aliases rules).separator = (pageBreak location.context).text ∧
      ((pageBreak location.context).FitsIn parent ↔ parent ∉ closedElements) := by
  refine ⟨text_pageBreak _ _, ?_⟩
  rw [context_eq_of_locate h hlocate]
  split
  case isTrue => exact fitsIn_inline_iff
  case isFalse hmem =>
    -- between paragraphs the element around the region is none
    have hne : parent ≠ "w:p" := by
      rintro rfl
      exact hmem (List.mem_of_getLast? hparent)
    rw [fitsIn_block_iff]
    exact and_iff_right hne

/-! ### Regions in a body and in a run -/

/-- A main part whose body is the region, with a paragraph in it. -/
def regionInBody : Content :=
  .element ⟨"w:body", []⟩ (.element ⟨"w:p", []⟩ (.data "x" .nil) [] .nil) [] .nil

theorem locate_regionInBody :
    locate .standard regionInBody.text = .ok ⟨.wholeBody, 8, 20, "<w:p>x</w:p>", [], [], .block⟩ :=
  eq_ok_of_toOption (by decide +kernel)

/-- Between the paragraphs of a body, **a page break fits**. -/
theorem pageBreak_fits_in_body :
    ∃ location, locate .standard regionInBody.text = .ok location ∧
      (pageBreak location.context).FitsIn "w:body" ∧ ∀ aliases rules,
        (Replicator.of location .page aliases rules).separator =
          "<w:p><w:r><w:br w:type=\"page\"/></w:r></w:p>" := by
  have hmade : regionInBody.MadeOf bracketedPieces :=
    ⟨by decide, ⟨by decide, ⟨by decide, trivial⟩, by decide, trivial⟩, by decide, trivial⟩
  have hparent : (regionInBody.openAt 8).getLast? = some "w:body".toList := by decide
  have hfits := pageBreak_fits_iff hmade locate_regionInBody hparent
  exact ⟨_, locate_regionInBody, (hfits [] .standard).2.2 (by decide), fun aliases rules =>
    (hfits aliases rules).1⟩

/-- A main part whose region is a text inside a run. -/
def regionInRun : Content :=
  .element ⟨"w:p", []⟩ (.element ⟨"w:r", []⟩ (.aside "<!--SectionStart-->" (.element ⟨"w:t", []⟩
    (.data "\x7b\x7bx\x7d\x7d" .nil) [] (.aside "<!--SectionEnd-->" .nil))) [] .nil) [] .nil

/-- Not all page breaks fit: between the texts of a run **another run is put**. -/
theorem pageBreak_in_run : ¬ ∀ (content : Content) (names : MarkerNames) (location : Location) (parent : Text),
    content.MadeOf bracketedPieces → locate names content.text = .ok location →
    (content.openAt location.regionStart).getLast? = some parent →
    (pageBreak location.context).FitsIn parent := by
  intro hfits
  have hmade : regionInRun.MadeOf bracketedPieces :=
    ⟨by decide, ⟨by decide, ⟨⟨'!', "--SectionStart--", by decide, by decide, by decide, by decide⟩,
      by decide, ⟨by decide, trivial⟩, by decide,
      ⟨'!', "--SectionEnd--", by decide, by decide, by decide, by decide⟩, trivial⟩, by decide, trivial⟩,
      by decide, trivial⟩
  have hlocate : locate .standard regionInRun.text =
      .ok ⟨.comment, 29, 45, "<w:t>\x7b\x7bx\x7d\x7d</w:t>", [], [], .inline⟩ :=
    eq_ok_of_toOption (by decide +kernel)
  have hparent : (regionInRun.openAt 29).getLast? = some "w:r".toList := by decide
  have hrun : (pageBreak .inline).FitsIn "w:r" := hfits _ _ _ _ hmade hlocate hparent
  exact fitsIn_inline_iff.1 hrun (by decide)

end MailMerge
