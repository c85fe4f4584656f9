import MailMerge.Proofs.DataSafety
import MailMerge.Proofs.SectionSearch

/-!
# The section properties of a body

The last child of a body are its section properties. They are no part of what is repeated: they are
split off the region and put out once behind all copies. Other section properties stand inside the
properties of a paragraph, and stay where they are.

The split is a search in the text. It takes place if the region ends in the end tag of section
properties, up to blanks, and cuts before the first tag of such that no end of paragraph properties
follows. So it finds the last child of the body if that has an end tag, written without blanks.
Section properties that are written as one empty tag are not split off: they are repeated with each
copy, and missing if there is none.

* `SectionedPart` is a main part whose body ends in section properties;
* `SectionedPart.splitTrailingSection_inside` — what is split off;
* `section_follows_copies_iff` — when the section properties are put out once, behind the copies.
-/

namespace MailMerge

/-! ### The specification -/

/-- The **section properties of a body** as they are written: as one empty tag, or as an element,
which may have blanks in its end tag. -/
inductive BodySection where
  | selfClosing (attributes : Text)
  | paired (attributes : Text) (inside : Content) (blanks : Text)
  deriving DecidableEq, Repr

namespace BodySection

/-- The element of section properties. -/
def content : BodySection → Content
  | selfClosing attributes => .empty ⟨"w:sectPr", attributes⟩ .nil
  | paired attributes inside blanks => .element ⟨"w:sectPr", attributes⟩ inside blanks .nil

/-- Whether section properties end in an **end tag without blanks**. -/
def EndsPlainly : BodySection → Prop
  | selfClosing _ => False
  | paired _ _ blanks => blanks = []

end BodySection

/-- A **main part whose body ends in section properties**: what stands before the body, the
attributes of the body, its content, its section properties, the blanks behind these, and what
stands behind the body. -/
structure SectionedPart where
  before : Text
  attributes : Text
  content : Content
  section_ : BodySection
  blanks : Text
  after : Text
  deriving DecidableEq, Repr

namespace SectionedPart

/-- The start tag of the body. -/
def bodyTag (part : SectionedPart) : Text := "<w:body" ++ (part.attributes ++ ">")

/-- What stands before the content of the body. -/
def start (part : SectionedPart) : Text := part.before ++ part.bodyTag

/-- The section properties and the blanks behind them. -/
def trailing (part : SectionedPart) : Text := part.section_.content.text ++ part.blanks

/-- What stands behind the section properties. -/
def stop (part : SectionedPart) : Text := Body.endTag ++ part.after

/-- The region of a main part: all that its body holds. -/
def region (part : SectionedPart) : Region :=
  ⟨part.start, part.content.text ++ part.trailing, part.stop⟩

/-- The text of a main part. -/
def text (part : SectionedPart) : Text := part.region.text

/-- The main part with **copies in its body**, and its section properties once behind them. -/
def filled (part : SectionedPart) (kind : BreakKind) (copies : List Text) : Text :=
  part.start ++ List.intercalate (kind.markup (breakContext part.start) []) copies ++
    part.trailing ++ part.stop

/-- What is asked of a main part: its body is the first element of that name and ends at the last
end tag of that name, all other section properties stand inside paragraph properties, and those of
the body hold no paragraph properties. -/
structure IsProper (part : SectionedPart) : Prop where
  before : ∀ u c v, part.before = u ++ ("<w:body".toList ++ c :: v) → endsAtBlank c = false
  attributes : '>' ∉ part.attributes
  blank : ∀ c ∈ part.attributes.head?, isBlank c = true
  content : part.content.MadeOf plainPieces
  sections : part.content.SectionsInParagraphs false
  section_ : part.section_.content.MadeOf plainPieces
  flat : ¬ part.section_.content.Holds "w:pPr"
  blanks : ∀ c ∈ part.blanks, isBlank c = true
  after : Text.contains "</w:body>" part.after = false

end SectionedPart

variable {t u v needle : Text} {c : Char} {part : SectionedPart} {options : MergeOptions}

/-! ### The body -/

/-- The start tag of a body is **a match**. -/
theorem startTag_bodyTag {attributes : Text} (hclose : '>' ∉ attributes)
    (hblank : ∀ c ∈ attributes.head?, isBlank c = true) (t : Text) :
    Body.startTag ("<w:body" ++ (attributes ++ ">") ++ t) =
      ("<w:body" ++ (attributes ++ ">") : Text).length := by
  obtain ⟨c, rest, hrest, hc⟩ : ∃ c rest, attributes ++ '>' :: t = c :: rest ∧
      endsAtBlank c = true := by
    cases attributes with
    | nil => exact ⟨'>', t, rfl, by decide⟩
    | cons c attributes => exact ⟨c, _, rfl, by rw [endsAtBlank, hblank c rfl, Bool.true_or]⟩
  have hname : Text.dropPrefix? "<w:body" ("<w:body" ++ (attributes ++ ">") ++ t) =
      some (attributes ++ '>' :: t) := Text.dropPrefix?_eq_some_iff.2 (by simp)
  have hlength := lengthThroughClose_append hclose t
  rw [hrest] at hlength
  rw [Body.startTag, tagLength, hname, hrest]
  dsimp only
  rw [if_pos hc, hlength]
  simp
  omega

/-- **No start tag of a body** begins at a character that stands before the first one. -/
theorem startTag_eq_zero {before : Text} {b : Char}
    (hbefore : ∀ u c v, b :: before = u ++ ("<w:body".toList ++ c :: v) → endsAtBlank c = false)
    (t : Text) : Body.startTag (b :: before ++ ("<w:body" ++ t)) = 0 := by
  rw [List.cons_append, Body.startTag, tagLength]
  split
  case h_2 => rfl
  case h_1 c rest hname =>
    -- the name would end in front of the body, or at a character of what stands there
    refine if_neg (Bool.eq_false_iff.1 ?_)
    have htext : b :: before ++ ('<' :: ("w:body" ++ t)) = "<w:body".toList ++ c :: rest :=
      Text.dropPrefix?_eq_some_iff.1 hname
    rcases Markup.exists_cut_of_append_eq htext.symm with ⟨a, hinside, -⟩ | ⟨a, hhead, ha⟩
    · have htail : "w:body".toList = before ++ '<' :: a := (List.cons.inj hinside).2
      have hmem : '<' ∈ before ++ '<' :: a := by simp
      exact absurd (htail ▸ hmem) (show '<' ∉ "w:body".toList by decide)
    · cases a with
      | nil =>
        rw [(List.cons.inj ha).1]
        decide
      | cons d a =>
        obtain ⟨rfl, -⟩ := List.cons.inj ha
        exact hbefore [] c a hhead

/-- The start tag of a body is **the first one** if none stands before it. -/
theorem findMatch?_bodyTag {before attributes : Text}
    (hbefore : ∀ u c v, before = u ++ ("<w:body".toList ++ c :: v) → endsAtBlank c = false)
    (hclose : '>' ∉ attributes) (hblank : ∀ c ∈ attributes.head?, isBlank c = true) (t : Text) :
    findMatch? Body.startTag (fun _ => true) (before ++ ("<w:body" ++ (attributes ++ ">") ++ t)) =
      some ⟨before, "<w:body" ++ (attributes ++ ">"), t⟩ := by
  induction before with
  | nil =>
    have hne : ("<w:body" ++ (attributes ++ ">") : Text) ≠ [] := List.cons_ne_nil _ _
    rw [List.nil_append, findMatch?_append_of_match hne (startTag_bodyTag hclose hblank t),
      if_pos rfl]
  | cons b before ih =>
    have hzero := startTag_eq_zero hbefore (attributes ++ ">" ++ t)
    rw [← List.append_assoc "<w:body".toList, List.cons_append] at hzero
    have hrest := ih fun u c v huv => hbefore (b :: u) c v (by rw [huv, List.cons_append])
    rw [List.cons_append, findMatch?_cons_of_zero hzero, hrest]
    rfl

/-- An end tag is **the last one** if none stands behind it. -/
theorem Text.lastCut?_eq_some {needle after : Text} (hneedle : '<' ∉ needle)
    (h : contains ('<' :: needle) after = false) (inside : Text) :
    lastCut? ('<' :: needle) (inside ++ ('<' :: needle ++ after)) = some (inside, after) := by
  have hclear : Clears (startsWith ('<' :: needle)) needle after :=
    .of_not_mem open_of_startsWith hneedle
  have hnone : lastCut? ('<' :: needle) (needle ++ after) = none := by
    rw [Option.eq_none_iff_forall_ne_some]
    intro p hp
    have hcontains := contains_append ('<' :: needle) p.1 p.2
    rw [← List.append_assoc, ← eq_of_lastCut? hp, contains_append_of_clears hclear, h] at hcontains
    cases hcontains
  have hlast : lastCut? ('<' :: needle) ('<' :: (needle ++ after)) = some ([], after) := by
    have hprefix : dropPrefix? ('<' :: needle) ('<' :: (needle ++ after)) = some after :=
      dropPrefix?_eq_some_iff.2 rfl
    rw [lastCut?, hnone, hprefix]
    rfl
  have hcut := lastCut?_replace hlast inside
  rwa [List.append_assoc] at hcut

namespace SectionedPart

/-- The region of a main part is **all that its body holds**. -/
theorem region_eq (h : part.IsProper) : Body.region part.text = .ok part.region := by
  have hclosing : Text.lastCut? Body.endTag
      (part.content.text ++ part.trailing ++ (Body.endTag ++ part.after)) =
        some (part.content.text ++ part.trailing, part.after) :=
    Text.lastCut?_eq_some (by decide) h.after _
  have htext : part.text = part.before ++ (part.bodyTag ++
      (part.content.text ++ part.trailing ++ (Body.endTag ++ part.after))) := by
    simp only [text, region, Region.text, start, stop, List.append_assoc]
  have hopening : findMatch? Body.startTag (fun _ => true) part.text =
      some ⟨part.before, part.bodyTag,
        part.content.text ++ part.trailing ++ (Body.endTag ++ part.after)⟩ := by
    rw [htext]
    exact findMatch?_bodyTag h.before h.attributes h.blank _
  refine Body.region_eq_ok_iff.2 ⟨_, _, _, hopening, hclosing, ?_⟩
  rw [region, start, stop]

theorem trailing_ne_nil (part : SectionedPart) : part.trailing ≠ [] := by
  unfold trailing
  cases part.section_ with
  | selfClosing attributes => exact List.cons_ne_nil _ _
  | paired attributes inside blanks => exact List.cons_ne_nil _ _

/-- The section properties of the body are **cut off where they begin**. -/
theorem cutBeforeSection?_trailing (h : part.IsProper) :
    cutBeforeSection? part.trailing = some ([], part.trailing) := by
  have hblank : '<' ∉ part.blanks := fun hmem => absurd (h.blanks _ hmem) (by decide)
  have hnone : Text.contains "</w:pPr>" part.trailing = false := by
    have hblanks : Text.contains "</w:pPr>" (part.blanks ++ []) = Text.contains "</w:pPr>" [] :=
      Text.contains_append_of_clears (.of_not_mem open_of_startsWith hblank)
    rw [trailing, Content.contains_text_append h.section_ h.flat, ← List.append_nil part.blanks,
      hblanks]
    rfl
  have hstart : startsSection part.trailing = true := by
    unfold trailing
    cases hsection : part.section_ with
    | selfClosing attributes =>
      have hlabel := h.section_
      rw [hsection] at hlabel
      have hstart := hlabel.1.startsSection_eq (c := '/') (by decide) ('>' :: part.blanks)
      rw [beq_self_eq_true] at hstart
      simpa [BodySection.content, Content.text, Label.emptyTag] using hstart
    | paired attributes inside blanks =>
      have hlabel := h.section_
      rw [hsection] at hlabel
      have hstart := hlabel.1.startsSection_eq (c := '>') (by decide)
        (inside.text ++ (Label.endTag ⟨"w:sectPr", attributes⟩ blanks ++ part.blanks))
      rw [beq_self_eq_true] at hstart
      simpa [BodySection.content, Content.text, Label.startTag] using hstart
  obtain ⟨c, t, ht⟩ := List.exists_cons_of_ne_nil part.trailing_ne_nil
  rw [ht] at hstart hnone ⊢
  rw [cutBeforeSection?, hstart, hnone]
  rfl

/-- Texts that end in the end tag of section properties and blanks have **one character before the
last bracket**. -/
theorem eq_of_endsInSection {u w blanks blanks' : Text} {d : Char}
    (hblanks : ∀ c ∈ blanks, isBlank c = true) (hblanks' : ∀ c ∈ blanks', isBlank c = true)
    (htext : w ++ [d] ++ '>' :: blanks = u ++ "</w:sectPr>".toList ++ blanks') : d = 'r' := by
  have hclose {v : Text} (hv : ∀ c ∈ v, isBlank c = true) : '>' ∉ v.reverse := by
    intro hmem
    exact absurd (hv _ (List.mem_reverse.1 hmem)) (by decide)
  -- read from the end, both texts hold blanks, a bracket, and then the character in question
  have hreverse := congrArg List.reverse htext
  have hleft : (w ++ [d] ++ '>' :: blanks).reverse = blanks.reverse ++ '>' :: (d :: w.reverse) := by
    simp
  have hright : (u ++ "</w:sectPr>".toList ++ blanks').reverse =
      blanks'.reverse ++ '>' :: ('r' :: ("</w:sectP".toList.reverse ++ u.reverse)) := by simp
  rw [hleft, hright] at hreverse
  obtain ⟨-, hrest⟩ := Markup.eq_of_append_cons_eq hreverse (hclose hblanks) (hclose hblanks')
  exact (List.cons.inj hrest).1

/-- A region ends in section properties **if these end plainly**. -/
theorem endsInSection_inside_iff (h : part.IsProper) :
    Text.endsWith "</w:sectPr>" (Text.trimEnd (part.content.text ++ part.trailing)) = true ↔
      part.section_.EndsPlainly := by
  rw [endsInSection_iff]
  constructor
  · -- before the last bracket there is a slash, a blank, or the end of the name
    rintro ⟨u, blanks, htext, hblanks⟩
    have hsection := h.section_
    unfold trailing at htext
    cases hpart : part.section_ with
    | selfClosing attributes =>
      rw [hpart] at htext
      have hslash : (part.content.text ++ '<' :: Label.text ⟨"w:sectPr", attributes⟩) ++ ['/'] ++
          '>' :: part.blanks = u ++ "</w:sectPr>".toList ++ blanks := by
        rw [← htext]
        simp [BodySection.content, Content.text, Label.emptyTag]
      exact absurd (eq_of_endsInSection h.blanks hblanks hslash) (by decide)
    | paired attributes inside endBlanks =>
      rw [hpart] at htext hsection
      rcases List.eq_nil_or_concat' endBlanks with hnil | ⟨endBlanks', d, rfl⟩
      · exact hnil
      · have hd : isBlank d = true := hsection.2.2.1.1 d (by simp)
        have hblank : (part.content.text ++ (Label.startTag ⟨"w:sectPr", attributes⟩ ++
            (inside.text ++ ("</w:sectPr" ++ endBlanks')))) ++ [d] ++ '>' :: part.blanks =
              u ++ "</w:sectPr>".toList ++ blanks := by
          rw [← htext]
          simp [BodySection.content, Content.text, Label.endTag]
        rw [eq_of_endsInSection h.blanks hblanks hblank] at hd
        exact absurd hd (by decide)
  · intro hplain
    unfold trailing
    cases hpart : part.section_ with
    | selfClosing attributes =>
      rw [hpart] at hplain
      exact hplain.elim
    | paired attributes inside endBlanks =>
      rw [hpart] at hplain
      obtain rfl : endBlanks = [] := hplain
      refine ⟨part.content.text ++ (Label.startTag ⟨"w:sectPr", attributes⟩ ++ inside.text),
        part.blanks, ?_, h.blanks⟩
      simp [BodySection.content, Content.text, Label.endTag]

/-- **What is split off** the region: the section properties of the body if they end plainly, and
else nothing. -/
theorem splitTrailingSection_inside (h : part.IsProper) :
    (part.section_.EndsPlainly →
      splitTrailingSection (part.content.text ++ part.trailing) =
        (part.content.text, part.trailing)) ∧
    (¬ part.section_.EndsPlainly →
      splitTrailingSection (part.content.text ++ part.trailing) =
        (part.content.text ++ part.trailing, [])) := by
  unfold splitTrailingSection
  refine ⟨fun hplain => ?_, fun hplain => ?_⟩
  · rw [if_pos ((endsInSection_inside_iff h).2 hplain),
      Content.cutBeforeSection?_content h.content h.sections (fun hin => nomatch hin),
      cutBeforeSection?_trailing h, Option.map_some, Option.getD_some, putBefore, List.append_nil]
  · rw [if_neg (mt (endsInSection_inside_iff h).1 hplain)]

/-! ### Locations and documents -/

/-- Without markers **the whole body is located**. -/
theorem locate_eq (h : part.IsProper) (habsent : options.markers.AbsentFrom part.text) :
    locate options.markers part.text = .ok (.ofRegion options.markers .wholeBody part.region) := by
  have hregion : MarkerStrategy.wholeBody.region options.markers part.text = .ok part.region :=
    region_eq h
  have hused : MarkerStrategy.isUsed options.markers part.text .wholeBody = true :=
    MarkerStrategy.isUsed_of_region hregion
  rw [locate, habsent.detect?_eq hused]
  exact map_eq_ok_iff.2 ⟨_, hregion, rfl⟩

/-- The content of the body holds **no markers to strip**. -/
theorem stripMarkers_content (h : part.IsProper) (habsent : options.markers.AbsentFrom part.text) :
    stripMarkers options.markers part.content.text = part.content.text := by
  have hstart : IsClosed part.start := by
    have htag : part.start = part.before ++ ("<w:body" ++ part.attributes) ++ ['>'] := by
      rw [List.append_assoc, List.append_assoc]
      rfl
    rw [htag]
    exact .of_close _
  have htext : part.text = part.start ++ part.content.text ++ (part.trailing ++ part.stop) := by
    simp only [text, region, Region.text, List.append_assoc]
  rw [htext] at habsent
  exact (habsent.of_append hstart (Content.isClosed_text h.content)).stripMarkers_eq

/-- What is split off the region of a main part **stands behind the location**. -/
theorem trailing_location (h : part.IsProper) (hends : part.section_.EndsPlainly) :
    (Location.ofRegion options.markers .wholeBody part.region).trailing = part.trailing := by
  rw [trailing_ofRegion, region, (splitTrailingSection_inside h).1 hends]

/-- What is repeated is **the content of the body** if its section properties end plainly. -/
theorem template_location (h : part.IsProper) (habsent : options.markers.AbsentFrom part.text)
    (hends : part.section_.EndsPlainly) :
    (Location.ofRegion options.markers .wholeBody part.region).template = part.content.text := by
  rw [Location.ofRegion, region, (splitTrailingSection_inside h).1 hends]
  exact stripMarkers_content h habsent

/-- A template with such a main part, **opened**. -/
def opened (h : part.IsProper) (habsent : options.markers.AbsentFrom part.text) {template : Bytes}
    {package : Package} (hpackage : Package.ofBytes? template = .ok package)
    (hmain : package.mainText = part.text) : OpenedTemplate options.markers template where
  package := package
  location := .ofRegion options.markers .wholeBody part.region
  region := part.region
  package_eq := hpackage
  location_eq := by rw [hmain, locate_eq h habsent]
  text_region := hmain.symm
  start_eq := rfl
  stop_eq := rfl

end SectionedPart

/-- Breaks that are no section breaks **do not depend on section properties**. -/
theorem BreakKind.markup_eq {kind : BreakKind} (h : kind ≠ .section) (context : BreakContext)
    (properties : Text) : kind.markup context properties = kind.markup context [] := by
  cases kind
  · cases context <;> rfl
  · exact absurd rfl h
  · cases context <;> rfl

/-- Merging records **fills the main part** with their copies if its section properties end
plainly. -/
theorem SectionedPart.merged_opened (h : part.IsProper)
    (habsent : options.markers.AbsentFrom part.text) (hends : part.section_.EndsPlainly)
    (hbreaks : options.breakKind ≠ .section) {template : Bytes} {package : Package}
    (hpackage : Package.ofBytes? template = .ok package) (hmain : package.mainText = part.text)
    (records : List Record) (shared : SharedContext) :
    (SectionedPart.opened h habsent hpackage hmain).merged options shared records =
      part.filled options.breakKind (records.map (options.copy part.content.text shared)) := by
  have hseparator : options.separator (SectionedPart.opened h habsent hpackage hmain).location =
      options.breakKind.markup (breakContext part.start) [] := BreakKind.markup_eq hbreaks _ _
  have htemplate : (SectionedPart.opened h habsent hpackage hmain).location.template =
      part.content.text := SectionedPart.template_location h habsent hends
  have htrailing : (SectionedPart.opened h habsent hpackage hmain).location.trailing =
      part.trailing := SectionedPart.trailing_location h hends
  rw [OpenedTemplate.merged, MergeOptions.copies, hseparator, htemplate, htrailing]
  rfl

/-- **When the section properties of a body follow the copies.** In a main part without markers,
whose body ends in section properties, the content of the body is repeated and the section
properties stay behind it, so that a document without section breaks holds the copies of all records
and then the section properties once, also if there are no records. This is so if and only if the
section properties have an end tag that is written without blanks. -/
theorem section_follows_copies_iff (part : SectionedPart) (h : part.IsProper)
    (options : MergeOptions)
    (habsent : options.markers.AbsentFrom part.text) (hbreaks : options.breakKind ≠ .section)
    (template : Bytes) (package : Package) (hpackage : Package.ofBytes? template = .ok package)
    (hmain : package.mainText = part.text) :
    (∃ location, locate options.markers part.text = .ok location ∧ location.strategy = .wholeBody ∧
      location.template = part.content.text ∧ location.trailing = part.trailing ∧
      ∀ records shared,
        ((∃ document, (generate options template records shared).result = .ok document) ↔
          (options.validates = true → checkWellFormed (part.filled options.breakKind
            (records.map (options.copy part.content.text shared))) = .ok ())) ∧
        ∀ document, (generate options template records shared).result = .ok document →
          (document.archive.part? package.mainName).map Part.text =
            some (.ok (part.filled options.breakKind
              (records.map (options.copy part.content.text shared))))) ↔
      part.section_.EndsPlainly := by
  have hlocate := SectionedPart.locate_eq h habsent
  constructor
  · rintro ⟨location, hlocation, -, -, htrailing, -⟩
    by_contra hnot
    -- nothing would be split off, but the section properties are not empty
    obtain rfl := Except.ok.inj (hlocate.symm.trans hlocation)
    rw [trailing_ofRegion, SectionedPart.region,
      (SectionedPart.splitTrailingSection_inside h).2 hnot] at htrailing
    exact part.trailing_ne_nil htrailing.symm
  · intro hends
    have hmerged := SectionedPart.merged_opened h habsent hends hbreaks hpackage hmain
    refine ⟨_, hlocate, rfl, SectionedPart.template_location h habsent hends,
      SectionedPart.trailing_location h hends,
      fun records shared => ⟨?_, fun document hdocument => ?_⟩⟩
    · rw [(SectionedPart.opened h habsent hpackage hmain).generate_succeeds_iff_check, hmerged]
    · obtain ⟨t, -, rfl⟩ := result_generate_eq_ok_iff.1 hdocument
      rw [t.eq (SectionedPart.opened h habsent hpackage hmain), hmerged]
      exact part?_repackage hpackage _

/-! ### The two ways of writing -/

theorem Label.isPlain_of_name {name : Text} (hne : name ≠ [])
    (hname : ∀ c ∈ name, endsTagName c = false ∧ c ≠ '<') : Label.IsPlain ⟨name, []⟩ where
  name_ne_nil := hne
  not_endsTagName c hc := (hname c hc).1
  open_not_mem hmem := (hname '<' (by simpa [Label.text] using hmem)).2 rfl
  blank _ hc := nomatch hc

/-- A body stands first in its main part if **its start tag occurs nowhere before it**. -/
theorem endsAtBlank_of_not_contains {before : Text} (h : Text.contains "<w:body" before = false) :
    ∀ u c v, before = u ++ ("<w:body".toList ++ c :: v) → endsAtBlank c = false := by
  rintro u c v rfl
  rw [contains_append] at h
  cases h

/-- A paragraph that ends a section. -/
def sectionParagraph : Content :=
  .element ⟨"w:p", []⟩ (.element ⟨"w:pPr", []⟩ (.empty ⟨"w:sectPr", []⟩ .nil) [] .nil) [] .nil

/-- A main part with such a paragraph, whose body ends in section properties that are written in one
way or the other. -/
def partWith (section_ : BodySection) : SectionedPart :=
  ⟨"<w:document>", [], sectionParagraph, section_, "\n", "</w:document>"⟩

theorem isProper_partWith {section_ : BodySection} (h : section_.content.MadeOf plainPieces)
    (hflat : ¬ section_.content.Holds "w:pPr") : (partWith section_).IsProper := by
  have hparagraph : Label.IsPlain ⟨"w:p", []⟩ := Label.isPlain_of_name (by decide) (by decide)
  have hproperties : Label.IsPlain ⟨"w:pPr", []⟩ := Label.isPlain_of_name (by decide) (by decide)
  have hsection : Label.IsPlain ⟨"w:sectPr", []⟩ := Label.isPlain_of_name (by decide) (by decide)
  have hblanks (name : Text) : plainPieces.blanks name [] :=
    ⟨fun _ hc => (nomatch hc), fun _ => rfl⟩
  exact {
    before :=
      endsAtBlank_of_not_contains (show Text.contains "<w:body" "<w:document>" = false by decide)
    attributes := List.not_mem_nil
    blank := fun _ hc => nomatch hc
    content :=
      ⟨hparagraph, ⟨hproperties, ⟨hsection, trivial⟩, hblanks _, trivial⟩, hblanks _, trivial⟩
    sections := ⟨fun hname => absurd hname (by decide),
      ⟨fun hname => absurd hname (by decide), ⟨fun _ => rfl, trivial⟩, trivial⟩, trivial⟩
    section_ := h
    flat := hflat
    blanks := (by decide : ∀ c ∈ "\n".toList, isBlank c = true)
    after := (by decide : Text.contains "</w:body>" "</w:document>" = false) }

/-- Section properties with an end tag. -/
def pairedSection : BodySection := .paired [] .nil []

/-- Section properties that are one empty tag. -/
def selfClosingSection : BodySection := .selfClosing []

theorem isProper_pairedSection : (partWith pairedSection).IsProper :=
  isProper_partWith ⟨Label.isPlain_of_name (by decide) (by decide), trivial,
    ⟨fun _ hc => (nomatch hc), fun _ => rfl⟩, trivial⟩
    (by simp [pairedSection, BodySection.content, Content.Holds])

theorem isProper_selfClosingSection : (partWith selfClosingSection).IsProper :=
  isProper_partWith ⟨Label.isPlain_of_name (by decide) (by decide), trivial⟩
    (by simp [selfClosingSection, BodySection.content, Content.Holds])

set_option maxRecDepth 10000 in
/-- Section properties with an end tag **are put out once**, also if there are no records. -/
theorem paired_section_follows_copies :
    MergeOptions.standard.markers.AbsentFrom (partWith pairedSection).text ∧
      (∃ location, locate MergeOptions.standard.markers (partWith pairedSection).text =
        .ok location ∧ location.template = (partWith pairedSection).content.text ∧
        location.trailing = "<w:sectPr></w:sectPr>\n") ∧
      ∃ document,
        (generate .standard (templateOf (partWith pairedSection).text) [] .empty).result =
          .ok document ∧
        (document.archive.part? usualMainPart).map Part.text =
          some (.ok "<w:document><w:body><w:sectPr></w:sectPr>\n</w:body></w:document>") := by
  have habsent : MergeOptions.standard.markers.AbsentFrom (partWith pairedSection).text :=
    ⟨by decide +kernel, by decide +kernel⟩
  obtain ⟨location, hlocation, -, htemplate, htrailing, hgenerate⟩ :=
    (section_follows_copies_iff (partWith pairedSection) isProper_pairedSection .standard
      habsent (by decide) (templateOf (partWith pairedSection).text)
      (packageOf (partWith pairedSection).text)
      (ofBytes?_templateOf (by decide +kernel)) rfl).2 rfl
  obtain ⟨hexists, hmain⟩ := hgenerate [] .empty
  obtain ⟨document, hdocument⟩ := hexists.2 fun _ => eq_ok_of_toOption (by decide +kernel)
  refine ⟨habsent, ⟨location, hlocation, htemplate, htrailing.trans (by decide)⟩, document,
    hdocument, (hmain document hdocument).trans ?_⟩
  exact congrArg (fun t => some (Except.ok t)) (by decide +kernel)

theorem absentFrom_selfClosingSection :
    MergeOptions.standard.markers.AbsentFrom (partWith selfClosingSection).text :=
  ⟨by decide +kernel, by decide +kernel⟩

set_option maxRecDepth 10000 in
/-- The template whose section properties are one empty tag, opened. -/
def selfClosingTemplate : OpenedTemplate MergeOptions.standard.markers
    (templateOf (partWith selfClosingSection).text) :=
  SectionedPart.opened isProper_selfClosingSection absentFrom_selfClosingSection
    (ofBytes?_templateOf (by decide +kernel)) rfl

/-- Section properties that are one empty tag **are repeated** with the content of the body, and
missing from the document if there are no records. -/
theorem selfClosing_section_is_repeated :
    (partWith selfClosingSection).IsProper ∧
      MergeOptions.standard.markers.AbsentFrom (partWith selfClosingSection).text ∧
      (∃ location, locate MergeOptions.standard.markers (partWith selfClosingSection).text =
        .ok location ∧
        location.template = (partWith selfClosingSection).content.text ++ "<w:sectPr/>\n" ∧
        location.trailing = []) ∧
      ∃ document,
        (generate .standard (templateOf (partWith selfClosingSection).text) [] .empty).result =
          .ok document ∧
        (document.archive.part? usualMainPart).map Part.text =
          some (.ok "<w:document><w:body></w:body></w:document>") := by
  refine ⟨isProper_selfClosingSection, absentFrom_selfClosingSection,
    ⟨selfClosingTemplate.location, selfClosingTemplate.location_eq, ?_, ?_⟩, _,
    result_generate_eq_ok_iff.2 ⟨selfClosingTemplate, fun _ => eq_ok_of_toOption ?_, rfl⟩,
    (part?_repackage selfClosingTemplate.package_eq _).trans
    (congrArg (fun t => some (Except.ok t)) ?_)⟩
  all_goals decide +kernel

end MailMerge
