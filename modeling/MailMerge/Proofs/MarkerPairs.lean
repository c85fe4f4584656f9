import MailMerge.Proofs.AbsentMarkers
import MailMerge.Proofs.Attributes
import MailMerge.Proofs.BodySection

/-!
# Bookmarks and comments

Bookmarks and comments are two ways of writing the same markers. The pair of tags of a bookmark and the
comment of its name may stand for one another: the region between two markers is the same, and so are the
template of the copies, the section properties behind them and the context of breaks. Bookmarks are looked
for first, so that comments are found if no bookmark stands anywhere in the main part; and neither the tags
of bookmarks nor comments open or close a paragraph.

What is around the markers is arbitrary, other bookmarks included, and with the same identifiers: the end
tag behind a start tag is the first one that is paired with it.

* `BookmarkPair` is a bookmark as it is written, and `BookmarkPair.IsOf` says that it has a name;
* `MergesTo` says which document is made of a main part;
* `bookmarks_and_comments_agree` — bookmarks and comments of the same names make the same copies.
-/

namespace MailMerge

/-! ### The specification -/

/-- A **bookmark around nothing, as it is written**: a start tag and an end tag. -/
structure BookmarkPair where
  opening : EmptyTag
  closing : EmptyTag
  deriving DecidableEq, Repr

namespace BookmarkPair

/-- The text of a bookmark. -/
def text (pair : BookmarkPair) : Text :=
  pair.opening.text "w:bookmarkStart" ++ pair.closing.text "w:bookmarkEnd"

/-- A bookmark **of a name**: the start tag carries the name and an identifier, and the end tag the same
identifier. Since a name stands between quotes in a tag, it holds neither quotes nor brackets. -/
structure IsOf (pair : BookmarkPair) (name : Text) : Prop where
  opening : pair.opening.IsProper
  closing : pair.closing.IsProper
  named : Attribute.Give pair.opening.attributes "w:name" name
  paired : ∃ id, Attribute.Give pair.opening.attributes "w:id" id ∧
    Attribute.Give pair.closing.attributes "w:id" id

/-- The bookmark of an identifier and a name as it is usually written. -/
def plain (id name : Text) : BookmarkPair where
  opening := ⟨[⟨" ", "w:id", id⟩, ⟨" ", "w:name", name⟩], []⟩
  closing := ⟨[⟨" ", "w:id", id⟩], []⟩

end BookmarkPair

/-- What stands between the brackets of the comment of a name. -/
def Comment.inner (name : Text) : Text := "!--" ++ name ++ "--"

/-- The comment of a name. -/
def Comment.text (name : Text) : Text := '<' :: Comment.inner name ++ ['>']

/-- Generating from a main part **makes a merged one**: whatever package the main part stands in, a document
is made unless it is checked and the merged main part fails the check, and it is the package with the merged
main part in it. -/
def MergesTo (options : MergeOptions) (mainPart : Text) (records : List Record) (shared : SharedContext)
    (merged : Text) : Prop :=
  ∀ template package, Package.ofBytes? template = .ok package → package.mainText = mainPart →
    ∀ document, (generate options template records shared).result = .ok document ↔
      (options.validates = true → checkWellFormed merged = .ok ()) ∧
        document = ⟨options.batchName, package.repackage merged, records.length⟩

variable {t u v name : Text} {names : MarkerNames} {pair : BookmarkPair}

/-! ### Bookmarks -/

theorem paragraphTag_takesTags : paragraphTag.TakesTags :=
  (tagLength_takesTags (by decide) endsAtBlank).orElse (tagLength_takesTags (by decide) endsAtBlank)

namespace BookmarkPair.IsOf

/-- A name that a bookmark has **holds no brackets**. -/
theorem not_mem_name (h : pair.IsOf name) : '<' ∉ name ∧ '>' ∉ name := by
  obtain ⟨a, ha, rfl⟩ := Option.map_eq_some_iff.1 h.named.1
  obtain ⟨hopen, hclose⟩ := h.opening.brackets a (List.mem_of_find?_eq_some ha)
  exact ⟨fun hmem => hopen (by simp [Attribute.text, hmem]),
    fun hmem => hclose (by simp [Attribute.text, hmem])⟩

theorem not_mem_opening (h : pair.IsOf name) :
    '<' ∉ pair.opening.inner "w:bookmarkStart" ∧ '>' ∉ pair.opening.inner "w:bookmarkStart" :=
  ⟨h.opening.not_mem_inner (.inl rfl) (by decide), h.opening.not_mem_inner (.inr rfl) (by decide)⟩

theorem not_mem_closing (h : pair.IsOf name) :
    '<' ∉ pair.closing.inner "w:bookmarkEnd" ∧ '>' ∉ pair.closing.inner "w:bookmarkEnd" :=
  ⟨h.closing.not_mem_inner (.inl rfl) (by decide), h.closing.not_mem_inner (.inr rfl) (by decide)⟩

theorem bracketed (h : pair.IsOf name) : Bracketed pair.text :=
  Bracketed.cutsAtBrackets.append (.tag h.not_mem_opening.1 h.not_mem_opening.2 .nil)
    (.tag h.not_mem_closing.1 h.not_mem_closing.2 .nil)

/-- The start tag of a bookmark **is found by its name**. -/
theorem findStart?_eq (h : pair.IsOf name) (t : Text) :
    Bookmark.findStart? name (pair.text ++ t) =
      some ⟨[], pair.opening.text "w:bookmarkStart", pair.closing.text "w:bookmarkEnd" ++ t⟩ := by
  have hnamed : Bookmark.isNamed name (pair.opening.text "w:bookmarkStart") = true := by
    rw [Bookmark.isNamed, h.opening.attribute?_text (by decide) (by decide +kernel) h.named]
    exact beq_self_eq_true _
  -- the start tag is a match as a whole, and it is the one that carries the name
  have hmatch (t : Text) : Bookmark.startTag (pair.opening.text "w:bookmarkStart" ++ t) =
      (pair.opening.text "w:bookmarkStart").length := h.opening.tagLength_text (by decide) t
  rw [text, List.append_assoc, Bookmark.findStart?, findMatch?_append_of_match (pair.opening.text_ne_nil _)
    (hmatch _), if_pos hnamed]

/-- The end tag of a bookmark **is found by its identifier**. -/
theorem exists_findEnd? (h : pair.IsOf name) : ∃ id,
    attribute? "w:id" (pair.opening.text "w:bookmarkStart") = some id ∧
      ∀ t, Bookmark.findEnd? id (pair.closing.text "w:bookmarkEnd" ++ t) =
        some ⟨[], pair.closing.text "w:bookmarkEnd", t⟩ := by
  obtain ⟨id, hopening, hclosing⟩ := h.paired
  refine ⟨id, h.opening.attribute?_text (by decide) (by decide +kernel) hopening, fun t => ?_⟩
  have hpaired : Bookmark.isPairedWith id (pair.closing.text "w:bookmarkEnd") = true := by
    rw [Bookmark.isPairedWith, h.closing.attribute?_text (by decide) (by decide +kernel) hclosing]
    exact beq_self_eq_true _
  have hmatch : Bookmark.endTag (pair.closing.text "w:bookmarkEnd" ++ t) =
      (pair.closing.text "w:bookmarkEnd").length := h.closing.tagLength_text (by decide) t
  rw [Bookmark.findEnd?, findMatch?_append_of_match (pair.closing.text_ne_nil _) hmatch, if_pos hpaired]

/-- A bookmark **opens and closes no paragraph**. -/
theorem matchesIn_paragraphTag (h : pair.IsOf name) : matchesIn paragraphTag pair.text = [] := by
  have hopening : paragraphTag.Passes (pair.opening.inner "w:bookmarkStart") := fun _ => rfl
  have hclosing : paragraphTag.Passes (pair.closing.inner "w:bookmarkEnd") := fun _ => rfl
  rw [text, EmptyTag.text, hopening.matchesIn_eq paragraphTag_takesTags.opens h.not_mem_opening.1]
  exact hclosing.matchesIn_eq_nil paragraphTag_takesTags.opens h.not_mem_closing.1

end BookmarkPair.IsOf

/-- Two bookmarks of the names **delimit a region**, if none of these names stand before them. -/
theorem Bookmark.region_pairs {start stop : BookmarkPair} {before inside : Text}
    (hstart : start.IsOf names.start) (hstop : stop.IsOf names.stop) (hbefore : Bracketed before)
    (hinside : Bracketed inside) (hnostart : findStart? names.start before = none)
    (hnostop : findStart? names.stop inside = none) (after : Text) :
    region names (before ++ start.text ++ inside ++ stop.text ++ after) =
      .ok ⟨before ++ start.text, inside, stop.text ++ after⟩ := by
  -- the tags stand where nothing was found before them, so that they are the first ones
  have hopening : findStart? names.start (before ++ (start.text ++ (inside ++ (stop.text ++ after)))) =
      some ⟨before, start.opening.text "w:bookmarkStart",
        start.closing.text "w:bookmarkEnd" ++ (inside ++ (stop.text ++ after))⟩ :=
    startTag_takesTags.findMatch?_behind hbefore hnostart (hstart.findStart?_eq _)
  have hclosing : findStart? names.stop (inside ++ (stop.text ++ after)) =
      some ⟨inside, stop.opening.text "w:bookmarkStart", stop.closing.text "w:bookmarkEnd" ++ after⟩ :=
    startTag_takesTags.findMatch?_behind hinside hnostop (hstop.findStart?_eq after)
  obtain ⟨id, hid, hend⟩ := hstart.exists_findEnd?
  have hregion := region_eq_ok_iff.2 ⟨_, id, _, _, hopening, hid, hend _, hclosing, rfl⟩
  simpa [BookmarkPair.text] using hregion

/-- A way of marking that delimits a region **is taken** if it is the first one. -/
theorem MarkerStrategy.detect?_bookmark {r : Region} (h : bookmark.region names t = .ok r) :
    detect? names t = some .bookmark := by
  rw [detect?, all, List.find?_cons, isUsed_of_region h]

/-! ### Comments -/

theorem Comment.not_mem_inner {bracket : Char} (hbracket : bracket ≠ '!' ∧ bracket ≠ '-')
    (hname : bracket ∉ name) : bracket ∉ Comment.inner name := by
  simp [Comment.inner, hname, hbracket]

/-- A comment **is found by its name**. -/
theorem Comment.find?_text (name t : Text) :
    Comment.find? name (Comment.text name ++ t) = some ⟨[], Comment.text name, t⟩ := by
  have hends (t : Text) : Comment.endLength ("-->".toList ++ t) = some 3 := rfl
  have hlength (t : Text) :
      Comment.nameLength name (name ++ ("-->".toList ++ t)) = some (name.length + 3) := by
    rw [Comment.nameLength, Text.dropPrefix?_eq_some_iff.2 rfl, Option.bind_some, hends]
    rfl
  have hbody : Comment.bodyLength name (name ++ ("-->".toList ++ t)) = some (name.length + 3) := by
    obtain ⟨c, u, hu⟩ := List.exists_cons_of_ne_nil (l := name ++ ("-->".toList ++ t)) (by simp)
    have hname := hlength t
    rw [hu] at hname ⊢
    rw [Comment.bodyLength_cons, hname]
    rfl
  have htext : Comment.text name ++ t = "<!--".toList ++ (name ++ ("-->".toList ++ t)) := by
    simp [Comment.text, Comment.inner]
  have hmatch : Comment.marker name (Comment.text name ++ t) = (Comment.text name).length := by
    rw [Comment.marker, htext, Text.dropPrefix?_eq_some_iff.2 rfl, Option.bind_eq_bind, Option.bind_some,
      hbody]
    simp [Comment.text, Comment.inner]
    omega
  have hne : Comment.text name ≠ [] := List.cons_ne_nil _ _
  rw [Comment.find?, findMatch?_append_of_match hne hmatch, if_pos rfl]

/-- Two comments of the names **delimit a region**, if none of these names stand before them. -/
theorem Comment.region_texts {before inside : Text} (hnames : names.FitTags) (hbefore : Bracketed before)
    (hinside : Bracketed inside) (hnostart : find? names.start before = none)
    (hnostop : find? names.stop inside = none) (after : Text) :
    region names (before ++ text names.start ++ inside ++ text names.stop ++ after) =
      .ok ⟨before ++ text names.start, inside, text names.stop ++ after⟩ := by
  have hopening : find? names.start (before ++ (text names.start ++ (inside ++ (text names.stop ++ after)))) =
      some ⟨before, text names.start, inside ++ (text names.stop ++ after)⟩ :=
    (marker_takesTags hnames.start).findMatch?_behind hbefore hnostart (find?_text names.start _)
  have hclosing : find? names.stop (inside ++ (text names.stop ++ after)) =
      some ⟨inside, text names.stop, after⟩ :=
    (marker_takesTags hnames.stop).findMatch?_behind hinside hnostop (find?_text names.stop after)
  have hregion := region_eq_ok_iff.2 ⟨_, _, hopening, hclosing, rfl⟩
  simpa using hregion

/-- A comment is **no bookmark**. -/
theorem Bookmark.isPresent_comment (hname : '<' ∉ name) :
    Bookmark.isPresent names (Comment.text name) = false := by
  have hpasses : Bookmark.startTag.Passes (Comment.inner name) := fun _ => rfl
  have hopen : '<' ∉ Comment.inner name := Comment.not_mem_inner (by decide) hname
  have hnone (key : Text) : Bookmark.findStart? key (Comment.text name) = none :=
    hpasses.findMatch?_eq_none Bookmark.startTag_takesTags.opens hopen
  rw [Bookmark.isPresent, hnone, hnone]
  rfl

/-- Comments **are taken** where they delimit a region and no bookmark of the names stands beside them. -/
theorem Comment.detect?_texts {before inside after : Text}
    (hopen : '<' ∉ names.start ∧ '<' ∉ names.stop)
    (hnames : names.FitTags) (hbefore : Bracketed before) (hinside : Bracketed inside)
    (habsent : names.AbsentFrom before) (habsent' : names.AbsentFrom inside)
    (habsent'' : names.AbsentFrom after) :
    MarkerStrategy.detect? names (before ++ text names.start ++ inside ++ text names.stop ++ after) =
      some .comment := by
  have htext {name : Text} (hopen : '<' ∉ name) (hclose : '>' ∉ name) : Bracketed (text name) :=
    .tag (not_mem_inner (by decide) hopen) (not_mem_inner (by decide) hclose) .nil
  -- bookmarks are looked for first, and there is none in any of the pieces
  have hnone : MarkerStrategy.isUsed names
      (before ++ text names.start ++ inside ++ text names.stop ++ after) .bookmark = false := by
    rw [MarkerStrategy.isUsed]
    simp only [List.append_assoc, Bookmark.isPresent_append hbefore,
      Bookmark.isPresent_append (htext hopen.1 hnames.start), Bookmark.isPresent_append hinside,
      Bookmark.isPresent_append (htext hopen.2 hnames.stop), Bookmark.isPresent_comment hopen.1,
      Bookmark.isPresent_comment hopen.2, habsent.1, habsent'.1, habsent''.1, Bool.or_false]
  have hregion : MarkerStrategy.comment.region names
      (before ++ text names.start ++ inside ++ text names.stop ++ after) = .ok _ :=
    region_texts hnames hbefore hinside habsent.find?_eq_none.1 habsent'.find?_eq_none.2 after
  rw [MarkerStrategy.detect?, MarkerStrategy.all, List.find?_cons, hnone, List.find?_cons,
    MarkerStrategy.isUsed_of_region hregion]

/-- A comment **opens and closes no paragraph**. -/
theorem Comment.matchesIn_paragraphTag (hname : '<' ∉ name) :
    matchesIn paragraphTag (Comment.text name) = [] := by
  have hpasses : paragraphTag.Passes (Comment.inner name) := fun _ => rfl
  exact hpasses.matchesIn_eq_nil paragraphTag_takesTags.opens (Comment.not_mem_inner (by decide) hname)

/-! ### Locations -/

/-- A part without tags of paragraphs **leaves the context** of breaks as it is. -/
theorem breakContext_append (hu : Bracketed u) (h : matchesIn paragraphTag v = []) :
    breakContext (u ++ v) = breakContext u := by
  rw [breakContext, openParagraphs, paragraphTag_takesTags.matchesIn_append hu, h, List.append_nil]
  rfl

/-- Without markers in it, a region **is the template and the section properties** behind it. -/
theorem template_append_trailing {r : Region} (strategy : MarkerStrategy) (hinside : Bracketed r.inside)
    (habsent : names.AbsentFrom r.inside) :
    (Location.ofRegion names strategy r).template ++ (Location.ofRegion names strategy r).trailing =
      r.inside := by
  have hsplit := append_splitTrailingSection r.inside
  have hcontent := (Bracketed.cutsAtBrackets.splitTrailingSection hinside).1
  have habsent' : names.AbsentFrom (splitTrailingSection r.inside).1 := by
    rw [← hsplit] at habsent
    exact MarkerNames.AbsentFrom.of_append (u := []) (.of_not_mem List.not_mem_nil) hcontent.isClosed habsent
  have hstrip : (Location.ofRegion names strategy r).template = (splitTrailingSection r.inside).1 :=
    habsent'.stripMarkers_eq
  rw [hstrip, trailing_ofRegion, hsplit]

/-- A main part whose region is known **merges to the copies** in the place of the region, with the section
properties behind them. -/
theorem mergesTo_of_region {options : MergeOptions} {strategy : MarkerStrategy} {r : Region}
    (hdetect : MarkerStrategy.detect? options.markers t = some strategy)
    (hregion : strategy.region options.markers t = .ok r) (records : List Record) (shared : SharedContext) :
    MergesTo options t records shared
      (r.before ++ (options.copies (.ofRegion options.markers strategy r) shared records ++
        (splitTrailingSection r.inside).2) ++ r.after) := by
  rintro template package hpackage rfl document
  -- there is one opened template of the package, and what is made of it is the merged main part
  have hlocate : locate options.markers package.mainText = .ok (.ofRegion options.markers strategy r) := by
    rw [locate, hdetect]
    exact map_eq_ok_iff.2 ⟨r, hregion, rfl⟩
  let opened : OpenedTemplate options.markers template :=
    ⟨package, _, r, hpackage, hlocate, Region.text_of_region hregion, rfl, rfl⟩
  have hmerged : opened.merged options shared records = r.before ++
      (options.copies (.ofRegion options.markers strategy r) shared records ++
        (splitTrailingSection r.inside).2) ++ r.after := by
    rw [← List.append_assoc r.before]
    rfl
  rw [result_generate_eq_ok_iff, ← hmerged]
  constructor
  · rintro ⟨t, hcheck, rfl⟩
    obtain rfl := t.eq opened
    exact ⟨hcheck, rfl⟩
  · rintro ⟨hcheck, rfl⟩
    exact ⟨opened, hcheck, rfl⟩

/-- Without section breaks, the copies of two locations **depend on the template and the context** alone. -/
theorem MergeOptions.copies_congr {options : MergeOptions} (hbreaks : options.breakKind ≠ .section)
    {location location' : Location} (hcontext : location.context = location'.context)
    (htemplate : location.template = location'.template) (shared : SharedContext) (records : List Record) :
    options.copies location shared records = options.copies location' shared records := by
  have hseparator : options.separator location = options.separator location' := by
    rw [separator, separator, BreakKind.markup_eq hbreaks, hcontext, ← BreakKind.markup_eq hbreaks]
  rw [copies, copies, htemplate, hseparator]

/-- A main part whose region is known **is located**. -/
theorem locate_of_region {strategy : MarkerStrategy} {r : Region}
    (hdetect : MarkerStrategy.detect? names t = some strategy) (hregion : strategy.region names t = .ok r) :
    locate names t = .ok (.ofRegion names strategy r) := by
  rw [locate, hdetect]
  exact map_eq_ok_iff.2 ⟨r, hregion, rfl⟩

/-- **Bookmarks and comments are interchangeable.** Around a text without markers, two bookmarks and two
comments of the same names delimit the same region, whatever stands around the markers: the template, the
section properties behind it and the context of breaks are the same, and the template and the section
properties are the text between the markers. So without section breaks, both main parts make the same copies
of any records, between the markers as they were and all that is around them. -/
theorem bookmarks_and_comments_agree (names : MarkerNames) (start stop : BookmarkPair)
    (hstart : start.IsOf names.start) (hstop : stop.IsOf names.stop) (before inside after : Text)
    (hbefore : Bracketed before) (hinside : Bracketed inside) (habsent : names.AbsentFrom before)
    (habsent' : names.AbsentFrom inside) (habsent'' : names.AbsentFrom after) :
    ∃ bookmarked commented : Location,
      locate names (before ++ start.text ++ inside ++ stop.text ++ after) = .ok bookmarked ∧
      locate names (before ++ Comment.text names.start ++ inside ++ Comment.text names.stop ++ after) =
        .ok commented ∧
      bookmarked.template = commented.template ∧ bookmarked.trailing = commented.trailing ∧
      bookmarked.context = commented.context ∧ bookmarked.template ++ bookmarked.trailing = inside ∧
      ∀ options : MergeOptions, options.markers = names → options.breakKind ≠ .section →
        ∀ records shared,
          MergesTo options (before ++ start.text ++ inside ++ stop.text ++ after) records shared
            ((before ++ start.text) ++
              (options.copies bookmarked shared records ++ bookmarked.trailing) ++
              (stop.text ++ after)) ∧
          MergesTo options (before ++ Comment.text names.start ++ inside ++ Comment.text names.stop ++ after)
            records shared
            ((before ++ Comment.text names.start) ++
              (options.copies bookmarked shared records ++ bookmarked.trailing) ++
              (Comment.text names.stop ++ after)) := by
  have hnames : names.FitTags := ⟨hstart.not_mem_name.2, hstop.not_mem_name.2⟩
  -- the region is the text between the markers in both main parts
  have hbookmarks : MarkerStrategy.bookmark.region names
      (before ++ start.text ++ inside ++ stop.text ++ after) =
        .ok ⟨before ++ start.text, inside, stop.text ++ after⟩ :=
    Bookmark.region_pairs hstart hstop hbefore hinside habsent.findStart?_eq_none.1
      habsent'.findStart?_eq_none.2 after
  have hcomments : MarkerStrategy.comment.region names
      (before ++ Comment.text names.start ++ inside ++ Comment.text names.stop ++ after) =
        .ok ⟨before ++ Comment.text names.start, inside, Comment.text names.stop ++ after⟩ :=
    Comment.region_texts hnames hbefore hinside habsent.find?_eq_none.1 habsent'.find?_eq_none.2 after
  have hdetect := MarkerStrategy.detect?_bookmark hbookmarks
  have hdetect' :=
    Comment.detect?_texts ⟨hstart.not_mem_name.1, hstop.not_mem_name.1⟩ hnames hbefore hinside
    habsent habsent' habsent''
  -- neither way of marking opens or closes a paragraph
  have hcontext : (Location.ofRegion names .bookmark
        ⟨before ++ start.text, inside, stop.text ++ after⟩).context =
      (Location.ofRegion names .comment
        ⟨before ++ Comment.text names.start, inside, Comment.text names.stop ++ after⟩).context :=
    (breakContext_append hbefore hstart.matchesIn_paragraphTag).trans
      (breakContext_append hbefore (Comment.matchesIn_paragraphTag hstart.not_mem_name.1)).symm
  refine ⟨_, _, locate_of_region hdetect hbookmarks, locate_of_region hdetect' hcomments, rfl, rfl, hcontext,
    template_append_trailing .bookmark hinside habsent', ?_⟩
  rintro options rfl hbreaks records shared
  refine ⟨mergesTo_of_region hdetect hbookmarks records shared, ?_⟩
  rw [MergeOptions.copies_congr hbreaks hcontext rfl]
  exact mergesTo_of_region hdetect' hcomments records shared

/-! ### Usual bookmarks -/

/-- The bookmark that is usually written for an identifier and a name **is one of the name**, if it can be
written: neither holds quotes or brackets, and the identifier does not end in an equals sign. -/
theorem BookmarkPair.isOf_plain {id : Text} (hid : '"' ∉ id ∧ '<' ∉ id ∧ '>' ∉ id)
    (hlast : id.getLast? ≠ some '=')
    (hname : '"' ∉ name ∧ '<' ∉ name ∧ '>' ∉ name) : (plain id name).IsOf name := by
  have hidentified : Attribute.IsProper ⟨" ", "w:id", id⟩ := .spaced (by decide +kernel) hid.1
  have hnamed : Attribute.IsProper ⟨" ", "w:name", name⟩ := .spaced (by decide +kernel) hname.1
  have hopen : '<' ∉ Attribute.text ⟨" ", "w:id", id⟩ ∧ '>' ∉ Attribute.text ⟨" ", "w:id", id⟩ := by
    simp [Attribute.text, hid]
  have hopen' : '<' ∉ Attribute.text ⟨" ", "w:name", name⟩ ∧
      '>' ∉ Attribute.text ⟨" ", "w:name", name⟩ := by
    simp [Attribute.text, hname]
  -- nothing stands behind the attributes, nor is there another one of their names
  have hnone {P : Char → Prop} : ∀ c ∈ ([] : Text), P c := fun _ hc => absurd hc List.not_mem_nil
  have hfirst {P : Attribute → Prop} : ∀ a ∈ ([] : List Attribute), P a :=
    fun _ ha => absurd ha List.not_mem_nil
  exact {
    opening := ⟨List.forall_mem_cons.2 ⟨hidentified, List.forall_mem_singleton.2 hnamed⟩,
      List.forall_mem_cons.2 ⟨hopen, List.forall_mem_singleton.2 hopen'⟩, hnone⟩
    closing := ⟨List.forall_mem_singleton.2 hidentified, List.forall_mem_singleton.2 hopen, hnone⟩
    named := by
      refine ⟨rfl, fun a ha => ?_⟩
      obtain rfl : a = ⟨" ", "w:id", id⟩ := List.mem_singleton.1 ha
      exact Attribute.not_seemsToOpen hlast _
    paired := ⟨id, ⟨rfl, hfirst⟩, ⟨rfl, hfirst⟩⟩ }

/-- Inside a paragraph, with another bookmark of the same identifier before the markers. -/
theorem bookmarks_and_comments_agree_in_paragraph :
    ∃ bookmarked commented,
      locate .standard ("<w:body><w:bookmarkStart w:id=\"0\" w:name=\"Other\"/><w:p>" ++
        (BookmarkPair.plain "0" "SectionStart").text ++ "<w:r/>" ++
        (BookmarkPair.plain "1" "SectionEnd").text ++ "</w:p></w:body>") = .ok bookmarked ∧
      locate .standard ("<w:body><w:bookmarkStart w:id=\"0\" w:name=\"Other\"/><w:p>" ++
        Comment.text "SectionStart" ++ "<w:r/>" ++ Comment.text "SectionEnd" ++ "</w:p></w:body>") =
          .ok commented ∧
      bookmarked.template = commented.template ∧ bookmarked.context = commented.context ∧
      bookmarked.template ++ bookmarked.trailing = "<w:r/>" := by
  have hstart : (BookmarkPair.plain "0" "SectionStart").IsOf "SectionStart" :=
    BookmarkPair.isOf_plain (by decide) (by decide) (by decide)
  have hstop : (BookmarkPair.plain "1" "SectionEnd").IsOf "SectionEnd" :=
    BookmarkPair.isOf_plain (by decide) (by decide) (by decide)
  obtain ⟨bookmarked, commented, hbookmarked, hcommented, htemplate, -, hcontext, hinside, -⟩ :=
    bookmarks_and_comments_agree .standard (.plain "0" "SectionStart") (.plain "1" "SectionEnd") hstart hstop
      "<w:body><w:bookmarkStart w:id=\"0\" w:name=\"Other\"/><w:p>" "<w:r/>" "</w:p></w:body>"
      (by decide) (by decide) ⟨by decide +kernel, by decide +kernel⟩ ⟨by decide +kernel, by decide +kernel⟩
      ⟨by decide +kernel, by decide +kernel⟩
  exact ⟨bookmarked, commented, hbookmarked, hcommented, htemplate, hcontext, hinside⟩

end MailMerge
