import Mathlib.Data.List.TakeWhile
import MailMerge.Proofs.CutRegions
import MailMerge.Proofs.Merging

/-!
# Locating again

What takes the place of a located region is located there again. The text that is put in holds no markers,
so that no other way of marking is taken, and no marker is found before those that were found at first; and
the section properties behind it, which were split off the region, can be split off it again.

* `MarkerNames.FitTags` are names that do not end the tag they stand in;
* `MarkerStrategy.detect?_replace` and `MarkerStrategy.region_replace` — the way of marking and the region
  of a main part with other text in its region;
* `splitTrailingSection_trailing` — section properties that were split off have no content before them;
* `locate_splice` — the location of a main part that was spliced;
* `OpenedTemplate.merged_nil` — a document made from no records makes itself.
-/

namespace MailMerge

/-- Names of markers that **do not end the tag** they stand in. -/
structure MarkerNames.FitTags (names : MarkerNames) : Prop where
  start : '>' ∉ names.start
  stop : '>' ∉ names.stop

variable {t u : Text} {names : MarkerNames} {strategy : MarkerStrategy} {r : Region}

/-! ### Ways of marking -/

theorem Bookmark.isPresent_append (hu : Bracketed u) (t : Text) :
    Bookmark.isPresent names (u ++ t) = (Bookmark.isPresent names u || Bookmark.isPresent names t) := by
  have happend (name : Text) : (Bookmark.findStart? name (u ++ t)).isSome =
      ((Bookmark.findStart? name u).isSome || (Bookmark.findStart? name t).isSome) :=
    Bookmark.startTag_takesTags.isSome_findMatch?_append hu t
  rw [Bookmark.isPresent, happend, happend, Bookmark.isPresent, Bookmark.isPresent]
  ac_rfl

theorem Comment.isPresent_append (hnames : names.FitTags) (hu : Bracketed u) (t : Text) :
    Comment.isPresent names (u ++ t) = (Comment.isPresent names u || Comment.isPresent names t) := by
  have happend {name : Text} (hname : '>' ∉ name) : (Comment.find? name (u ++ t)).isSome =
      ((Comment.find? name u).isSome || (Comment.find? name t).isSome) :=
    (Comment.marker_takesTags hname).isSome_findMatch?_append hu t
  rw [Comment.isPresent, happend hnames.start, happend hnames.stop, Comment.isPresent,
    Comment.isPresent]
  ac_rfl

namespace MarkerStrategy

/-- Markers are in use in two texts **if they are in one of them**. -/
theorem isUsed_append (hnames : names.FitTags) (hmarkers : strategy ≠ .wholeBody) (hu : Bracketed u)
    (t : Text) : isUsed names (u ++ t) strategy = (isUsed names u strategy || isUsed names t strategy) := by
  cases strategy with
  | bookmark => exact Bookmark.isPresent_append hu t
  | comment => exact Comment.isPresent_append hnames hu t
  | wholeBody => exact absurd rfl hmarkers

/-- A way of marking **is taken again** if it is in use, and no markers are that were not. -/
theorem detect?_replace (h : detect? names t = some strategy) (hused : isUsed names u strategy = true)
    (hmarkers : ∀ s, s ≠ .wholeBody → isUsed names t s = false → isUsed names u s = false) :
    detect? names u = some strategy := by
  obtain ⟨-, earlier, later, hall, hnone⟩ := List.find?_eq_some_iff_append.1 h
  refine List.find?_eq_some_iff_append.2 ⟨hused, earlier, later, hall, fun s hs => ?_⟩
  -- the whole body is the last of all ways
  have hmem : s ∈ all.dropLast := by
    rw [hall, List.dropLast_append_cons]
    exact List.mem_append_left _ hs
  have hne : s ≠ .wholeBody := by
    rintro rfl
    exact absurd hmem (by decide)
  have hs := hnone s hs
  rw [Bool.not_eq_true'] at hs ⊢
  exact hmarkers s hne hs

/-- A way of marking that delimits a region **is in use**. -/
theorem isUsed_of_region (h : strategy.region names t = .ok r) : isUsed names t strategy = true := by
  cases strategy with
  | bookmark =>
    obtain ⟨_, _, _, _, hopening, _⟩ := Bookmark.region_eq_ok_iff.1 h
    simp [isUsed, Bookmark.isPresent, hopening]
  | comment =>
    obtain ⟨_, _, hopening, _⟩ := Comment.region_eq_ok_iff.1 h
    simp [isUsed, Comment.isPresent, hopening]
  | wholeBody =>
    obtain ⟨_, _, _, hopening, _⟩ := Body.region_eq_ok_iff.1 h
    simp [isUsed, Body.isPresent, hasMatch, hopening]

/-- Whether a text holds **a marker that ends the region**. The end of the body is the last one, so that
others may stand before it. -/
def holdsStop (names : MarkerNames) (t : Text) : MarkerStrategy → Bool
  | .bookmark => (Bookmark.findStart? names.stop t).isSome
  | .comment => (Comment.find? names.stop t).isSome
  | .wholeBody => false

theorem holdsStop_append (hnames : names.FitTags) (hu : Bracketed u) (t : Text) :
    holdsStop names (u ++ t) strategy = (holdsStop names u strategy || holdsStop names t strategy) := by
  cases strategy with
  | bookmark => exact Bookmark.startTag_takesTags.isSome_findMatch?_append hu t
  | comment => exact (Comment.marker_takesTags hnames.stop).isSome_findMatch?_append hu t
  | wholeBody => rfl

theorem holdsStop_of_isUsed (hmarkers : ∀ s, s ≠ .wholeBody → isUsed names t s = false) :
    holdsStop names t strategy = false := by
  cases strategy with
  | bookmark => exact (Bool.or_eq_false_iff.1 (hmarkers .bookmark (by decide))).2
  | comment => exact (Bool.or_eq_false_iff.1 (hmarkers .comment (by decide))).2
  | wholeBody => rfl

end MarkerStrategy

/-! ### Regions -/

/-- The last cut **stays the last** whatever is put before it. -/
theorem Text.lastCut?_replace {needle a b : Text} (h : lastCut? needle t = some (a, b)) (u : Text) :
    lastCut? needle (u ++ needle ++ b) = some (u, b) := by
  -- behind the cut there is no other one, so that it is the last one wherever it stands
  have hhere : lastCut? needle (needle ++ b) = some ([], b) := by
    induction t generalizing a with
    | nil =>
      have ht := eq_of_lastCut? h
      obtain ⟨-, rfl, rfl⟩ : a = [] ∧ needle = [] ∧ b = [] := by simpa using ht.symm
      rfl
    | cons c t ih =>
      have ht := eq_of_lastCut? h
      rw [lastCut?] at h
      -- the cut lies in the tail or at the head
      split at h
      case h_1 q hq =>
        obtain ⟨-, rfl⟩ := Prod.mk.inj (Option.some.inj h)
        exact ih hq
      case h_2 hnone =>
        obtain ⟨rest, hrest, hcut⟩ := Option.map_eq_some_iff.1 h
        obtain ⟨rfl, rfl⟩ := Prod.mk.inj hcut
        rw [← Text.dropPrefix?_eq_some_iff.1 hrest, lastCut?, hnone, hrest]
        rfl
  induction u with
  | nil => exact hhere
  | cons c u ih => rw [List.cons_append, List.cons_append, lastCut?, ih]

theorem Bookmark.region_replace (h : Bookmark.region names t = .ok r) (ht : Bracketed t)
    (hu : Bracketed u) (hstop : Bookmark.findStart? names.stop u = none) :
    Bookmark.region names (r.before ++ u ++ r.after) = .ok { r with inside := u } := by
  have hstart := Bookmark.startTag_takesTags
  have hend := Bookmark.endTag_takesTags
  obtain ⟨opening, id, paired, closing, hopening, hid, hfind, hclosing, rfl⟩ :=
    Bookmark.region_eq_ok_iff.1 h
  -- each of the three tags is found in what the one before it leaves
  have hafter := (hstart.cut_findMatch? Bracketed.cutsAtBrackets hopening ht).2.2
  have hafter' := (hend.cut_findMatch? Bracketed.cutsAtBrackets hfind hafter).2.2
  have hopening' := hstart.findMatch?_again ht hopening
    (paired.before ++ paired.piece ++ (u ++ closing.piece ++ closing.after))
  have hfind' := hend.findMatch?_again hafter hfind (u ++ closing.piece ++ closing.after)
  have hclosing' := hstart.findMatch?_replace hafter' hclosing hu hstop closing.after
  have htext : opening.before ++ opening.piece ++ paired.before ++ paired.piece ++ u ++
      (closing.piece ++ closing.after) = opening.before ++ opening.piece ++
        (paired.before ++ paired.piece ++ (u ++ closing.piece ++ closing.after)) := by
    simp
  rw [htext]
  exact Bookmark.region_eq_ok_iff.2 ⟨_, id, _, _, hopening', hid, hfind', hclosing', rfl⟩

theorem Comment.region_replace (hnames : names.FitTags) (h : Comment.region names t = .ok r)
    (ht : Bracketed t) (hu : Bracketed u) (hstop : Comment.find? names.stop u = none) :
    Comment.region names (r.before ++ u ++ r.after) = .ok { r with inside := u } := by
  have hstart := Comment.marker_takesTags hnames.start
  have hend := Comment.marker_takesTags hnames.stop
  obtain ⟨opening, closing, hopening, hclosing, rfl⟩ := Comment.region_eq_ok_iff.1 h
  have hafter := (hstart.cut_findMatch? Bracketed.cutsAtBrackets hopening ht).2.2
  have hopening' := hstart.findMatch?_again ht hopening (u ++ closing.piece ++ closing.after)
  have hclosing' := hend.findMatch?_replace hafter hclosing hu hstop closing.after
  have htext : opening.before ++ opening.piece ++ u ++ (closing.piece ++ closing.after) =
      opening.before ++ opening.piece ++ (u ++ closing.piece ++ closing.after) := by
    simp
  rw [htext]
  exact Comment.region_eq_ok_iff.2 ⟨_, _, hopening', hclosing', rfl⟩

theorem Body.region_replace (h : Body.region t = .ok r) (ht : Bracketed t) (u : Text) :
    Body.region (r.before ++ u ++ r.after) = .ok { r with inside := u } := by
  obtain ⟨opening, inside, after, hopening, hcut, rfl⟩ := Body.region_eq_ok_iff.1 h
  have hopening' := Body.startTag_takesTags.findMatch?_again ht hopening (u ++ Body.endTag ++ after)
  have htext : opening.before ++ opening.piece ++ u ++ (Body.endTag ++ after) =
      opening.before ++ opening.piece ++ (u ++ Body.endTag ++ after) := by
    simp
  rw [htext]
  exact Body.region_eq_ok_iff.2 ⟨_, u, after, hopening', Text.lastCut?_replace hcut u, rfl⟩

namespace MarkerStrategy

/-- With other text in it that does not end it, **a region is a region** of the same way of marking. -/
theorem region_replace (hnames : names.FitTags) (h : strategy.region names t = .ok r)
    (ht : Bracketed t) (hu : Bracketed u) (hstop : holdsStop names u strategy = false) :
    strategy.region names (r.before ++ u ++ r.after) = .ok { r with inside := u } := by
  cases strategy with
  | bookmark => exact Bookmark.region_replace h ht hu (by simpa [holdsStop] using hstop)
  | comment => exact Comment.region_replace hnames h ht hu (by simpa [holdsStop] using hstop)
  | wholeBody => exact Body.region_replace h ht u

/-- A region holds **no marker that ends it**, since it ends at the first one. -/
theorem holdsStop_of_region (hnames : names.FitTags) (h : strategy.region names t = .ok r)
    (ht : Bracketed t) : holdsStop names r.inside strategy = false := by
  have hcut := Bracketed.cutsAtBrackets
  cases strategy with
  | bookmark =>
    have hstart := Bookmark.startTag_takesTags
    obtain ⟨opening, _, paired, closing, hopening, -, hfind, hclosing, rfl⟩ :=
      Bookmark.region_eq_ok_iff.1 h
    have hafter := (hstart.cut_findMatch? hcut hopening ht).2.2
    have hafter' := (Bookmark.endTag_takesTags.cut_findMatch? hcut hfind hafter).2.2
    exact Option.isSome_eq_false_iff.2 (Option.isNone_iff_eq_none.2
      (hstart.of_findMatch? hafter' hclosing).1)
  | comment =>
    obtain ⟨opening, closing, hopening, hclosing, rfl⟩ := Comment.region_eq_ok_iff.1 h
    have hafter :=
      ((Comment.marker_takesTags hnames.start).cut_findMatch? hcut hopening ht).2.2
    exact Option.isSome_eq_false_iff.2 (Option.isNone_iff_eq_none.2
      ((Comment.marker_takesTags hnames.stop).of_findMatch? hafter hclosing).1)
  | wholeBody => rfl

end MarkerStrategy

/-! ### Section properties -/

theorem Text.endsWith_iff {needle t : Text} : endsWith needle t = true ↔ ∃ u, t = u ++ needle := by
  rw [endsWith, dropSuffix?, Option.isSome_map, Option.isSome_iff_exists]
  constructor
  · rintro ⟨rest, hrest⟩
    have ht := congrArg List.reverse (dropPrefix?_eq_some_iff.1 hrest)
    exact ⟨rest.reverse, by simpa using ht⟩
  · rintro ⟨u, rfl⟩
    exact ⟨u.reverse, dropPrefix?_eq_some_iff.2 (by simp)⟩

/-- A region ends in section properties if **only blanks follow** their end tag. -/
theorem endsInSection_iff : Text.endsWith "</w:sectPr>" (Text.trimEnd t) = true ↔
    ∃ u blanks, t = u ++ "</w:sectPr>".toList ++ blanks ∧ ∀ c ∈ blanks, isBlank c = true := by
  rw [Text.endsWith_iff]
  constructor
  · rintro ⟨u, hu⟩
    refine ⟨u, (t.reverse.takeWhile isBlank).reverse, ?_, fun c hc =>
      List.mem_takeWhile_imp (List.mem_reverse.1 hc)⟩
    rw [← hu, Text.trimEnd, ← List.reverse_append, List.takeWhile_append_dropWhile,
      List.reverse_reverse]
  · rintro ⟨u, blanks, rfl, hblanks⟩
    refine ⟨u, ?_⟩
    have hdrop : (blanks.reverse ++ (u ++ "</w:sectPr>".toList).reverse).dropWhile isBlank =
        (u ++ "</w:sectPr>".toList).reverse := by
      rw [List.dropWhile_append_of_pos fun c hc => hblanks c (List.mem_reverse.1 hc),
        List.reverse_append]
      exact List.dropWhile_cons_of_neg (by decide)
    rw [Text.trimEnd, List.reverse_append, hdrop, List.reverse_reverse]

theorem cutBeforeSection?_again {p : Text × Text} (h : cutBeforeSection? t = some p) :
    cutBeforeSection? p.2 = some ([], p.2) := by
  induction t generalizing p with
  | nil => cases h
  | cons c t ih =>
    rw [cutBeforeSection?] at h
    split at h
    case isTrue hhere =>
      cases h
      rw [cutBeforeSection?, if_pos hhere]
    case isFalse =>
      obtain ⟨q, hq, rfl⟩ := Option.map_eq_some_iff.1 h
      have hagain := ih hq
      exact hagain

/-- Content and section properties **are the region**. -/
theorem append_splitTrailingSection (t : Text) :
    (splitTrailingSection t).1 ++ (splitTrailingSection t).2 = t := by
  rcases splitTrailingSection_cases t with hwhole | ⟨-, hcut⟩
  · rw [hwhole, List.append_nil]
  · exact (eq_append_of_cutBeforeSection? hcut).1.symm

/-- Section properties that were **split off** have no content before them. -/
theorem splitTrailingSection_trailing (t : Text) :
    splitTrailingSection (splitTrailingSection t).2 = ([], (splitTrailingSection t).2) := by
  rcases splitTrailingSection_cases t with hwhole | ⟨hends, hcut⟩
  · rw [hwhole]
    exact (by decide : splitTrailingSection [] = ([], []))
  · generalize splitTrailingSection t = p at hcut ⊢
    obtain ⟨ht, w, hw⟩ := eq_append_of_cutBeforeSection? hcut
    obtain ⟨u, blanks, hu, hblanks⟩ := endsInSection_iff.1 hends
    have hends' : Text.endsWith "</w:sectPr>" (Text.trimEnd p.2) = true := by
      rw [List.append_assoc] at hu
      -- the end tag stands in the section properties, since these do not begin behind its head
      rcases List.suffix_or_suffix_of_suffix (show "</w:sectPr>".toList ++ blanks <:+ t from ⟨u, hu.symm⟩)
        (show p.2 <:+ t from ⟨p.1, ht.symm⟩) with ⟨v, hv⟩ | ⟨v, hv⟩
      · exact endsInSection_iff.2 ⟨v, blanks, by rw [← hv, List.append_assoc], hblanks⟩
      · cases v with
        | nil => exact endsInSection_iff.2 ⟨[], blanks, hv, hblanks⟩
        | cons c v =>
          have htail : v ++ p.2 = "/w:sectPr>".toList ++ blanks := (List.cons.inj hv).2
          have hmem : '<' ∈ "/w:sectPr>".toList ++ blanks := by
            rw [← htail, hw]
            simp
          rcases List.mem_append.1 hmem with hmem | hmem
          · exact absurd hmem (by decide)
          · exact absurd (hblanks _ hmem) (by decide)
    rw [splitTrailingSection, if_pos hends', cutBeforeSection?_again hcut]
    rfl

/-! ### Locations -/

/-- Whether a text holds **no marker** of the given names, neither a bookmark nor a comment. -/
def MarkerNames.AbsentFrom (names : MarkerNames) (t : Text) : Prop :=
  Bookmark.isPresent names t = false ∧ Comment.isPresent names t = false

theorem MarkerNames.AbsentFrom.isUsed (h : names.AbsentFrom t) :
    ∀ s, s ≠ .wholeBody → MarkerStrategy.isUsed names t s = false
  | .bookmark, _ => h.1
  | .comment, _ => h.2
  | .wholeBody, hne => absurd rfl hne

/-- With a text without markers in it, and the section properties behind that, **the region is located
again**. -/
theorem locate_replace {copies : Text} (hnames : names.FitTags) (ht : Bracketed t)
    (hdetect : MarkerStrategy.detect? names t = some strategy) (hregion : strategy.region names t = .ok r)
    (hcopies : Bracketed copies) (habsent : names.AbsentFrom copies) :
    locate names (r.before ++ (copies ++ (splitTrailingSection r.inside).2) ++ r.after) =
      .ok (.ofRegion names strategy
        { r with inside := copies ++ (splitTrailingSection r.inside).2 }) := by
  -- the main part falls into four texts that can be looked through one after the other
  have hcut := Bracketed.cutsAtBrackets
  have htext := Region.text_of_region hregion
  have hsplit := append_splitTrailingSection r.inside
  have hstop := MarkerStrategy.holdsStop_of_region hnames hregion ht
  obtain ⟨hbefore, hinside, -⟩ := hcut.of_region hregion ht
  obtain ⟨hcontent, htrailing⟩ := hcut.splitTrailingSection hinside
  generalize (splitTrailingSection r.inside).1 = content at *
  generalize (splitTrailingSection r.inside).2 = trailing at *
  have hregion' : strategy.region names (r.before ++ (copies ++ trailing) ++ r.after) =
      .ok { r with inside := copies ++ trailing } := by
    refine MarkerStrategy.region_replace hnames hregion ht (hcut.append hcopies htrailing) ?_
    -- the section properties have stood in the region, before the marker that ends it
    rw [← hsplit, MarkerStrategy.holdsStop_append hnames hcontent, Bool.or_eq_false_iff] at hstop
    rw [MarkerStrategy.holdsStop_append hnames hcopies, hstop.2,
      MarkerStrategy.holdsStop_of_isUsed habsent.isUsed]
    rfl
  have hdetect' : MarkerStrategy.detect? names (r.before ++ (copies ++ trailing) ++ r.after) =
      some strategy := by
    refine MarkerStrategy.detect?_replace hdetect (MarkerStrategy.isUsed_of_region hregion')
      fun s hs hnone => ?_
    -- what is there besides the copies has been there before
    rw [← htext, Region.text, ← hsplit] at hnone
    simp only [List.append_assoc, MarkerStrategy.isUsed_append hnames hs hbefore,
      MarkerStrategy.isUsed_append hnames hs hcontent, MarkerStrategy.isUsed_append hnames hs htrailing,
      MarkerStrategy.isUsed_append hnames hs hcopies, Bool.or_eq_false_iff] at hnone ⊢
    exact ⟨hnone.1, habsent.isUsed s hs, hnone.2.2⟩
  rw [locate, hdetect']
  dsimp only
  rw [hregion']
  rfl

/-- **What is spliced is located again.** A text without markers takes the place of a located region, and
the main part that results has the same way of marking, with the region at the same place; it ends behind
the text and the section properties. So no copies at all, as there are for no records, leave what they have
made as it is. -/
theorem locate_splice {copies : Text} {location : Location} (hnames : names.FitTags)
    (ht : Bracketed t) (hlocate : locate names t = .ok location) (hcopies : Bracketed copies)
    (habsent : names.AbsentFrom copies) :
    ∃ spliced again,
      splice t location.regionStart location.regionStop location.trailing copies = .ok spliced ∧
      locate names spliced = .ok again ∧
      again.strategy = location.strategy ∧ again.regionStart = location.regionStart ∧
      again.context = location.context ∧
      again.regionStop = location.regionStart + Text.utf8Size copies +
        Text.utf8Size location.trailing ∧
      (copies = [] →
        splice spliced again.regionStart again.regionStop again.trailing [] = .ok spliced) := by
  obtain ⟨strategy, r, hdetect, hregion, rfl⟩ := exists_region_of_locate hlocate
  have hsplice := splice_region r (splitTrailingSection r.inside).2 copies
  rw [Region.text_of_region hregion, List.append_assoc r.before] at hsplice
  refine ⟨_, _, hsplice, locate_replace hnames ht hdetect hregion hcopies habsent, rfl, rfl, rfl, ?_,
    ?_⟩
  · rw [regionStop_ofRegion, regionStart_ofRegion, trailing_ofRegion, Region.stop, Text.utf8Size_append,
      ← Nat.add_assoc]
    rfl
  · -- the section properties are the whole region then, and stay what they are
    rintro rfl
    have hagain := splice_region { r with inside := (splitTrailingSection r.inside).2 }
      (splitTrailingSection r.inside).2 []
    rw [List.append_nil] at hagain
    rw [List.nil_append, trailing_ofRegion, splitTrailingSection_trailing]
    exact hagain

/-- A body is located again though the copies in it close and open it themselves. -/
theorem locate_splice_in_body :
    ∃ spliced again,
      splice "<w:body><w:p/><w:sectPr></w:sectPr></w:body>" 8 35 "<w:sectPr></w:sectPr>"
        "<w:p>ä</w:p></w:body><w:body>" = .ok spliced ∧
      locate .standard spliced = .ok again ∧ again.strategy = .wholeBody ∧ again.regionStart = 8 ∧
      again.context = .block ∧ again.regionStop = 59 ∧
      (("<w:p>ä</w:p></w:body><w:body>" : Text) = [] →
        splice spliced again.regionStart again.regionStop again.trailing [] = .ok spliced) := by
  have hlocate : locate .standard "<w:body><w:p/><w:sectPr></w:sectPr></w:body>" =
      .ok ⟨.wholeBody, 8, 35, "<w:p/>", "<w:sectPr></w:sectPr>", "<w:sectPr></w:sectPr>", .block⟩ :=
    eq_ok_of_toOption (by decide +kernel)
  exact locate_splice ⟨by decide, by decide⟩ (by decide) hlocate (by decide)
    ⟨by decide +kernel, by decide +kernel⟩

/-- A document **made from no records** makes itself: as a template, it gives itself for no records. -/
theorem OpenedTemplate.merged_nil {bytes bytes' : Bytes} (made : OpenedTemplate names bytes)
    (again : OpenedTemplate names bytes') {options options' : MergeOptions}
    {shared shared' : SharedContext} (hnames : names.FitTags) (ht : Bracketed made.package.mainText)
    (hmain : again.package.mainText = made.merged options shared []) :
    again.merged options' shared' [] = again.package.mainText := by
  have habsent : names.AbsentFrom [] := by
    simp [MarkerNames.AbsentFrom, Bookmark.isPresent, Bookmark.findStart?, Comment.isPresent,
      Comment.find?]
  obtain ⟨strategy, r, hdetect, hregion, hlocation⟩ := exists_region_of_locate made.location_eq
  have hsplice : splice made.package.mainText made.location.regionStart made.location.regionStop
      made.location.trailing [] = .ok (made.merged options shared []) := made.splice_eq []
  have hsplice' : splice again.package.mainText again.location.regionStart again.location.regionStop
      again.location.trailing [] = .ok (again.merged options' shared' []) := again.splice_eq []
  rw [hlocation, ← Region.text_of_region hregion, regionStart_ofRegion, regionStop_ofRegion,
    trailing_ofRegion, splice_region, List.append_assoc r.before, Except.ok.injEq] at hsplice
  -- the section properties are the whole region of the document, and are split off again
  have hlocate := again.location_eq
  rw [hmain, ← hsplice, locate_replace hnames ht hdetect hregion .nil habsent, Except.ok.injEq]
    at hlocate
  rw [hmain, ← hsplice, ← hlocate, regionStart_ofRegion, regionStop_ofRegion, trailing_ofRegion,
    List.nil_append, splitTrailingSection_trailing] at hsplice'
  have hagain := splice_region { r with inside := (splitTrailingSection r.inside).2 }
    (splitTrailingSection r.inside).2 []
  rw [List.append_nil] at hagain
  rw [hmain, ← hsplice]
  exact (Except.ok.inj (hagain.symm.trans hsplice')).symm

end MailMerge
