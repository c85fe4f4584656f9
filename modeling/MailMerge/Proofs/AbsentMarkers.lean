import MailMerge.Proofs.FilledTemplate
import MailMerge.Proofs.Relocation

/-!
# Main parts without markers

A main part has no explicit markers if neither a bookmark nor a comment of the two names is found in
it. Then none is found in a part of it either, provided that the part and what stands before it are
closed: no tag that begins in them ends behind them. And where no markers are found, none are
removed.

* `IsClosed` says that every `<` in a text has a `>` behind it;
* `Matcher.TakesTags.findMatch?_append_of_isClosed` — the first match in two texts, the first of
  them closed;
* `MarkerNames.AbsentFrom.of_append` — no markers are found in a part of a text without markers;
* `MarkerNames.AbsentFrom.stripMarkers_eq` — none are removed.
-/

namespace MailMerge

variable {m : Matcher} {p : Text → Bool} {t u v : Text} {c : Char} {names : MarkerNames}
  {name : Text}

/-! ### Closed texts -/

/-- A text is **closed** if every `<` in it has a `>` behind it. -/
def IsClosed (t : Text) : Prop := ∀ a b, t = a ++ '<' :: b → '>' ∈ b

namespace IsClosed

theorem of_not_mem (h : '<' ∉ t) : IsClosed t := by
  rintro a b rfl
  exact absurd (List.mem_append_right a (List.mem_cons_self ..)) h

theorem of_close (t : Text) : IsClosed (t ++ ['>']) := by
  intro a b hab
  -- the bracket at the end is behind the one that opens, for they differ
  rcases List.eq_nil_or_concat' b with rfl | ⟨b', d, rfl⟩
  · have hlast := (List.append_inj' hab rfl).2
    cases hlast
  · rw [← List.cons_append, ← List.append_assoc] at hab
    obtain rfl := List.singleton_inj.1 (List.append_inj' hab rfl).2
    exact List.mem_append_right _ (List.mem_singleton_self _)

theorem append (ht : IsClosed t) (hu : IsClosed u) : IsClosed (t ++ u) := by
  intro a b hab
  rcases List.append_eq_append_iff.1 hab with ⟨a', rfl, rfl⟩ | ⟨w, rfl, hw⟩
  · exact hu a' b rfl
  · cases w with
    | nil => exact hu [] b hw.symm
    | cons d w =>
      obtain ⟨rfl, rfl⟩ := List.cons.inj hw
      exact List.mem_append_left _ (ht a w rfl)

/-- What is left of a closed text when a part at its head is taken off is closed. -/
theorem of_append (h : IsClosed (t ++ u)) : IsClosed u := by
  rintro a b rfl
  exact h (t ++ a) b (List.append_assoc ..).symm

end IsClosed

/-- Where brackets only delimit tags, **every tag ends**. -/
theorem Bracketed.isClosed (h : Bracketed t) : IsClosed t := by
  rintro a b rfl
  obtain ⟨inner, u, rfl, -⟩ := exists_of_bracketScan (bracketed_iff.1 (Bracketed.cutsAtBrackets.split_open h).2)
  simp

/-- The first match in a closed text with **another text behind it** is that of the closed text or,
if it has none, that of the other. -/
theorem Matcher.TakesTags.findMatch?_append_of_isClosed (hm : m.TakesTags) (hu : IsClosed u)
    (t : Text) :
    findMatch? m p (u ++ t) =
      ((findMatch? m p u).map (·.followedBy t)).or ((findMatch? m p t).map (Found.behind u)) := by
  -- by induction on the length, since a tag that is passed over is passed over whole
  induction hlen : u.length using Nat.strongRecOn generalizing u with
  | ind n ih =>
    cases u with
    | nil => simp
    | cons c u =>
      have hrest : IsClosed u := IsClosed.of_append (t := [c]) hu
      have hzero (h : m (c :: u) = 0) (h' : m (c :: (u ++ t)) = 0) :
          findMatch? m p (c :: u ++ t) = ((findMatch? m p (c :: u)).map (·.followedBy t)).or
            ((findMatch? m p t).map (Found.behind (c :: u))) := by
        rw [List.cons_append, findMatch?_cons_of_zero h', findMatch?_cons_of_zero h,
          ih u.length (by simp [← hlen]) hrest rfl]
        cases findMatch? m p u <;> cases findMatch? m p t <;> rfl
      by_cases hc : c = '<'
      · subst hc
        obtain ⟨inner, w, rfl, hinner⟩ := List.eq_append_cons_of_mem (hu [] u rfl)
        have htext (v : Text) : '<' :: (inner ++ '>' :: v) = ('<' :: inner ++ ['>']) ++ v := by simp
        rcases hm.whole inner hinner with hmatch | hnone
        · have hlength (v : Text) :
              m (('<' :: inner ++ ['>']) ++ v) = ('<' :: inner ++ ['>']).length := by
            rw [← htext, ← List.cons_append, hmatch]
            simp
          have hw : IsClosed w := IsClosed.of_append (t := '<' :: inner ++ ['>']) (htext w ▸ hu)
          have hshort : w.length < n := by simp [← hlen]; omega
          have hne : '<' :: inner ++ ['>'] ≠ [] := List.cons_ne_nil _ _
          rw [htext, List.append_assoc, findMatch?_append_of_match hne (hlength _),
            findMatch?_append_of_match hne (hlength _)]
          split
          case isTrue => rfl
          case isFalse =>
            rw [ih w.length hshort hw rfl]
            cases findMatch? m p w <;> cases findMatch? m p t <;>
              simp [Found.behind, Found.followedBy]
        · refine hzero (hnone w) ?_
          have := hnone (w ++ t)
          simpa using this
      · exact hzero (hm.opens _ _ hc) (hm.opens _ _ hc)

theorem Matcher.TakesTags.findMatch?_eq_none_of_append (hm : m.TakesTags) (hu : IsClosed u)
    (h : findMatch? m p (u ++ t) = none) : findMatch? m p u = none ∧ findMatch? m p t = none := by
  rw [hm.findMatch?_append_of_isClosed hu, Option.or_eq_none_iff, Option.map_eq_none_iff,
    Option.map_eq_none_iff] at h
  exact h

/-! ### Texts without matches -/

/-- No match with a property is found **if no match has it**. -/
theorem findMatch?_eq_none_iff :
    findMatch? m p t = none ↔ ∀ piece ∈ matchesIn m t, p piece = false := by
  fun_induction findMatch? m p t with
  | case1 => simp
  | case2 c t hzero ih => rw [Option.map_eq_none_iff, ih, matchesIn_cons_of_zero hzero]
  | case3 c t n hmatch hp =>
    rw [matchesIn, segments, hmatch]
    simp [hp]
  | case4 c t n hmatch hp ih =>
    rw [Option.map_eq_none_iff, ih, matchesIn, matchesIn, segments, hmatch]
    simp [hp]

theorem rewriteMatches_eq_self {f : Text → Text} (h : ∀ piece ∈ matchesIn m t, f piece = piece) :
    rewriteMatches m f t = t := by
  rw [rewriteMatches_congr h, rewriteMatches]
  refine Eq.trans (List.flatMap_congr fun segment _ => ?_) (flatMap_text_segments m t)
  cases segment <;> rfl

/-! ### Bookmarks -/

/-- Where neither bookmark is found, **none is removed**. -/
theorem Bookmark.strip_eq_self (hstart : Bookmark.findStart? names.start t = none)
    (hstop : Bookmark.findStart? names.stop t = none) : Bookmark.strip names t = t := by
  have hmarker : ∀ tag ∈ matchesIn Bookmark.startTag t, Bookmark.isMarker names tag = false := by
    intro tag htag
    rw [Bookmark.isMarker, findMatch?_eq_none_iff.1 hstart tag htag,
      findMatch?_eq_none_iff.1 hstop tag htag]
    rfl
  have hids : Bookmark.markerIds names t = [] := by
    rw [Bookmark.markerIds, List.filter_eq_nil_iff.2 fun tag htag => by simp [hmarker tag htag],
      List.filterMap_nil]
  have hstarts : rewriteMatches Bookmark.startTag
      (fun tag => if Bookmark.isMarker names tag then [] else tag) t = t :=
    rewriteMatches_eq_self fun tag htag => by rw [hmarker tag htag, if_neg Bool.false_ne_true]
  rw [Bookmark.strip, hids, hstarts]
  exact rewriteMatches_eq_self fun _ _ => rfl

/-! ### Comments -/

/-- A comment is not found **if none begins anywhere**. -/
theorem Comment.find?_eq_none_iff :
    Comment.find? name t = none ↔ ∀ a b, t = a ++ b → Comment.marker name b = 0 := by
  unfold Comment.find?
  induction t with
  | nil =>
    rw [findMatch?_nil]
    refine ⟨fun _ a b hab => ?_, fun _ => rfl⟩
    rw [(List.append_eq_nil_iff.1 hab.symm).2]
    rfl
  | cons c t ih =>
    -- one begins at the head, or all that begin do so behind it
    cases hmatch : Comment.marker name (c :: t) with
    | zero =>
      rw [findMatch?_cons_of_zero hmatch, Option.map_eq_none_iff, ih]
      constructor
      · intro h a b hab
        cases a with
        | nil => rw [← show c :: t = b from hab, hmatch]
        | cons d a => exact h a b (List.cons.inj hab).2
      · intro h a b hab
        exact h (c :: a) b (by rw [hab, List.cons_append])
    | succ n =>
      rw [findMatch?, hmatch]
      constructor
      · intro h
        cases h
      · intro h
        have := h [] (c :: t) rfl
        rw [hmatch] at this
        cases this

theorem Comment.isSome_endLength_append (h : (Comment.endLength t).isSome = true) (u : Text) :
    (Comment.endLength (t ++ u)).isSome = true := by
  rw [Comment.endLength, Option.isSome_map] at h ⊢
  obtain ⟨rest, hrest⟩ := Option.isSome_iff_exists.1 h
  have hdrop := Text.dropPrefix?_eq_some_iff.1 hrest
  have happend : (t ++ u).dropWhile isBlank = "-->".toList ++ (rest ++ u) := by
    have ht := List.takeWhile_append_dropWhile (p := isBlank) (l := t)
    rw [hdrop] at ht
    rw [← ht, List.append_assoc, List.dropWhile_append_of_pos fun a ha => List.mem_takeWhile_imp ha,
      List.append_assoc]
    exact List.dropWhile_cons_of_neg (by decide)
  rw [happend, Text.dropPrefix?_eq_some_iff.2 rfl]
  rfl

theorem Comment.isSome_nameLength_append (h : (Comment.nameLength name t).isSome = true)
    (u : Text) :
    (Comment.nameLength name (t ++ u)).isSome = true := by
  obtain ⟨n, hn⟩ := Option.isSome_iff_exists.1 h
  obtain ⟨rest, hrest, hend⟩ := Option.bind_eq_some_iff.1 hn
  have hsome : (Comment.endLength rest).isSome = true := by
    obtain ⟨k, hk, -⟩ := Option.map_eq_some_iff.1 hend
    rw [hk]
    rfl
  have happend : Text.dropPrefix? name (t ++ u) = some (rest ++ u) :=
    Text.dropPrefix?_eq_some_iff.2 (by rw [Text.dropPrefix?_eq_some_iff.1 hrest, List.append_assoc])
  rw [Comment.nameLength, happend, Option.bind_some, Option.isSome_map]
  exact Comment.isSome_endLength_append hsome u

theorem Comment.isSome_bodyLength_append (h : (Comment.bodyLength name t).isSome = true)
    (u : Text) :
    (Comment.bodyLength name (t ++ u)).isSome = true := by
  induction t with
  | nil => cases h
  | cons c t ih =>
    rw [Comment.bodyLength_cons, Option.isSome_or, Bool.or_eq_true] at h
    rw [List.cons_append, Comment.bodyLength_cons, Option.isSome_or, Bool.or_eq_true]
    rcases h with h | h
    · exact .inl (Comment.isSome_nameLength_append h u)
    · right
      split at h
      case isFalse => cases h
      case isTrue hblank =>
        rw [if_pos hblank, Option.isSome_map]
        rw [Option.isSome_map] at h
        exact ih h

/-- A comment that ends in a text **ends in it whatever follows**. -/
theorem Comment.marker_eq_zero_of_append (h : Comment.marker name (t ++ u) = 0) :
    Comment.marker name t = 0 := by
  unfold Comment.marker at h ⊢
  cases hlength : (Text.dropPrefix? "<!--" t >>= Comment.bodyLength name) with
  | none => rfl
  | some n =>
    obtain ⟨rest, hrest, hbody⟩ := Option.bind_eq_some_iff.1 hlength
    have happend : Text.dropPrefix? "<!--" (t ++ u) = some (rest ++ u) :=
      Text.dropPrefix?_eq_some_iff.2
        (by rw [Text.dropPrefix?_eq_some_iff.1 hrest, List.append_assoc])
    obtain ⟨k, hk⟩ := Option.isSome_iff_exists.1
      (Comment.isSome_bodyLength_append (by rw [hbody]; rfl) u)
    rw [happend, Option.bind_eq_bind, Option.bind_some, hk] at h
    dsimp only at h
    omega

theorem Comment.find?_eq_none_of_append (h : Comment.find? name (u ++ t ++ v) = none) :
    Comment.find? name t = none := by
  rw [Comment.find?_eq_none_iff] at h ⊢
  rintro a b rfl
  refine Comment.marker_eq_zero_of_append (u := v) (h (u ++ a) _ ?_)
  simp

theorem Comment.erase_eq_self (h : Comment.find? name t = none) : Comment.erase name t = t :=
  rewriteMatches_of_not_hasMatch (by rw [hasMatch, show findMatch? _ _ t = none from h]; rfl)

/-! ### Markers -/

namespace MarkerNames.AbsentFrom

theorem findStart?_eq_none (h : names.AbsentFrom t) :
    Bookmark.findStart? names.start t = none ∧ Bookmark.findStart? names.stop t = none := by
  have hbookmark := h.1
  rw [Bookmark.isPresent, Bool.or_eq_false_iff, Option.isSome_eq_false_iff,
    Option.isSome_eq_false_iff, Option.isNone_iff_eq_none, Option.isNone_iff_eq_none] at hbookmark
  exact hbookmark

theorem find?_eq_none (h : names.AbsentFrom t) :
    Comment.find? names.start t = none ∧ Comment.find? names.stop t = none := by
  have hcomment := h.2
  rw [Comment.isPresent, Bool.or_eq_false_iff, Option.isSome_eq_false_iff,
    Option.isSome_eq_false_iff, Option.isNone_iff_eq_none, Option.isNone_iff_eq_none] at hcomment
  exact hcomment

/-- No markers are found in a **closed part** behind a closed text. -/
theorem of_append (hu : IsClosed u) (ht : IsClosed t) (h : names.AbsentFrom (u ++ t ++ v)) :
    names.AbsentFrom t := by
  obtain ⟨hstart, hstop⟩ := h.findStart?_eq_none
  obtain ⟨hstart', hstop'⟩ := h.find?_eq_none
  have hbookmark {name : Text} (hname : Bookmark.findStart? name (u ++ t ++ v) = none) :
      Bookmark.findStart? name t = none :=
    (Bookmark.startTag_takesTags.findMatch?_eq_none_of_append hu
      (Bookmark.startTag_takesTags.findMatch?_eq_none_of_append (hu.append ht) hname).1).2
  constructor
  · rw [Bookmark.isPresent, hbookmark hstart, hbookmark hstop]
    rfl
  · rw [Comment.isPresent, Comment.find?_eq_none_of_append hstart',
      Comment.find?_eq_none_of_append hstop']
    rfl

/-- Where no markers are found, **none are removed**. -/
theorem stripMarkers_eq (h : names.AbsentFrom t) : stripMarkers names t = t := by
  obtain ⟨hstart, hstop⟩ := h.findStart?_eq_none
  obtain ⟨hstart', hstop'⟩ := h.find?_eq_none
  rw [stripMarkers, Bookmark.strip_eq_self hstart hstop, Comment.strip,
    Comment.erase_eq_self hstart', Comment.erase_eq_self hstop']

/-- Without markers the region is **the whole body**. -/
theorem detect?_eq (h : names.AbsentFrom t) (hbody : Body.isPresent t = true) :
    MarkerStrategy.detect? names t = some .wholeBody := by
  have hused := h.isUsed
  rw [MarkerStrategy.detect?, MarkerStrategy.all, List.find?_cons, hused .bookmark (by decide),
    List.find?_cons, hused .comment (by decide), List.find?_cons,
    show MarkerStrategy.isUsed names t .wholeBody = true from hbody]

end MarkerNames.AbsentFrom

end MailMerge
