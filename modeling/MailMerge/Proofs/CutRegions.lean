import MailMerge.Proofs.BracketedText
import MailMerge.Proofs.LocatedRegion

/-!
# Cutting out the region

Markers are tags, so a region begins and ends at a tag, and so do the section properties at its end. All
that is cut out of a main part is therefore of the kind of the main part, if that kind of text can be cut
at the brackets; and a marker is found where it stands whatever stands around it.

* `tagLength_takesBrackets` and `Comment.marker_takesBrackets` — markers are taken from bracket to bracket,
  `tagLength_takesTags` and `Comment.marker_takesTags` — they are single tags;
* `CutsAtBrackets.of_region` — the three texts of a region;
* `CutsAtBrackets.splitTrailingSection` — its content and the section properties at its end;
* `CutsOut.of_locate` — all that a location holds.
-/

namespace MailMerge

variable {t u : Text}

/-! ### Tags as markers -/

theorem Text.dropPrefix?_append_cons {needle : Text} {c : Char} (h : c ∉ needle) (u t : Text) :
    dropPrefix? needle (u ++ c :: t) = (dropPrefix? needle u).map (· ++ c :: t) := by
  induction needle generalizing u with
  | nil => rfl
  | cons n needle ih =>
    have hne : n ≠ c := (List.ne_of_not_mem_cons h).symm
    cases u with
    | nil => exact if_neg hne
    | cons a u =>
      rw [List.cons_append, dropPrefix?, dropPrefix?]
      split
      case isTrue => exact ih (List.not_mem_of_not_mem_cons h) u
      case isFalse => rfl

/-- Tags that open in a given way are **taken whole**. -/
theorem tagLength_takesBrackets (name : Text) (endsName : Char → Bool) :
    (tagLength ('<' :: name) endsName).TakesBrackets where
  opens := fun c t hc => by
    rw [tagLength, Text.dropPrefix?, if_neg (Ne.symm hc)]
  closes := fun t n h => by
    unfold tagLength at h
    split at h
    case h_2 => cases h
    case h_1 c r hbegins =>
      split at h
      case isFalse => cases h
      case isTrue =>
        split at h
        case h_2 => cases h
        case h_1 k hk =>
          obtain ⟨u, v, hr, -, rfl⟩ := eq_append_of_lengthThroughClose hk
          have ht := Text.dropPrefix?_eq_some_iff.1 hbegins
          rw [hr] at ht
          refine ⟨name ++ u, v, by simpa using ht, ?_⟩
          simp at h ⊢
          omega

/-- Tags that open in a given way are **single tags**. -/
theorem tagLength_takesTags {name : Text} (h : '>' ∉ name) (endsName : Char → Bool) :
    (tagLength ('<' :: name) endsName).TakesTags where
  toTakesBrackets := tagLength_takesBrackets name endsName
  whole := fun inner hinner => by
    have hbegins (t : Text) : Text.dropPrefix? ('<' :: name) ('<' :: inner ++ '>' :: t) =
        (Text.dropPrefix? name inner).map (· ++ '>' :: t) := by
      rw [List.cons_append, Text.dropPrefix?, if_pos rfl, Text.dropPrefix?_append_cons h]
    cases hname : Text.dropPrefix? name inner with
    | none =>
      refine .inr fun t => ?_
      rw [tagLength, hbegins, hname]
      rfl
    | some w =>
      obtain rfl := Text.dropPrefix?_eq_some_iff.1 hname
      have hw : '>' ∉ w := fun hmem => hinner (List.mem_append_right _ hmem)
      -- the character behind the name is one of the tag, its last one if there are no others
      have htag (t : Text) : tagLength ('<' :: name) endsName ('<' :: (name ++ w) ++ '>' :: t) =
          if endsName ((w ++ ['>']).head (by simp)) then (name ++ w).length + 2 else 0 := by
        have hclose := lengthThroughClose_append hw t
        rw [tagLength, hbegins, hname, Option.map_some]
        cases w with
        | nil =>
          rw [List.nil_append] at hclose ⊢
          dsimp only
          rw [hclose]
          simp
        | cons c w =>
          rw [List.cons_append] at hclose ⊢
          dsimp only
          rw [hclose]
          simp only [List.length_cons, List.length_append, List.head_cons, List.cons_append]
          split
          · omega
          · rfl
      cases hends : endsName ((w ++ ['>']).head (by simp)) with
      | true => exact .inl fun t => by rw [htag, hends, if_pos rfl]
      | false => exact .inr fun t => by rw [htag, hends, if_neg (by simp)]

/-! ### Comments as markers -/

theorem Comment.eq_append_of_bodyLength {name t : Text} {n : Nat}
    (h : Comment.bodyLength name t = some n) : ∃ u v, t = u ++ '>' :: v ∧ n = u.length + 1 := by
  induction t generalizing n with
  | nil => cases h
  | cons c t ih =>
    rw [Comment.bodyLength] at h
    dsimp only at h
    -- the name stands here, or blanks are passed over before it
    split at h
    case h_1 k hk =>
      cases h
      obtain ⟨rest, hrest, hk⟩ := Option.bind_eq_some_iff.1 hk
      obtain ⟨v, hv, hk⟩ := Option.bind_eq_some_iff.1 hk
      have ht := Text.dropPrefix?_eq_some_iff.1 hrest
      have hclose := eq_takeWhile_append (Text.dropPrefix?_eq_some_iff.1 hv)
      refine ⟨name ++ rest.takeWhile isBlank ++ ['-', '-'], v, ?_, ?_⟩
      · rw [ht]
        nth_rewrite 1 [hclose]
        simp
      · cases hk
        simp
        omega
    case h_2 =>
      split at h
      case isFalse => cases h
      case isTrue =>
        obtain ⟨k, hk, rfl⟩ := Option.map_eq_some_iff.1 h
        obtain ⟨u, v, rfl, rfl⟩ := ih hk
        exact ⟨c :: u, v, rfl, by simp⟩

/-- Comments that are markers are taken from bracket to bracket. -/
theorem Comment.marker_takesBrackets (name : Text) : (Comment.marker name).TakesBrackets where
  opens := fun c t hc => by
    have hbegins : Text.dropPrefix? "<!--" (c :: t) = none := by
      change Text.dropPrefix? ('<' :: _) (c :: t) = none
      rw [Text.dropPrefix?, if_neg (Ne.symm hc)]
    rw [Comment.marker, hbegins]
    rfl
  closes := fun t n h => by
    unfold Comment.marker at h
    split at h
    case h_2 => cases h
    case h_1 k hk =>
      obtain ⟨rest, hbegins, hk⟩ := Option.bind_eq_some_iff.1 hk
      obtain ⟨u, v, rfl, rfl⟩ := Comment.eq_append_of_bodyLength hk
      have ht := Text.dropPrefix?_eq_some_iff.1 hbegins
      refine ⟨['!', '-', '-'] ++ u, v, by simpa using ht, ?_⟩
      simp
      omega

/-- The number of characters of blanks and `-->` at the head of a text. -/
def Comment.endLength (t : Text) : Option Nat :=
  (Text.dropPrefix? "-->" (t.dropWhile isBlank)).map fun _ => (t.takeWhile isBlank).length + 3

/-- The number of characters of a name, blanks and `-->` at the head of a text. -/
def Comment.nameLength (name t : Text) : Option Nat :=
  (Text.dropPrefix? name t).bind fun rest => (Comment.endLength rest).map (name.length + ·)

/-- The name is looked for at the head of a text, and **behind a blank** if it is not there. -/
theorem Comment.bodyLength_cons (name : Text) (c : Char) (t : Text) :
    Comment.bodyLength name (c :: t) = (Comment.nameLength name (c :: t)).or
      (if isBlank c then (Comment.bodyLength name t).map (· + 1) else none) := by
  have hdrop (rest : Text) : rest.drop (rest.takeWhile isBlank).length = rest.dropWhile isBlank :=
    List.append_cancel_left ((List.prefix_iff_eq_append.1 (List.takeWhile_prefix _)).trans
      List.takeWhile_append_dropWhile.symm)
  rw [Comment.bodyLength, Comment.nameLength]
  dsimp only
  cases Text.dropPrefix? name (c :: t) with
  | none => rfl
  | some rest =>
    simp only [Option.bind_eq_bind, Option.bind_some, hdrop, Comment.endLength]
    cases Text.dropPrefix? "-->" (rest.dropWhile isBlank) with
    | none => rfl
    | some rest' => simp [Nat.add_assoc]

/-- At the end of a tag there are blanks and `-->`, **whatever follows the tag**, or there are not. -/
theorem Comment.endLength_append (hu : '>' ∉ u) :
    (∀ t, Comment.endLength (u ++ '>' :: t) = some (u.length + 1)) ∨
      ∀ t, Comment.endLength (u ++ '>' :: t) = none := by
  have hblanks := takeWhile_and_dropWhile_append_cons (show isBlank '>' = false by decide) u
  have hclose : '>' ∉ u.dropWhile isBlank := fun hmem => hu ((List.dropWhile_suffix _).mem hmem)
  by_cases hdashes : u.dropWhile isBlank = "--".toList
  · left
    intro t
    have hlength : (u.takeWhile isBlank).length + 2 = u.length := by
      have h := congrArg List.length (List.takeWhile_append_dropWhile (p := isBlank) (l := u))
      rwa [hdashes, List.length_append] at h
    rw [Comment.endLength, (hblanks t).1, (hblanks t).2, hdashes, ← hlength]
    rfl
  · right
    intro t
    rw [Comment.endLength, (hblanks t).2, Option.map_eq_none_iff, Option.eq_none_iff_forall_ne_some]
    intro rest hrest
    have htext : u.dropWhile isBlank ++ '>' :: t = "-->".toList ++ rest :=
      Text.dropPrefix?_eq_some_iff.1 hrest
    change _ = "--".toList ++ '>' :: rest at htext
    -- the first `>` stands behind the dashes
    have hlength := lengthThroughClose_append hclose t
    rw [htext, lengthThroughClose_append (by decide), Option.some.injEq, Nat.add_right_cancel_iff]
      at hlength
    exact hdashes (List.append_inj htext hlength.symm).1

/-- In a tag there is a name with the end of the comment behind it, **whatever follows the tag**, or there
is not. -/
theorem Comment.nameLength_append {name : Text} (hname : '>' ∉ name) (hu : '>' ∉ u) :
    (∀ t, Comment.nameLength name (u ++ '>' :: t) = some (u.length + 1)) ∨
      ∀ t, Comment.nameLength name (u ++ '>' :: t) = none := by
  cases hdrop : Text.dropPrefix? name u with
  | none =>
    right
    intro t
    rw [Comment.nameLength, Text.dropPrefix?_append_cons hname, hdrop]
    rfl
  | some w =>
    obtain rfl := Text.dropPrefix?_eq_some_iff.1 hdrop
    have hw : '>' ∉ w := fun hmem => hu (List.mem_append_right _ hmem)
    have hlength (t : Text) : Comment.nameLength name (name ++ w ++ '>' :: t) =
        (Comment.endLength (w ++ '>' :: t)).map (name.length + ·) := by
      rw [Comment.nameLength, Text.dropPrefix?_append_cons hname, hdrop]
      rfl
    rcases Comment.endLength_append hw with hends | hnone
    · left
      intro t
      rw [hlength, hends, List.length_append]
      rfl
    · right
      intro t
      rw [hlength, hnone]
      rfl

/-- In a tag, what follows `<!--` **holds the name or does not**, whatever follows the tag. -/
theorem Comment.bodyLength_append {name : Text} (hname : '>' ∉ name) (hu : '>' ∉ u) :
    (∀ t, Comment.bodyLength name (u ++ '>' :: t) = some (u.length + 1)) ∨
      ∀ t, Comment.bodyLength name (u ++ '>' :: t) = none := by
  -- by induction on the tag, since there may be any number of blanks before the name
  induction u with
  | nil =>
    have hclose (t : Text) : Comment.bodyLength name ([] ++ '>' :: t) =
        Comment.nameLength name ([] ++ '>' :: t) := by
      rw [List.nil_append, Comment.bodyLength_cons, if_neg (by decide), Option.or_none]
    simp only [hclose]
    exact Comment.nameLength_append hname hu
  | cons c u ih =>
    have hcons (t : Text) : Comment.bodyLength name (c :: u ++ '>' :: t) =
        (Comment.nameLength name (c :: u ++ '>' :: t)).or
          (if isBlank c then (Comment.bodyLength name (u ++ '>' :: t)).map (· + 1) else none) :=
      Comment.bodyLength_cons name c (u ++ '>' :: t)
    rcases Comment.nameLength_append hname hu with hfound | hpassed
    · left
      intro t
      rw [hcons, hfound]
      rfl
    · simp only [hcons, hpassed, Option.none_or]
      by_cases hblank : isBlank c = true
      · -- behind a blank the rest of the tag decides
        rcases ih (List.not_mem_of_not_mem_cons hu) with hholds | hnone
        · left
          intro t
          rw [if_pos hblank, hholds]
          rfl
        · right
          intro t
          rw [if_pos hblank, hnone]
          rfl
      · right
        intro t
        rw [if_neg hblank]

/-- Comments that are markers are **single tags**. -/
theorem Comment.marker_takesTags {name : Text} (h : '>' ∉ name) : (Comment.marker name).TakesTags where
  toTakesBrackets := Comment.marker_takesBrackets name
  whole := fun inner hinner => by
    have hbegins (t : Text) : Text.dropPrefix? "<!--" ('<' :: inner ++ '>' :: t) =
        (Text.dropPrefix? "!--" inner).map (· ++ '>' :: t) :=
      Text.dropPrefix?_append_cons (show '>' ∉ "!--".toList by decide) inner t
    -- a tag that is no comment is no marker, and the end of a comment is that of the tag
    cases hopen : Text.dropPrefix? "!--" inner with
    | none =>
      refine .inr fun t => ?_
      rw [Comment.marker, hbegins, hopen]
      rfl
    | some w =>
      obtain rfl := Text.dropPrefix?_eq_some_iff.1 hopen
      have hw : '>' ∉ w := fun hmem => hinner (List.mem_append_right _ hmem)
      have hbody (t : Text) : Comment.marker name ('<' :: ("!--" ++ w) ++ '>' :: t) =
          ((Comment.bodyLength name (w ++ '>' :: t)).map (4 + ·)).getD 0 := by
        have hread : (Text.dropPrefix? "<!--" ('<' :: ("!--" ++ w) ++ '>' :: t) >>= Comment.bodyLength name) =
            Comment.bodyLength name (w ++ '>' :: t) := by
          rw [hbegins, hopen]
          rfl
        rw [Comment.marker, hread]
        cases Comment.bodyLength name (w ++ '>' :: t) <;> rfl
      rcases Comment.bodyLength_append h hw with hholds | hnone
      · refine .inl fun t => ?_
        rw [hbody, hholds]
        simp
        omega
      · refine .inr fun t => ?_
        rw [hbody, hnone]
        rfl

/-! ### Regions -/

theorem Bookmark.startTag_takesTags : Bookmark.startTag.TakesTags := tagLength_takesTags (by decide) _

theorem Bookmark.endTag_takesTags : Bookmark.endTag.TakesTags := tagLength_takesTags (by decide) _

theorem Body.startTag_takesTags : Body.startTag.TakesTags := tagLength_takesTags (by decide) _

namespace CutsAtBrackets

variable {P : Text → Prop} (hP : CutsAtBrackets P) {names : MarkerNames} {r : Region}
include hP

theorem of_bookmarks (h : Bookmark.region names t = .ok r) (ht : P t) :
    P r.before ∧ P r.inside ∧ P r.after := by
  have hstart := Bookmark.startTag_takesTags.toTakesBrackets
  have hend := Bookmark.endTag_takesTags.toTakesBrackets
  obtain ⟨opening, id, paired, closing, hopening, -, hfind, hclosing, rfl⟩ :=
    Bookmark.region_eq_ok_iff.1 h
  obtain ⟨hbefore, hpiece, hafter⟩ := hstart.cut_findMatch? hP hopening ht
  obtain ⟨hbefore', hpiece', hafter'⟩ := hend.cut_findMatch? hP hfind hafter
  obtain ⟨hinside, hpiece'', hrest⟩ := hstart.cut_findMatch? hP hclosing hafter'
  exact ⟨hP.append (hP.append (hP.append hbefore hpiece) hbefore') hpiece', hinside,
    hP.append hpiece'' hrest⟩

theorem of_comments (h : Comment.region names t = .ok r) (ht : P t) :
    P r.before ∧ P r.inside ∧ P r.after := by
  obtain ⟨opening, closing, hopening, hclosing, rfl⟩ := Comment.region_eq_ok_iff.1 h
  obtain ⟨hbefore, hpiece, hafter⟩ :=
    (Comment.marker_takesBrackets _).cut_findMatch? hP hopening ht
  obtain ⟨hinside, hpiece', hrest⟩ :=
    (Comment.marker_takesBrackets _).cut_findMatch? hP hclosing hafter
  exact ⟨hP.append hbefore hpiece, hinside, hP.append hpiece' hrest⟩

theorem of_body (h : Body.region t = .ok r) (ht : P t) : P r.before ∧ P r.inside ∧ P r.after := by
  obtain ⟨opening, inside, after, hopening, hcut, rfl⟩ := Body.region_eq_ok_iff.1 h
  obtain ⟨hbefore, hpiece, hafter⟩ :=
    Body.startTag_takesTags.toTakesBrackets.cut_findMatch? hP hopening ht
  rw [Text.eq_of_lastCut? hcut, List.append_assoc] at hafter
  obtain ⟨hinside, hrest⟩ := hP.split_open hafter
  exact ⟨hP.append hbefore hpiece, hinside, hrest⟩

/-- The three texts of a **region** are of the kind of the main part. -/
theorem of_region {strategy : MarkerStrategy} (h : strategy.region names t = .ok r) (ht : P t) :
    P r.before ∧ P r.inside ∧ P r.after := by
  cases strategy with
  | bookmark => exact hP.of_bookmarks h ht
  | comment => exact hP.of_comments h ht
  | wholeBody => exact hP.of_body h ht

end CutsAtBrackets

/-! ### Section properties -/

theorem eq_append_of_cutBeforeSection? {t : Text} {p : Text × Text}
    (h : cutBeforeSection? t = some p) : t = p.1 ++ p.2 ∧ ∃ u, p.2 = '<' :: u := by
  induction t generalizing p with
  | nil => cases h
  | cons c t ih =>
    rw [cutBeforeSection?] at h
    split at h
    case isTrue hstart =>
      -- section properties begin with a bracket
      cases h
      refine ⟨rfl, t, ?_⟩
      rw [Bool.and_eq_true] at hstart
      have hbegins := hstart.1
      unfold startsSection at hbegins
      split at hbegins
      case h_1 d r hdrop =>
        have hc : c = '<' := (List.cons.inj (Text.dropPrefix?_eq_some_iff.1 hdrop)).1
        rw [hc]
      case h_2 => cases hbegins
    case isFalse =>
      obtain ⟨q, hq, rfl⟩ := Option.map_eq_some_iff.1 h
      obtain ⟨ht, u, hu⟩ := ih hq
      exact ⟨congrArg (c :: ·) ht, u, hu⟩

/-- Section properties are **split off** where they are cut, if the region ends in such at all. -/
theorem splitTrailingSection_cases (t : Text) : splitTrailingSection t = (t, []) ∨
    Text.endsWith "</w:sectPr>" (Text.trimEnd t) = true ∧
      cutBeforeSection? t = some (splitTrailingSection t) := by
  unfold splitTrailingSection
  split
  case isFalse => exact .inl rfl
  case isTrue hends =>
    cases hcut : cutBeforeSection? t with
    | none => exact .inl rfl
    | some p => exact .inr ⟨hends, rfl⟩

/-- A region falls into **content and section properties** of its kind. -/
theorem CutsAtBrackets.splitTrailingSection {P : Text → Prop} (hP : CutsAtBrackets P) (h : P t) :
    P (splitTrailingSection t).1 ∧ P (splitTrailingSection t).2 := by
  rcases splitTrailingSection_cases t with hwhole | ⟨-, hcut⟩
  · rw [hwhole]
    exact ⟨h, hP.nil⟩
  · obtain ⟨ht, u, hu⟩ := eq_append_of_cutBeforeSection? hcut
    rw [ht, hu] at h
    rw [hu]
    exact hP.split_open h

theorem CutsAtBrackets.bodySection {P : Text → Prop} (hP : CutsAtBrackets P) (h : P t) : P (bodySection t) := by
  unfold MailMerge.bodySection
  cases hcut : Text.lastCut? "</w:body>" t with
  | none => exact (hP.splitTrailingSection h).2
  | some p =>
    rw [Text.eq_of_lastCut? hcut, List.append_assoc] at h
    exact (hP.splitTrailingSection (hP.split_open h).1).2

/-! ### Locations -/

namespace CutsOut

variable {P : Text → Prop} (hP : CutsOut P)
include hP

/-- A fragment **without its markers**. -/
theorem stripMarkers (h : P t) (names : MarkerNames) : P (stripMarkers names t) := by
  have keep (p : Text → Bool) (piece : Text) :
      (if p piece then [] else piece) = [] ∨ (if p piece then [] else piece) = piece := by
    cases p piece with
    | true => exact .inl rfl
    | false => exact .inr rfl
  have hstart : Bookmark.startTag.TakesBrackets := tagLength_takesBrackets _ _
  have hend : Bookmark.endTag.TakesBrackets := tagLength_takesBrackets _ _
  have hbookmarks : P (Bookmark.strip names t) :=
    hP.rewriteMatches hend (keep _) (hP.rewriteMatches hstart (keep _) h)
  have hcomment (name : Text) {u : Text} (hu : P u) :
      P (MailMerge.rewriteMatches (Comment.marker name) (fun _ => []) u) :=
    hP.rewriteMatches (Comment.marker_takesBrackets name) (fun _ => .inl rfl) hu
  exact hcomment _ (hcomment _ hbookmarks)

/-- All that a **location** holds is of the kind of the main part. -/
theorem of_locate {names : MarkerNames} {location : Location} (h : locate names t = .ok location) (ht : P t) :
    P location.template ∧ P location.trailing ∧ P location.sectionProperties := by
  obtain ⟨strategy, r, -, hregion, rfl⟩ := exists_region_of_locate h
  obtain ⟨-, hinside, -⟩ := hP.of_region hregion ht
  obtain ⟨hcontent, htrailing⟩ := hP.splitTrailingSection hinside
  have hsection : P (bodySection r.text) := by
    rw [Region.text_of_region hregion]
    exact hP.bodySection ht
  exact ⟨hP.stripMarkers hcontent names, htrailing, hP.trim hsection⟩

end CutsOut

end MailMerge
