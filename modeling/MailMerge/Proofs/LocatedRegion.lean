import MailMerge.Assembly

/-!
# The located region

Whatever way of marking is used, the located region is a piece of the main part: what stands before,
inside and after it is the main part again, and the offsets of its location are those of the two
cuts. Hence a located region can always be replaced.

* `Bookmark.region_eq_ok_iff`, `Comment.region_eq_ok_iff` and `Body.region_eq_ok_iff` — which regions there
  are;
* `Region.text_of_region` — the three texts of a region are the main part;
* `exists_region_of_locate` — a location is that of a region of the main part;
* `splice_region` — what stands in the place of a located region after splicing.
-/

namespace MailMerge

/-! ### Cuts -/

namespace Text

theorem eq_of_lastCut? {needle t : Text} {p : Text × Text} (h : lastCut? needle t = some p) :
    t = p.1 ++ needle ++ p.2 := by
  induction t generalizing p with
  | nil =>
    rw [lastCut?] at h
    -- a cut in the tail comes first, since the last occurrence is looked for
    split at h
    case isTrue hempty =>
      rw [List.isEmpty_iff] at hempty
      cases h
      simp [hempty]
    case isFalse => cases h
  | cons c t ih =>
    rw [lastCut?] at h
    split at h
    case h_1 q hq =>
      cases h
      rw [List.cons_append, List.cons_append, ← ih hq]
    case h_2 =>
      obtain ⟨rest, hrest, rfl⟩ := Option.map_eq_some_iff.1 h
      exact dropPrefix?_eq_some_iff.1 hrest

/-- A text is cut at the size of what stands before the cut. -/
theorem splitAtByte?_append (a b : Text) : splitAtByte? (utf8Size a) (a ++ b) = some (a, b) := by
  induction a with
  | nil => cases b <;> rfl
  | cons c a ih =>
    -- a character takes at least one byte, so that the offset is not used up before it
    have hpos := c.utf8Size_pos
    obtain ⟨n, hn⟩ : ∃ n, c.utf8Size + utf8Size a = n + 1 := ⟨c.utf8Size + utf8Size a - 1, by omega⟩
    rw [utf8Size_cons, hn, List.cons_append, splitAtByte?, if_pos (by omega),
      show n + 1 - c.utf8Size = utf8Size a by omega, ih]
    rfl

end Text

/-! ### Regions -/

/-- Bookmarks **delimit a region** if the start bookmark has an end tag behind it, and the end bookmark
stands behind that. -/
theorem Bookmark.region_eq_ok_iff {names : MarkerNames} {t : Text} {r : Region} :
    Bookmark.region names t = .ok r ↔ ∃ opening id paired closing,
      findStart? names.start t = some opening ∧ attribute? "w:id" opening.piece = some id ∧
      findEnd? id opening.after = some paired ∧ findStart? names.stop paired.after = some closing ∧
      r = ⟨opening.before ++ opening.piece ++ paired.before ++ paired.piece, closing.before,
        closing.piece ++ closing.after⟩ := by
  constructor
  · intro h
    unfold Bookmark.region at h
    split at h
    case h_1 => cases h
    case h_2 opening hopening =>
      split at h
      case h_1 => cases h
      case h_2 paired hpaired =>
        split at h
        case h_1 => cases h
        case h_2 closing hclosing =>
          obtain ⟨id, hid, hfind⟩ := Option.bind_eq_some_iff.1 hpaired
          exact ⟨opening, id, paired, closing, hopening, hid, hfind, hclosing, (Except.ok.inj h).symm⟩
  · rintro ⟨opening, id, paired, closing, hopening, hid, hfind, hclosing, rfl⟩
    have hpaired : (attribute? "w:id" opening.piece >>= fun id => findEnd? id opening.after) =
        some paired := Option.bind_eq_some_iff.2 ⟨id, hid, hfind⟩
    rw [Bookmark.region, hopening]
    dsimp only
    rw [hpaired]
    dsimp only
    rw [hclosing]

/-- Comments **delimit a region** if the end comment stands behind the start comment. -/
theorem Comment.region_eq_ok_iff {names : MarkerNames} {t : Text} {r : Region} :
    Comment.region names t = .ok r ↔ ∃ opening closing,
      find? names.start t = some opening ∧ find? names.stop opening.after = some closing ∧
      r = ⟨opening.before ++ opening.piece, closing.before, closing.piece ++ closing.after⟩ := by
  constructor
  · intro h
    unfold Comment.region at h
    split at h
    case h_1 => cases h
    case h_2 opening hopening =>
      split at h
      case h_1 => cases h
      case h_2 closing hclosing =>
        exact ⟨opening, closing, hopening, hclosing, (Except.ok.inj h).symm⟩
  · rintro ⟨opening, closing, hopening, hclosing, rfl⟩
    rw [Comment.region, hopening]
    dsimp only
    rw [hclosing]

/-- The body **is a region** if an end tag stands behind its start tag. -/
theorem Body.region_eq_ok_iff {t : Text} {r : Region} :
    Body.region t = .ok r ↔ ∃ opening inside after,
      findMatch? startTag (fun _ => true) t = some opening ∧
      Text.lastCut? endTag opening.after = some (inside, after) ∧
      r = ⟨opening.before ++ opening.piece, inside, endTag ++ after⟩ := by
  constructor
  · intro h
    unfold Body.region at h
    split at h
    case h_1 => cases h
    case h_2 opening hopening =>
      split at h
      case h_1 => cases h
      case h_2 inside after hcut =>
        exact ⟨opening, inside, after, hopening, hcut, (Except.ok.inj h).symm⟩
  · rintro ⟨opening, inside, after, hopening, hcut, rfl⟩
    rw [Body.region, hopening]
    dsimp only
    rw [hcut]

theorem Bookmark.text_of_region {names : MarkerNames} {t : Text} {r : Region}
    (h : Bookmark.region names t = .ok r) : r.text = t := by
  obtain ⟨opening, id, paired, closing, hopening, -, hfind, hclosing, rfl⟩ := region_eq_ok_iff.1 h
  -- three matches cut the text, each behind the one before
  have ho := text_of_findMatch? hopening
  have hp := text_of_findMatch? hfind
  have hc := text_of_findMatch? hclosing
  rw [← ho, Found.text, ← hp, Found.text, ← hc, Found.text]
  simp [Region.text]

theorem Comment.text_of_region {names : MarkerNames} {t : Text} {r : Region}
    (h : Comment.region names t = .ok r) : r.text = t := by
  obtain ⟨opening, closing, hopening, hclosing, rfl⟩ := region_eq_ok_iff.1 h
  have ho := text_of_findMatch? hopening
  have hc := text_of_findMatch? hclosing
  rw [← ho, Found.text, ← hc, Found.text]
  simp [Region.text]

theorem Body.text_of_region {t : Text} {r : Region} (h : Body.region t = .ok r) : r.text = t := by
  obtain ⟨opening, inside, after, hopening, hcut, rfl⟩ := region_eq_ok_iff.1 h
  -- the opening tag is the first, and the closing tag the last
  have ho := text_of_findMatch? hopening
  have hc := Text.eq_of_lastCut? hcut
  rw [← ho, Found.text, hc]
  simp [Region.text]

/-- A region and what stands around it **are the main part**. -/
theorem Region.text_of_region {names : MarkerNames} {t : Text} {strategy : MarkerStrategy}
    {r : Region} (h : strategy.region names t = .ok r) : r.text = t := by
  cases strategy with
  | bookmark => exact Bookmark.text_of_region h
  | comment => exact Comment.text_of_region h
  | wholeBody => exact Body.text_of_region h

/-- A location is **that of a region** which the first way of marking in use delimits. -/
theorem exists_region_of_locate {names : MarkerNames} {t : Text} {location : Location}
    (h : locate names t = .ok location) :
    ∃ strategy r, MarkerStrategy.detect? names t = some strategy ∧
      strategy.region names t = .ok r ∧ location = Location.ofRegion names strategy r := by
  unfold locate at h
  split at h
  case h_1 => cases h
  case h_2 strategy hdetect =>
    cases hregion : strategy.region names t with
    | error => rw [hregion] at h; cases h
    | ok r =>
      rw [hregion] at h
      cases h
      exact ⟨strategy, r, hdetect, hregion, rfl⟩

@[simp] theorem regionStart_ofRegion (names : MarkerNames) (strategy : MarkerStrategy)
    (r : Region) : (Location.ofRegion names strategy r).regionStart = r.start := rfl

@[simp] theorem regionStop_ofRegion (names : MarkerNames) (strategy : MarkerStrategy)
    (r : Region) : (Location.ofRegion names strategy r).regionStop = r.stop := rfl

@[simp] theorem trailing_ofRegion (names : MarkerNames) (strategy : MarkerStrategy) (r : Region) :
    (Location.ofRegion names strategy r).trailing = (splitTrailingSection r.inside).2 := rfl

/-! ### Splicing -/

theorem outside?_region (r : Region) :
    outside? r.start r.stop r.text = some (r.before, r.after) := by
  -- both offsets are sizes of texts at the head of the main part
  have hstart : Text.splitAtByte? r.start r.text = some (r.before, r.inside ++ r.after) := by
    rw [Region.text, List.append_assoc]
    exact Text.splitAtByte?_append _ _
  have hstop : Text.splitAtByte? r.stop r.text = some (r.before ++ r.inside, r.after) := by
    rw [Region.stop, Region.start, ← Text.utf8Size_append]
    exact Text.splitAtByte?_append _ _
  have hle : ¬ r.stop < r.start := Nat.not_lt.2 (Nat.le_add_right _ _)
  rw [outside?, if_neg hle, hstart, hstop]
  rfl

/-- **Splicing never fails** on the region of a main part, and leaves everything outside the region
as it is. -/
theorem splice_region (r : Region) (trailing copies : Text) :
    splice r.text r.start r.stop trailing copies =
      .ok (r.before ++ copies ++ trailing ++ r.after) := by
  rw [splice, outside?_region]

end MailMerge
