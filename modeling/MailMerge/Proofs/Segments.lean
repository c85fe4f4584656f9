import Mathlib.Data.List.Basic
import MailMerge.Markup.Tag

/-!
# Scanning piece by piece

A scan takes a match whole, and passes over characters at which no match begins. Where all matches
begin with one character, a scan passes over every piece without it, and the scan of a text is the
scan of its pieces one after the other.

* `Matcher.OpensWith` says that all matches begin with one character, `Matcher.StopsAt` that no match
  reaches over a character;
* `segments_append_of_match` and `segments_append_of_not_mem` scan the first piece of a text;
* `matchesIn_append_of_match` and `matchesIn_append_of_not_mem` list its matches;
* `rewriteMatches_append_of_match` and `rewriteMatches_append_of_not_mem` rewrite it;
* `IsTag` is a tag, and `IsTag.anyTag_append` and `isTag_of_anyTag` — the matcher of tags takes a
  text up to its first `>`.
-/

namespace MailMerge

/-- A property of all characters of a text is **decided on the text**, and not on all characters there are. -/
instance Text.decidableForallMem (p : Char → Prop) [DecidablePred p] (t : Text) : Decidable (∀ c ∈ t, p c) :=
  List.decidableBAll p t

/-- Whether all matches **begin with one character**. -/
def Matcher.OpensWith (m : Matcher) (opening : Char) : Prop :=
  ∀ c t, c ≠ opening → m (c :: t) = 0

/-- A matcher **stops at a character** if it matches the same with and without what begins there. -/
structure Matcher.StopsAt (m : Matcher) (c : Char) : Prop where
  append : ∀ u v, m (u ++ c :: v) = m u
  length_le : ∀ t, m t ≤ t.length

variable {m : Matcher} {t u : Text} {c opening : Char}

/-! ### Segments -/

theorem segments_cons_of_zero (h : m (c :: t) = 0) :
    segments m (c :: t) = .plain c :: segments m t := by
  rw [segments, h]

theorem segments_append_of_match (hne : u ≠ []) (h : m (u ++ t) = u.length) :
    segments m (u ++ t) = .hit u :: segments m t := by
  obtain ⟨c, u, rfl⟩ := List.exists_cons_of_ne_nil hne
  rw [List.cons_append] at h ⊢
  rw [segments, h, List.length_cons]
  dsimp only
  rw [List.take_left, List.drop_left]

/-- A piece in which **no match begins** is passed over character by character. -/
theorem segments_append_of_passed (h : ∀ v, v ≠ [] → v <:+ u → m (v ++ t) = 0) :
    segments m (u ++ t) = u.map .plain ++ segments m t := by
  induction u with
  | nil => rfl
  | cons c u ih =>
    have hhead : m (c :: (u ++ t)) = 0 := h (c :: u) (List.cons_ne_nil _ _) (List.suffix_refl _)
    rw [List.cons_append, segments_cons_of_zero hhead,
      ih fun v hne hv => h v hne (hv.trans (List.suffix_cons c u))]
    rfl

theorem segments_append_of_not_mem (hm : m.OpensWith opening) (h : opening ∉ u) (t : Text) :
    segments m (u ++ t) = u.map .plain ++ segments m t := by
  refine segments_append_of_passed fun v hne hv => ?_
  obtain ⟨c, v, rfl⟩ := List.exists_cons_of_ne_nil hne
  refine hm c (v ++ t) ?_
  rintro rfl
  exact h (hv.subset (List.mem_cons_self ..))

/-! ### Matches -/

@[simp] theorem matchesIn_nil (m : Matcher) : matchesIn m [] = [] := by
  simp [matchesIn]

theorem matchesIn_cons_of_zero (h : m (c :: t) = 0) : matchesIn m (c :: t) = matchesIn m t := by
  rw [matchesIn, segments_cons_of_zero h]
  rfl

theorem matchesIn_append_of_match (hne : u ≠ []) (h : m (u ++ t) = u.length) :
    matchesIn m (u ++ t) = u :: matchesIn m t := by
  rw [matchesIn, segments_append_of_match hne h]
  rfl

theorem matchesIn_append_of_not_mem (hm : m.OpensWith opening) (h : opening ∉ u) (t : Text) :
    matchesIn m (u ++ t) = matchesIn m t := by
  rw [matchesIn, segments_append_of_not_mem hm h, List.filterMap_append, List.filterMap_map]
  simp [matchesIn]

/-- A match **stands in the text** whole. -/
theorem infix_of_mem_matchesIn (h : u ∈ matchesIn m t) : u <:+: t := by
  rw [matchesIn, List.mem_filterMap] at h
  obtain ⟨segment, hsegment, hu⟩ := h
  rw [← flatMap_text_segments m t]
  cases segment with
  | plain c => cases hu
  | hit piece =>
    cases hu
    exact List.infix_of_mem_flatten (List.mem_map_of_mem hsegment)

/-! ### Rewriting -/

variable {f : Text → Text}

@[simp] theorem rewriteMatches_nil (m : Matcher) (f : Text → Text) : rewriteMatches m f [] = [] := by
  simp [rewriteMatches]

theorem rewriteMatches_cons_of_zero (h : m (c :: t) = 0) :
    rewriteMatches m f (c :: t) = c :: rewriteMatches m f t := by
  rw [rewriteMatches, segments_cons_of_zero h]
  rfl

theorem rewriteMatches_append_of_match (hne : u ≠ []) (h : m (u ++ t) = u.length) :
    rewriteMatches m f (u ++ t) = f u ++ rewriteMatches m f t := by
  rw [rewriteMatches, segments_append_of_match hne h]
  rfl

theorem rewriteMatches_append_of_passed (h : ∀ v, v ≠ [] → v <:+ u → m (v ++ t) = 0) :
    rewriteMatches m f (u ++ t) = u ++ rewriteMatches m f t := by
  rw [rewriteMatches, segments_append_of_passed h, List.flatMap_append, List.flatMap_map]
  simp [rewriteMatches]

theorem rewriteMatches_append_of_not_mem (hm : m.OpensWith opening) (h : opening ∉ u) (t : Text) :
    rewriteMatches m f (u ++ t) = u ++ rewriteMatches m f t := by
  rw [rewriteMatches, segments_append_of_not_mem hm h, List.flatMap_append, List.flatMap_map]
  simp [rewriteMatches]

/-- A text with a match at its head falls into **the match and what is behind it**. -/
theorem exists_append_of_match {k : Nat} (hk : m (c :: t) ≤ (c :: t).length) (h : m (c :: t) = k + 1) :
    ∃ u v, c :: t = u ++ v ∧ u ≠ [] ∧ m (u ++ v) = u.length ∧ v.length < (c :: t).length := by
  -- the match takes the head, so that less than the whole text is left
  rw [h, List.length_cons] at hk
  have htext : c :: t = (c :: t.take k) ++ t.drop k := by
    rw [List.cons_append, List.take_append_drop]
  refine ⟨c :: t.take k, t.drop k, htext, List.cons_ne_nil _ _, ?_, ?_⟩
  · rw [← htext, h, List.length_cons, List.length_take, Nat.min_eq_left (Nat.le_of_succ_le_succ hk)]
  · rw [List.length_cons, List.length_drop]
    omega

/-- A text is rewritten piece by piece where **no match reaches over** a character. -/
theorem rewriteMatches_append_of_stopsAt (hm : m.StopsAt c) (u v : Text) :
    rewriteMatches m f (u ++ c :: v) = rewriteMatches m f u ++ c :: rewriteMatches m f v := by
  -- a match may take several characters at once, hence the induction on the length
  induction hlen : u.length using Nat.strongRecOn generalizing u with
  | ind n ih =>
    cases u with
    | nil =>
      have hmatch : m (c :: v) = 0 := by
        -- a match at the character would be one of the empty text
        have hnil := hm.length_le []
        rw [← hm.append [] v, List.nil_append] at hnil
        exact Nat.eq_zero_of_le_zero hnil
      rw [List.nil_append, rewriteMatches_cons_of_zero hmatch, rewriteMatches_nil, List.nil_append]
    | cons a u =>
      cases hmatch : m (a :: u) with
      | zero =>
        have happend := hm.append (a :: u) v
        rw [hmatch, List.cons_append] at happend
        rw [List.cons_append, rewriteMatches_cons_of_zero happend, rewriteMatches_cons_of_zero hmatch,
          ih u.length (by rw [← hlen]; exact Nat.lt_succ_self _) u rfl]
        rfl
      | succ k =>
        obtain ⟨p, w, htext, hne, hp, hlt⟩ := exists_append_of_match (hm.length_le _) hmatch
        -- the match ends before the character, and is the same with it
        have hp' : m (p ++ (w ++ c :: v)) = p.length := by
          rw [← List.append_assoc, hm.append, hp]
        rw [htext, List.append_assoc, rewriteMatches_append_of_match hne hp',
          rewriteMatches_append_of_match hne hp, ih w.length (hlen ▸ hlt) w rfl, List.append_assoc]

theorem rewriteMatches_congr {m : Matcher} {f g : Text → Text} {t : Text}
    (h : ∀ piece ∈ matchesIn m t, f piece = g piece) :
    rewriteMatches m f t = rewriteMatches m g t := by
  rw [matchesIn] at h
  rw [rewriteMatches, rewriteMatches]
  refine List.flatMap_congr fun segment hsegment => ?_
  cases segment with
  | plain c => rfl
  | hit piece => exact h piece (List.mem_filterMap.2 ⟨_, hsegment, rfl⟩)

theorem mem_of_mem_rewriteMatches {m : Matcher} {a : Char} {t : Text}
    (h : a ∈ rewriteMatches m (fun _ => []) t) : a ∈ t := by
  rw [rewriteMatches, List.mem_flatMap] at h
  obtain ⟨segment, hsegment, ha⟩ := h
  rw [← flatMap_text_segments m t, List.mem_flatMap]
  refine ⟨segment, hsegment, ?_⟩
  cases segment with
  | plain c => exact ha
  | hit piece => cases ha

theorem count_rewriteMatches {m : Matcher} {a : Char} {t : Text}
    (h : ∀ piece ∈ matchesIn m t, a ∉ piece) :
    (rewriteMatches m (fun _ => []) t).count a = t.count a := by
  have htext := flatMap_text_segments m t
  rw [matchesIn] at h
  rw [rewriteMatches]
  -- what the pieces of the scan spell is the text itself
  generalize segments m t = parts at h htext
  subst htext
  induction parts with
  | nil => rfl
  | cons part parts ih =>
    rw [List.flatMap_cons, List.flatMap_cons, List.count_append, List.count_append]
    cases part with
    | plain c => rw [ih fun piece hpiece => h piece hpiece]; rfl
    | hit piece =>
      rw [ih fun piece hpiece => h piece (List.mem_cons_of_mem _ hpiece), Segment.text,
        List.count_eq_zero.2 (h piece (List.mem_cons_self ..))]
      rfl

/-! ### Prefixes -/

theorem Text.startsWith_iff {needle t : Text} :
    startsWith needle t = true ↔ ∃ rest, t = needle ++ rest := by
  rw [startsWith, Option.isSome_iff_exists]
  exact exists_congr fun rest => dropPrefix?_eq_some_iff

theorem Text.contains_cons (needle : Text) (c : Char) (t : Text) :
    contains needle (c :: t) = (startsWith needle (c :: t) || contains needle t) := by
  rw [contains, cut?, startsWith]
  cases dropPrefix? needle (c :: t) with
  | none => rw [Option.isSome_map, Option.isSome_none, Bool.false_or, contains]
  | some rest => rfl

theorem Text.contains_append_left {needle t : Text} (h : contains needle t = true) (u : Text) :
    contains needle (u ++ t) = true := by
  induction u with
  | nil => exact h
  | cons c u ih => rw [List.cons_append, contains_cons, ih, Bool.or_true]

theorem contains_append (needle u t : Text) : Text.contains needle (u ++ (needle ++ t)) = true := by
  have hhead : Text.contains needle (needle ++ t) = true := by
    cases needle with
    | nil => cases t <;> rfl
    | cons c needle =>
      rw [List.cons_append, Text.contains_cons, Text.startsWith_iff.2 ⟨t, List.cons_append.symm⟩,
        Bool.true_or]
  exact Text.contains_append_left hhead u

/-- A text without the first character of another one does not hold it. -/
theorem cut?_eq_none {c : Char} {needle t : Text} (h : c ∉ t) :
    Text.cut? (c :: needle) t = none := by
  induction t with
  | nil => rfl
  | cons a t ih =>
    have ha : Text.dropPrefix? (c :: needle) (a :: t) = none := by
      rw [Text.dropPrefix?, if_neg (List.ne_of_not_mem_cons h)]
    rw [Text.cut?, ha, ih (List.not_mem_of_not_mem_cons h)]
    rfl

/-- A text is cut around another one **where the first character of that** first occurs. -/
theorem cut?_append {c : Char} {needle t : Text} (h : c ∉ t) (rest : Text) :
    Text.cut? (c :: needle) (t ++ (c :: needle) ++ rest) = some (t, rest) := by
  induction t with
  | nil =>
    have hstarts : Text.dropPrefix? (c :: needle) (c :: needle ++ rest) = some rest :=
      Text.dropPrefix?_eq_some_iff.2 rfl
    rw [List.nil_append, List.cons_append, Text.cut?]
    rw [List.cons_append] at hstarts
    rw [hstarts]
  | cons a t ih =>
    rw [List.cons_append, List.cons_append, Text.cut?, Text.dropPrefix?,
      if_neg (List.ne_of_not_mem_cons h), ih (List.not_mem_of_not_mem_cons h)]
    rfl

/-- A text that is cut around another one **is what stands before and after it**, and that one between. -/
theorem Text.eq_of_cut? {needle t : Text} {p : Text × Text} (h : cut? needle t = some p) :
    t = p.1 ++ needle ++ p.2 := by
  induction t generalizing p with
  | nil =>
    rw [cut?] at h
    split at h
    case isTrue hempty =>
      rw [List.isEmpty_iff] at hempty
      cases h
      simp [hempty]
    case isFalse => cases h
  | cons c t ih =>
    rw [cut?] at h
    split at h
    case h_1 rest hrest =>
      cases h
      exact dropPrefix?_eq_some_iff.1 hrest
    case h_2 =>
      obtain ⟨q, hq, rfl⟩ := Option.map_eq_some_iff.1 h
      rw [List.cons_append, List.cons_append, ← ih hq]

theorem takeWhile_append_cons {p : Char → Bool} {u t : Text} {c : Char} (hu : ∀ a ∈ u, p a = true)
    (hc : p c = false) : (u ++ c :: t).takeWhile p = u := by
  rw [List.takeWhile_append_of_pos hu, List.takeWhile_cons_of_neg (by rw [hc]; simp),
    List.append_nil]

/-- What is read off a text **ends at a character** that is not of its kind. -/
theorem takeWhile_and_dropWhile_append_cons {p : Char → Bool} {c : Char} (hc : p c = false)
    (u t : Text) : (u ++ c :: t).takeWhile p = u.takeWhile p ∧
      (u ++ c :: t).dropWhile p = u.dropWhile p ++ c :: t := by
  induction u with
  | nil => simp [hc]
  | cons a u ih =>
    rw [List.cons_append, List.takeWhile_cons, List.takeWhile_cons, List.dropWhile_cons,
      List.dropWhile_cons]
    split
    case isTrue => exact ⟨congrArg (a :: ·) ih.1, ih.2⟩
    case isFalse => exact ⟨rfl, rfl⟩

theorem eq_takeWhile_append {p : Char → Bool} {t rest : Text}
    (h : t.drop (t.takeWhile p).length = rest) : t = t.takeWhile p ++ rest := by
  rw [← h]
  exact (List.prefix_iff_eq_append.1 (List.takeWhile_prefix p)).symm

/-! ### Tags -/

theorem lengthThroughClose_append (h : '>' ∉ u) (t : Text) :
    lengthThroughClose (u ++ '>' :: t) = some (u.length + 1) := by
  induction u with
  | nil => rfl
  | cons c u ih =>
    rw [List.cons_append, lengthThroughClose, if_neg (List.ne_of_not_mem_cons h).symm,
      ih (List.not_mem_of_not_mem_cons h)]
    rfl

theorem eq_append_of_lengthThroughClose {n : Nat} (h : lengthThroughClose t = some n) :
    ∃ u v, t = u ++ '>' :: v ∧ '>' ∉ u ∧ n = u.length + 1 := by
  induction t generalizing n with
  | nil => cases h
  | cons c t ih =>
    rw [lengthThroughClose] at h
    -- either the bracket is the head, or it is found in the tail
    split at h
    case isTrue hc =>
      cases h
      exact ⟨[], t, by rw [hc]; rfl, List.not_mem_nil, rfl⟩
    case isFalse hc =>
      obtain ⟨n, hn, rfl⟩ := Option.map_eq_some_iff.1 h
      obtain ⟨u, v, rfl, hu, rfl⟩ := ih hn
      exact ⟨c :: u, v, rfl, by simp [hu, Ne.symm hc], rfl⟩

theorem anyTag_opensWith : Matcher.OpensWith anyTag '<' := fun c t hc => by
  unfold anyTag
  split
  case h_1 heq => exact absurd (List.cons.inj heq).1 hc
  case h_2 => rfl

/-- The matcher of tags takes a text **up to its first** `>`. -/
theorem anyTag_append (h : '>' ∉ u) (t : Text) :
    anyTag ('<' :: u ++ '>' :: t) = u.length + 2 := by
  rw [List.cons_append, anyTag, lengthThroughClose_append h]

theorem eq_append_of_anyTag {n : Nat} (h : anyTag ('<' :: t) = n + 1) :
    ∃ u v, t = u ++ '>' :: v ∧ '>' ∉ u ∧ n = u.length + 1 := by
  rw [anyTag] at h
  split at h
  case h_1 k hk =>
    cases h
    exact eq_append_of_lengthThroughClose hk
  case h_2 => cases h

/-- Whether a text is a tag: it begins with `<` and ends at its first `>`. -/
def IsTag (tag : Text) : Prop := ∃ inner, tag = '<' :: inner ++ ['>'] ∧ '>' ∉ inner

namespace IsTag

variable {tag : Text}

theorem ne_nil (h : IsTag tag) : tag ≠ [] := by
  obtain ⟨inner, rfl, -⟩ := h
  exact List.cons_ne_nil _ _

/-- The matcher of tags takes a tag **whole**, whatever follows it. -/
theorem anyTag_append (h : IsTag tag) (t : Text) : anyTag (tag ++ t) = tag.length := by
  obtain ⟨inner, rfl, hclose⟩ := h
  rw [List.append_assoc, List.singleton_append, MailMerge.anyTag_append hclose]
  simp

end IsTag

/-- A match of the matcher of tags **is a tag**. -/
theorem isTag_of_anyTag {t : Text} {n : Nat} (h : anyTag ('<' :: t) = n + 1) :
    IsTag ('<' :: t.take n) := by
  obtain ⟨u, v, rfl, hu, rfl⟩ := eq_append_of_anyTag h
  have htext : u ++ '>' :: v = (u ++ ['>']) ++ v := by simp
  have hlength : u.length + 1 = (u ++ ['>']).length := by simp
  refine ⟨u, ?_, hu⟩
  rw [htext, hlength, List.take_left]
  rfl

end MailMerge
