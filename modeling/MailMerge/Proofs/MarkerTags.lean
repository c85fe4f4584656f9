import MailMerge.Proofs.Attributes
import MailMerge.Proofs.CutRegions

/-!
# What markers are

A marker is a tag of a bookmark or a comment. Both are recognised at the place where they begin, and
what is recognised there does not depend on what follows: a tag ends at its first `>`, and a comment
holds nothing but the name of the marker and blanks around it.

* `IsTagOf` is a tag by its name, and `IsCommentOf` a comment by what it holds;
* `Matcher.Takes` says that a matcher takes the texts of a kind and no others;
* `tagLength_takes` and `Comment.marker_takes` — the matchers of markers take tags and comments.
-/

namespace MailMerge

/-! ### The specification -/

/-- A **tag of a name**: the name stands behind `<`, no letter or digit goes on with it, and the tag
ends at its first `>`. -/
def IsTagOf (name tag : Text) : Prop :=
  ∃ rest, tag = '<' :: (name ++ rest) ++ ['>'] ∧ '>' ∉ rest ∧ ∀ c ∈ rest.head?, isWordChar c = false

/-- A **comment of a name**: it holds the name and blanks around it. -/
def IsCommentOf (name comment : Text) : Prop :=
  ∃ before after, comment = "<!--" ++ before ++ name ++ after ++ "-->" ∧
    (∀ c ∈ before, isBlank c = true) ∧ ∀ c ∈ after, isBlank c = true

/-- A matcher **takes the texts of a kind**: it takes each of them whole, whatever follows, and takes
nothing else. -/
structure Matcher.Takes (m : Matcher) (IsPiece : Text → Prop) : Prop where
  ne_nil : ∀ {u}, IsPiece u → u ≠ []
  append : ∀ {u}, IsPiece u → ∀ t, m (u ++ t) = u.length
  exists_piece : ∀ {t n}, m t = n + 1 → ∃ u v, t = u ++ v ∧ IsPiece u ∧ u.length = n + 1

variable {m : Matcher} {IsPiece : Text → Prop} {name t u v : Text}

namespace Matcher.Takes

variable (hm : m.Takes IsPiece)
include hm

/-- At the head of a text there is **one piece** at most. -/
theorem eq_of_append_eq {s : Text} (hu : IsPiece u) (hv : IsPiece v) (h : u ++ s = v ++ t) : u = v := by
  have hlength := hm.append hu s
  rw [h, hm.append hv t] at hlength
  exact (List.append_inj h hlength.symm).1

theorem eq_zero (h : ∀ u v, t = u ++ v → ¬ IsPiece u) : m t = 0 := by
  cases hmatch : m t with
  | zero => rfl
  | succ n =>
    obtain ⟨u, v, htext, hu, -⟩ := hm.exists_piece hmatch
    exact absurd hu (h u v htext)

end Matcher.Takes

/-! ### Tags -/

namespace IsTagOf

/-- A tag **ends at its first** `>`. -/
theorem exists_inner (h : IsTagOf name u) (hname : '>' ∉ name) :
    ∃ inner, u = inner ++ ['>'] ∧ inner ≠ [] ∧ '>' ∉ inner := by
  obtain ⟨rest, rfl, hrest, -⟩ := h
  exact ⟨'<' :: (name ++ rest), rfl, List.cons_ne_nil _ _, by simp [hname, hrest]⟩

/-- A tag that begins in another one is **the end of it**, since both end at the same `>`. -/
theorem eq_of_append_eq {a b s : Text} (h : IsTagOf name (a ++ b)) (hb : b ≠ []) (hv : IsTagOf name v)
    (hname : '>' ∉ name) (heq : v ++ t = b ++ s) : v = b := by
  obtain ⟨inner, hinner, -, hclose⟩ := h.exists_inner hname
  obtain ⟨inner', rfl, -, hclose'⟩ := hv.exists_inner hname
  obtain ⟨b, c, rfl⟩ := List.eq_nil_or_concat' b |>.resolve_left hb
  rw [← List.append_assoc] at hinner
  obtain ⟨rfl, hc⟩ := List.append_inj' hinner rfl
  obtain rfl := List.singleton_inj.1 hc
  have htext : inner' ++ '>' :: t = b ++ '>' :: s := by simpa using heq
  rw [(Markup.eq_of_append_cons_eq htext hclose' fun hmem =>
    hclose (List.mem_append_right a hmem)).1]

end IsTagOf

theorem endsWord_close : endsWord '>' = true := by decide +kernel

/-- The matcher of tags that open with a name **takes the tags of the name**. -/
theorem tagLength_takes (name : Text) :
    (tagLength ('<' :: name) endsWord).Takes (IsTagOf name) where
  ne_nil := by
    rintro u ⟨rest, rfl, -⟩
    exact List.cons_ne_nil _ _
  append := by
    rintro u ⟨rest, rfl, hclose, hhead⟩ t
    cases rest with
    | nil =>
      -- the bracket itself ends the name
      have hbegins : Text.dropPrefix? ('<' :: name) ('<' :: (name ++ []) ++ ['>'] ++ t) =
          some ('>' :: t) := Text.dropPrefix?_eq_some_iff.2 (by simp)
      rw [tagLength, hbegins]
      dsimp only
      rw [if_pos endsWord_close, lengthThroughClose, if_pos rfl]
      simp
    | cons c rest =>
      have hc : endsWord c = true := by rw [endsWord, hhead c rfl]; rfl
      have htext : '<' :: (name ++ c :: rest) ++ ['>'] ++ t =
          ('<' :: name) ++ c :: rest ++ '>' :: t := by simp
      rw [htext, tagLength_tag hc hclose]
      simp [Nat.add_assoc]
  exists_piece := by
    intro t n h
    unfold tagLength at h
    split at h
    case h_2 => cases h
    case h_1 c r hbegins =>
      split at h
      case isFalse => cases h
      case isTrue hc =>
        split at h
        case h_2 => cases h
        case h_1 k hk =>
          obtain ⟨rest, v, hr, hclose, rfl⟩ := eq_append_of_lengthThroughClose hk
          have ht := Text.dropPrefix?_eq_some_iff.1 hbegins
          rw [hr] at ht
          refine ⟨'<' :: (name ++ rest) ++ ['>'], v, by simpa using ht, ⟨rest, rfl, hclose, ?_⟩, ?_⟩
          · intro d hd
            cases rest with
            | nil => cases hd
            | cons a rest =>
              obtain rfl := Option.some.inj hd
              rw [(List.cons.inj hr).1, endsWord, Bool.not_eq_true'] at hc
              exact hc
          · rw [← h]
            simp only [List.length_append, List.length_cons, List.length_nil]
            omega

theorem Bookmark.startTag_takes : Bookmark.startTag.Takes (IsTagOf "w:bookmarkStart") :=
  tagLength_takes _

theorem Bookmark.endTag_takes : Bookmark.endTag.Takes (IsTagOf "w:bookmarkEnd") :=
  tagLength_takes _

/-! ### Comments -/

/-- Blanks at the head of a text **end where no blank follows**. -/
theorem eq_of_blanks_append_eq {a b : Text} {c d : Char} (ha : ∀ x ∈ a, isBlank x = true)
    (hb : ∀ x ∈ b, isBlank x = true) (hc : isBlank c = false) (hd : isBlank d = false)
    (h : a ++ c :: t = b ++ d :: u) : a = b := by
  rw [← takeWhile_append_cons (t := t) ha hc, h, takeWhile_append_cons hb hd]

/-- A text that is not blank has a **first character that is no blank**. -/
theorem exists_first_not_blank (h : ¬ ∀ c ∈ t, isBlank c = true) :
    ∃ lead d rest, t = lead ++ d :: rest ∧ (∀ c ∈ lead, isBlank c = true) ∧ isBlank d = false := by
  induction t with
  | nil => exact absurd (List.forall_mem_nil _) h
  | cons c t ih =>
    cases hc : isBlank c with
    | false => exact ⟨[], c, t, rfl, List.forall_mem_nil _, hc⟩
    | true =>
      obtain ⟨lead, d, rest, rfl, hlead, hd⟩ := ih fun ht => h (List.forall_mem_cons.2 ⟨hc, ht⟩)
      exact ⟨c :: lead, d, rest, rfl, List.forall_mem_cons.2 ⟨hc, hlead⟩, hd⟩

namespace Comment

/-- Blanks, a name and blanks in front of `-->` **are so many characters**, however many of these blanks
are taken to belong to the name. -/
theorem eq_of_blanks_name_blanks {a b a' b' s : Text} (ha : ∀ c ∈ a, isBlank c = true)
    (hb : ∀ c ∈ b, isBlank c = true) (ha' : ∀ c ∈ a', isBlank c = true)
    (hb' : ∀ c ∈ b', isBlank c = true)
    (h : a ++ name ++ b ++ '-' :: t = a' ++ name ++ b' ++ '-' :: s) :
    a ++ name ++ b = a' ++ name ++ b' := by
  have hblanks {x y : Text} (hx : ∀ c ∈ x, isBlank c = true) (hy : ∀ c ∈ y, isBlank c = true) :
      ∀ c ∈ x ++ y, isBlank c = true := fun c hc => (List.mem_append.1 hc).elim (hx c) (hy c)
  by_cases hname : ∀ c ∈ name, isBlank c = true
  · -- all of it is blank
    exact eq_of_blanks_append_eq (hblanks (hblanks ha hname) hb) (hblanks (hblanks ha' hname) hb')
      (by decide) (by decide) h
  · -- the name begins at the same place, for its first character that is no blank does
    obtain ⟨lead, d, rest, rfl, hlead, hd⟩ := exists_first_not_blank hname
    have htext : (a ++ lead) ++ d :: (rest ++ b ++ '-' :: t) =
        (a' ++ lead) ++ d :: (rest ++ b' ++ '-' :: s) := by simpa using h
    have hheads := eq_of_blanks_append_eq (hblanks ha hlead) (hblanks ha' hlead) hd hd htext
    obtain rfl := List.append_cancel_right hheads
    simp only [List.append_assoc, List.append_cancel_left_eq, List.cons_append, List.cons.injEq,
      true_and] at h ⊢
    exact eq_of_blanks_append_eq hb hb' (by decide) (by decide) h

theorem endLength_blanks {b : Text} (hb : ∀ c ∈ b, isBlank c = true) (t : Text) :
    endLength (b ++ ("-->".toList ++ t)) = some (b.length + 3) := by
  have hdash : isBlank '-' = false := by decide
  have htake : (b ++ ("-->".toList ++ t)).takeWhile isBlank = b := takeWhile_append_cons hb hdash
  have hdrop : (b ++ ("-->".toList ++ t)).dropWhile isBlank = "-->".toList ++ t := by
    rw [List.dropWhile_append_of_pos hb]
    exact List.dropWhile_cons_of_neg (by decide)
  rw [endLength, hdrop, Text.dropPrefix?_eq_some_iff.2 rfl, htake]
  rfl

/-- What a name and the end of a comment **are**. -/
theorem exists_of_nameLength {n : Nat} (h : nameLength name t = some n) :
    ∃ b s, t = name ++ b ++ ("-->".toList ++ s) ∧ (∀ c ∈ b, isBlank c = true) ∧
      n = (name ++ b).length + 3 := by
  obtain ⟨rest, hrest, hend⟩ := Option.bind_eq_some_iff.1 h
  obtain ⟨k, hk, rfl⟩ := Option.map_eq_some_iff.1 hend
  obtain ⟨s, hs, rfl⟩ := Option.map_eq_some_iff.1 hk
  refine ⟨rest.takeWhile isBlank, s, ?_, fun c hc => List.mem_takeWhile_imp hc, ?_⟩
  · rw [Text.dropPrefix?_eq_some_iff.1 hrest, List.append_assoc, ← Text.dropPrefix?_eq_some_iff.1 hs,
      List.takeWhile_append_dropWhile]
  · rw [List.length_append, Nat.add_assoc]

theorem nameLength_blanks {b : Text} (hb : ∀ c ∈ b, isBlank c = true) (t : Text) :
    nameLength name (name ++ (b ++ ("-->".toList ++ t))) = some ((name ++ b).length + 3) := by
  rw [nameLength, Text.dropPrefix?_eq_some_iff.2 rfl, Option.bind_some, endLength_blanks hb,
    Option.map_some, List.length_append, Nat.add_assoc]

/-- Blanks, a name and blanks up to the end of a comment **are taken whole**. -/
theorem bodyLength_blanks {a b : Text} (ha : ∀ c ∈ a, isBlank c = true) (hb : ∀ c ∈ b, isBlank c = true)
    (t : Text) :
    bodyLength name (a ++ (name ++ (b ++ ("-->".toList ++ t)))) = some ((a ++ name ++ b).length + 3) := by
  induction a with
  | nil =>
    obtain ⟨c, rest, hrest⟩ := List.exists_cons_of_ne_nil (l := name ++ (b ++ ("-->".toList ++ t)))
      (by simp)
    have hname : nameLength name (name ++ (b ++ ("-->".toList ++ t))) = some ((name ++ b).length + 3) :=
      nameLength_blanks hb t
    rw [hrest] at hname
    rw [List.nil_append, List.nil_append, hrest, bodyLength_cons, hname, Option.some_or]
  | cons c a ih =>
    obtain ⟨hc, ha'⟩ := List.forall_mem_cons.1 ha
    rw [List.cons_append, bodyLength_cons, if_pos hc, ih ha']
    cases hname : nameLength name (c :: (a ++ (name ++ (b ++ ("-->".toList ++ t))))) with
    | none => simp
    | some n =>
      -- the name may begin with the blank, but then it ends at the same place
      obtain ⟨b', s, htext, hb', rfl⟩ := exists_of_nameLength hname
      have htext' : c :: a ++ name ++ b ++ '-' :: ("->".toList ++ t) =
          [] ++ name ++ b' ++ '-' :: ("->".toList ++ s) := by simpa using htext
      rw [Option.some_or, eq_of_blanks_name_blanks ha hb (List.forall_mem_nil _) hb' htext', List.nil_append]

theorem exists_of_bodyLength {n : Nat} (h : bodyLength name t = some n) :
    ∃ a b s, t = a ++ name ++ b ++ ("-->".toList ++ s) ∧ (∀ c ∈ a, isBlank c = true) ∧
      (∀ c ∈ b, isBlank c = true) ∧ n = (a ++ name ++ b).length + 3 := by
  induction t generalizing n with
  | nil => cases h
  | cons c t ih =>
    rw [bodyLength_cons, Option.or_eq_some_iff] at h
    rcases h with hname | ⟨-, hbehind⟩
    · obtain ⟨b, s, htext, hb, rfl⟩ := exists_of_nameLength hname
      exact ⟨[], b, s, htext, List.forall_mem_nil _, hb, rfl⟩
    · split at hbehind
      case isFalse => cases hbehind
      case isTrue hc =>
        obtain ⟨k, hk, rfl⟩ := Option.map_eq_some_iff.1 hbehind
        obtain ⟨a, b, s, rfl, ha, hb, rfl⟩ := ih hk
        exact ⟨c :: a, b, s, rfl, List.forall_mem_cons.2 ⟨hc, ha⟩, hb, rfl⟩

/-- The matcher of comments that hold a name **takes the comments of the name**. -/
theorem marker_takes (name : Text) : (marker name).Takes (IsCommentOf name) where
  ne_nil := by
    rintro u ⟨a, b, rfl, -⟩
    simp
  append := by
    rintro u ⟨a, b, rfl, ha, hb⟩ t
    have htext : "<!--".toList ++ a ++ name ++ b ++ "-->".toList ++ t =
        "<!--".toList ++ (a ++ (name ++ (b ++ ("-->".toList ++ t)))) := by simp
    rw [marker, htext, Text.dropPrefix?_eq_some_iff.2 rfl, Option.bind_eq_bind, Option.bind_some,
      bodyLength_blanks ha hb]
    simp
    omega
  exists_piece := by
    intro t n h
    unfold marker at h
    split at h
    case h_2 => cases h
    case h_1 k hk =>
      obtain ⟨rest, hbegins, hbody⟩ := Option.bind_eq_some_iff.1 hk
      obtain ⟨a, b, s, rfl, ha, hb, rfl⟩ := exists_of_bodyLength hbody
      refine ⟨"<!--" ++ a ++ name ++ b ++ "-->", s, ?_, ⟨a, b, rfl, ha, hb⟩, ?_⟩
      · rw [Text.dropPrefix?_eq_some_iff.1 hbegins]
        simp
      · rw [← h]
        simp
        omega

end Comment

end MailMerge
