import MailMerge.Proofs.MarkerPairs
import MailMerge.Proofs.MarkerTags

/-!
# The first markers

Which markers delimit the region can be told without a search: the first start marker of the main part, for
bookmarks the first end tag behind it that is paired with it, and the first end marker behind those. If one of
them is missing nothing else is tried, and the error names the first that is.

Main parts are arbitrary texts, so that a tag may open in another one that is not closed yet. Both end at the
same `>`, and it is the outer one that is a tag of the text: the other one does not *stand* in it.

* `FirstOf` says what the first place with a property is, `MarkerStrategy.IsMarker` which places are markers;
* `FirstPair` says what the first markers delimit, and which of them is missing;
* `Matcher.Takes.firstOf_findMatch?` — a search finds the first place;
* `locate_first_pair` — where markers occur, the first of them decide.
-/

namespace MailMerge

/-! ### The specification -/

/-- A piece **stands** in a text if none of its kind that begins before it is still open. What is still open
ends where the piece ends. -/
def Found.Stands (IsPiece : Text → Prop) (f : Found) : Prop :=
  IsPiece f.piece ∧
    ∀ front opened, f.before = front ++ opened → opened ≠ [] → ¬ IsPiece (opened ++ f.piece)

/-- The **first place** of a text that has a property, if there is one. -/
inductive FirstOf (P : Found → Prop) (t : Text) : Option Found → Prop
  | found {f : Found} (text : f.text = t) (holds : P f)
      (first : ∀ g : Found, g.text = t → P g → f.before.length ≤ g.before.length) :
      FirstOf P t (some f)
  | absent (nowhere : ∀ g : Found, g.text = t → ¬ P g) : FirstOf P t none

/-- The start tag of a bookmark of a name. -/
def Bookmark.IsStart (name : Text) (f : Found) : Prop :=
  f.Stands (IsTagOf "w:bookmarkStart") ∧ attribute? "w:name" f.piece = some name

/-- The end tag of a bookmark of an identifier. -/
def Bookmark.IsEnd (id : Text) (f : Found) : Prop :=
  f.Stands (IsTagOf "w:bookmarkEnd") ∧ attribute? "w:id" f.piece = some id

/-- The comment of a name. -/
def Comment.IsMarker (name : Text) (f : Found) : Prop := IsCommentOf name f.piece

namespace MarkerStrategy

/-- The **markers** of a name. The whole body has none. -/
def IsMarker (name : Text) : MarkerStrategy → Found → Prop
  | .bookmark => Bookmark.IsStart name
  | .comment => Comment.IsMarker name
  | .wholeBody => fun _ => False

/-- Whether the start marker or the end marker **occurs**. -/
def Occurs (names : MarkerNames) (t : Text) (strategy : MarkerStrategy) : Prop :=
  ∃ f : Found, f.text = t ∧ (strategy.IsMarker names.start f ∨ strategy.IsMarker names.stop f)

/-- A main part **is marked** by bookmarks if one of the two occurs, else by comments if one of those does. -/
inductive Marks (names : MarkerNames) (t : Text) : MarkerStrategy → Prop
  | bookmark (occurs : Occurs names t .bookmark) : Marks names t .bookmark
  | comment (free : ¬ Occurs names t .bookmark) (occurs : Occurs names t .comment) : Marks names t .comment

end MarkerStrategy

/-- What the **first markers** of a main part delimit, or which of them is the first that is missing. -/
inductive FirstPair (names : MarkerNames) (t : Text) : MarkerStrategy → Except MissingMarker Region → Prop
  | bookmarks {opening paired closing : Found} {id : Text}
      (hopening : FirstOf (Bookmark.IsStart names.start) t (some opening))
      (hid : attribute? "w:id" opening.piece = some id)
      (hpaired : FirstOf (Bookmark.IsEnd id) opening.after (some paired))
      (hclosing : FirstOf (Bookmark.IsStart names.stop) paired.after (some closing)) :
      FirstPair names t .bookmark (.ok
        { before := opening.before ++ opening.piece ++ paired.before ++ paired.piece
          inside := closing.before
          after := closing.piece ++ closing.after })
  | noStart (hopening : FirstOf (Bookmark.IsStart names.start) t none) :
      FirstPair names t .bookmark (.error (.named names.start))
  | noIdentifier {opening : Found} (hopening : FirstOf (Bookmark.IsStart names.start) t (some opening))
      (hid : attribute? "w:id" opening.piece = none) :
      FirstPair names t .bookmark (.error (.bookmarkEnd names.start))
  | noEnd {opening : Found} {id : Text}
      (hopening : FirstOf (Bookmark.IsStart names.start) t (some opening))
      (hid : attribute? "w:id" opening.piece = some id)
      (hpaired : FirstOf (Bookmark.IsEnd id) opening.after none) :
      FirstPair names t .bookmark (.error (.bookmarkEnd names.start))
  | noStop {opening paired : Found} {id : Text}
      (hopening : FirstOf (Bookmark.IsStart names.start) t (some opening))
      (hid : attribute? "w:id" opening.piece = some id)
      (hpaired : FirstOf (Bookmark.IsEnd id) opening.after (some paired))
      (hclosing : FirstOf (Bookmark.IsStart names.stop) paired.after none) :
      FirstPair names t .bookmark (.error (.named names.stop))
  | comments {opening closing : Found}
      (hopening : FirstOf (Comment.IsMarker names.start) t (some opening))
      (hclosing : FirstOf (Comment.IsMarker names.stop) opening.after (some closing)) :
      FirstPair names t .comment (.ok
        { before := opening.before ++ opening.piece
          inside := closing.before
          after := closing.piece ++ closing.after })
  | noStartComment (hopening : FirstOf (Comment.IsMarker names.start) t none) :
      FirstPair names t .comment (.error (.named names.start))
  | noStopComment {opening : Found}
      (hopening : FirstOf (Comment.IsMarker names.start) t (some opening))
      (hclosing : FirstOf (Comment.IsMarker names.stop) opening.after none) :
      FirstPair names t .comment (.error (.named names.stop))

/-- A location **marks off a region** of the main part: its offsets are those of the two ends of the
region, so that anything can be put in the place of it, and there is no end marker in the region. -/
structure Location.MarksOff (names : MarkerNames) (t : Text) (location : Location) (r : Region) : Prop where
  text : r.text = t
  start : location.regionStart = Text.utf8Size r.before
  stop : location.regionStop = Text.utf8Size (r.before ++ r.inside)
  ordered : location.regionStart ≤ location.regionStop
  inRange : location.regionStop ≤ Text.utf8Size t
  closed : ∀ f : Found, f.text = r.inside → ¬ location.strategy.IsMarker names.stop f
  replaced : ∀ trailing copies, splice t location.regionStart location.regionStop trailing copies =
    .ok (r.before ++ copies ++ trailing ++ r.after)

variable {m : Matcher} {IsPiece : Text → Prop} {P : Found → Prop} {p : Text → Bool} {t u : Text}
  {names : MarkerNames} {x y : Option Found}

/-! ### First places -/

namespace FirstOf

/-- The first place in a text is **the first behind another text**, if none is there before. -/
theorem behind (h : ∀ g : Found, g.text = u ++ t → (P g ↔ ∃ f : Found, f.text = t ∧ P f ∧ f.behind u = g))
    (hx : FirstOf P t x) : FirstOf P (u ++ t) (x.map (Found.behind u)) := by
  have htext {f : Found} (hf : f.text = t) : (f.behind u).text = u ++ t := by
    rw [← hf]
    simp [Found.behind, Found.text]
  cases hx with
  | found text holds first =>
    refine .found (htext text) ((h _ (htext text)).2 ⟨_, text, holds, rfl⟩) fun g hg hP => ?_
    obtain ⟨f, hf, hPf, rfl⟩ := (h g hg).1 hP
    simpa [Found.behind] using first f hf hPf
  | absent nowhere =>
    refine .absent fun g hg hP => ?_
    obtain ⟨f, hf, hPf, -⟩ := (h g hg).1 hP
    exact nowhere f hf hPf

/-- **One place** is the first, if not more than one piece begins at a place. -/
theorem unique (h : ∀ f g : Found, f.text = g.text → f.before = g.before → P f → P g → f = g)
    (hx : FirstOf P t x) (hy : FirstOf P t y) : x = y := by
  cases hx with
  | absent nowhere =>
    cases hy with
    | absent => rfl
    | found text holds => exact absurd holds (nowhere _ text)
  | @found f text holds first =>
    cases hy with
    | absent nowhere => exact absurd holds (nowhere _ text)
    | @found g text' holds' first' =>
      -- both begin at the same place, since each is not behind the other
      have hlength : f.before.length = g.before.length :=
        Nat.le_antisymm (first g text' holds') (first' f text holds)
      have heq : f.before ++ (f.piece ++ f.after) = g.before ++ (g.piece ++ g.after) := by
        simpa [Found.text] using text.trans text'.symm
      rw [h f g (text.trans text'.symm) (List.append_inj heq hlength).1 holds holds']

end FirstOf

theorem firstOf_iff (h : ∀ f g : Found, f.text = g.text → f.before = g.before → P f → P g → f = g)
    (hx : FirstOf P t x) : FirstOf P t y ↔ x = y :=
  ⟨hx.unique h, fun heq => heq ▸ hx⟩

/-- A piece that stands behind a text **stands without it**. -/
theorem Found.Stands.of_behind {f : Found} (h : (f.behind u).Stands IsPiece) : f.Stands IsPiece := by
  refine ⟨h.1, fun front opened hbefore => h.2 (u ++ front) opened ?_⟩
  rw [List.append_assoc]
  exact congrArg (u ++ ·) hbefore

namespace Matcher.Takes

variable (hm : m.Takes IsPiece)
include hm

/-- **One piece** at most begins at a place. -/
theorem eq_of_before_eq {f g : Found} (htext : f.text = g.text) (hbefore : f.before = g.before)
    (hf : IsPiece f.piece) (hg : IsPiece g.piece) : f = g := by
  obtain ⟨before, piece, after⟩ := f
  obtain ⟨before', piece', after'⟩ := g
  obtain rfl : before = before' := hbefore
  have hrest : piece ++ after = piece' ++ after' := by simpa [Found.text] using htext
  obtain rfl : piece = piece' := hm.eq_of_append_eq hf hg hrest
  rw [List.append_cancel_left hrest]

theorem not_isPiece_of_zero {v s : Text} (hzero : m t = 0) (heq : v ++ s = t) : ¬ IsPiece v := by
  intro hv
  have hlength := hm.append hv s
  rw [heq, hzero] at hlength
  exact hm.ne_nil hv (List.length_eq_zero_iff.1 hlength.symm)

/-- A search for any piece finds **the first one**. -/
theorem firstOf_find (t : Text) : FirstOf (fun f => IsPiece f.piece) t (findMatch? m (fun _ => true) t) := by
  induction t with
  | nil =>
    rw [findMatch?_nil]
    refine .absent fun g hg hpiece => hm.ne_nil hpiece ?_
    simp only [Found.text, List.append_eq_nil_iff] at hg
    exact hg.1.2
  | cons c t ih =>
    cases hmatch : m (c :: t) with
    | zero =>
      rw [findMatch?_cons_of_zero hmatch]
      -- No piece begins at this character, so every piece is one of the rest.
      refine FirstOf.behind (u := [c]) (fun g hg => ⟨fun hpiece => ?_, ?_⟩) ih
      · obtain ⟨before, piece, after⟩ := g
        cases before with
        | nil => exact absurd hpiece (hm.not_isPiece_of_zero hmatch hg)
        | cons d before =>
          obtain ⟨rfl, hrest⟩ := List.cons.inj hg
          exact ⟨⟨before, piece, after⟩, hrest, hpiece, rfl⟩
      · rintro ⟨f, -, hpiece, rfl⟩
        exact hpiece
    | succ n =>
      obtain ⟨u, v, htext, hu, -⟩ := hm.exists_piece hmatch
      rw [htext, findMatch?_append_of_match (hm.ne_nil hu) (hm.append hu v), if_pos rfl]
      exact .found rfl hu fun _ _ _ => Nat.zero_le _

/-- Behind a text, **the same pieces stand** as without it, if a piece that begins in the text ends with
it, and neither stands there nor is looked for. -/
theorem stands_behind_iff
    (hu : ∀ a b v s, u = a ++ b → b ≠ [] → IsPiece v → v ++ s = b ++ t →
      v = b ∧ (a ≠ [] → IsPiece u) ∧ (a = [] → p u = false)) (g : Found) (hg : g.text = u ++ t) :
    (g.Stands IsPiece ∧ p g.piece = true) ↔
      ∃ f : Found, f.text = t ∧ (f.Stands IsPiece ∧ p f.piece = true) ∧ f.behind u = g := by
  constructor
  · rintro ⟨hstands, hp⟩
    obtain ⟨before, piece, after⟩ := g
    have hsplit : before ++ (piece ++ after) = u ++ t := by simpa [Found.text] using hg
    have hbehind : ∀ w, before = u ++ w → ∃ f : Found, f.text = t ∧
        (f.Stands IsPiece ∧ p f.piece = true) ∧ f.behind u = ⟨before, piece, after⟩ := by
      rintro w rfl
      refine ⟨⟨w, piece, after⟩, ?_, ⟨hstands.of_behind, hp⟩, rfl⟩
      simpa [Found.text] using hsplit
    rcases List.append_eq_append_iff.1 hsplit with ⟨b, rfl, hb⟩ | ⟨w, hw, -⟩
    · by_cases hne : b = []
      · exact hbehind [] (by simp [hne])
      · -- a piece that begins in the text is part of one that does, or is the text
        obtain ⟨rfl, hwhole, hp'⟩ := hu before b piece after rfl hne hstands.1 hb
        by_cases hbefore : before = []
        · have hpu := hp' hbefore
          rw [hbefore, List.nil_append, hp] at hpu
          cases hpu
        · exact absurd (hwhole hbefore) (hstands.2 [] before rfl hbefore)
    · exact hbehind w hw
  · rintro ⟨f, hf, ⟨⟨hpiece, hstands⟩, hp⟩, rfl⟩
    refine ⟨⟨hpiece, fun front opened hopened hne hwhole => ?_⟩, hp⟩
    rcases List.append_eq_append_iff.1 hopened with ⟨w, rfl, hw⟩ | ⟨b, rfl, rfl⟩
    · exact hstands w opened hw hne hwhole
    · by_cases hb : b = []
      · subst hb
        exact hstands [] f.before rfl hne hwhole
      · -- one that is still open would end in the text, and so before the piece begins
        have hend : b ++ f.before ++ f.piece = b := by
          refine (hu front b _ f.after rfl hb hwhole ?_).1
          rw [← hf]
          simp [Found.text, Found.behind]
        rw [List.append_assoc, List.append_right_eq_self, List.append_eq_nil_iff] at hend
        exact hm.ne_nil hpiece hend.2

/-- A search for a piece with a property finds **the first one that stands in the text**, if pieces that
begin in one another end together. -/
theorem firstOf_findMatch?
    (hend : ∀ {a b v s t}, IsPiece (a ++ b) → b ≠ [] → IsPiece v → v ++ t = b ++ s → v = b)
    (p : Text → Bool) (t : Text) :
    FirstOf (fun f => f.Stands IsPiece ∧ p f.piece = true) t (findMatch? m p t) := by
  -- by induction on the length, since a piece without the property is passed over whole
  induction hlen : t.length using Nat.strongRecOn generalizing t with
  | ind n ih =>
    cases t with
    | nil =>
      rw [findMatch?_nil]
      refine .absent fun g hg hpiece => hm.ne_nil hpiece.1.1 ?_
      simp only [Found.text, List.append_eq_nil_iff] at hg
      exact hg.1.2
    | cons c t =>
      cases hmatch : m (c :: t) with
      | zero =>
        rw [findMatch?_cons_of_zero hmatch]
        refine FirstOf.behind (u := [c]) (hm.stands_behind_iff fun a b v s hu hne hv heq => ?_)
          (ih t.length (by simp [← hlen]) t rfl)
        rcases List.append_eq_singleton_iff.1 hu.symm with ⟨rfl, rfl⟩ | ⟨-, rfl⟩
        · exact absurd hv (hm.not_isPiece_of_zero hmatch heq)
        · exact absurd rfl hne
      | succ k =>
        obtain ⟨u, v, htext, hu, -⟩ := hm.exists_piece hmatch
        have hshort : v.length < n := by
          have hpos := List.length_pos_iff.2 (hm.ne_nil hu)
          rw [← hlen, htext, List.length_append]
          omega
        rw [htext, findMatch?_append_of_match (hm.ne_nil hu) (hm.append hu v)]
        by_cases hp : p u = true
        · rw [if_pos hp]
          refine .found rfl ⟨⟨hu, fun front opened hbefore hne => ?_⟩, hp⟩ fun _ _ _ => Nat.zero_le _
          exact absurd (List.append_eq_nil_iff.1 hbefore.symm).2 hne
        · rw [if_neg hp]
          refine FirstOf.behind (hm.stands_behind_iff fun a b w s hab hne hw heq => ?_)
            (ih v.length hshort v rfl)
          exact ⟨hend (hab ▸ hu) hne hw heq, fun _ => hu, fun _ => by simpa using hp⟩

end Matcher.Takes

/-! ### Markers -/

namespace Bookmark

variable {name id : Text}

theorem firstOf_isStart_iff : FirstOf (IsStart name) t x ↔ findStart? name t = x := by
  refine firstOf_iff (fun f g htext hbefore hf hg =>
    startTag_takes.eq_of_before_eq htext hbefore hf.1.1 hg.1.1) ?_
  have h := startTag_takes.firstOf_findMatch?
    (fun hu hne hv heq => hu.eq_of_append_eq hne hv (by decide) heq) (isNamed name) t
  simp only [isNamed, beq_iff_eq] at h
  exact h

theorem firstOf_isEnd_iff : FirstOf (IsEnd id) t x ↔ findEnd? id t = x := by
  refine firstOf_iff (fun f g htext hbefore hf hg =>
    endTag_takes.eq_of_before_eq htext hbefore hf.1.1 hg.1.1) ?_
  have h := endTag_takes.firstOf_findMatch?
    (fun hu hne hv heq => hu.eq_of_append_eq hne hv (by decide) heq) (isPairedWith id) t
  simp only [isPairedWith, beq_iff_eq] at h
  exact h

end Bookmark

theorem Comment.firstOf_isMarker_iff {name : Text} :
    FirstOf (Comment.IsMarker name) t x ↔ Comment.find? name t = x :=
  firstOf_iff (fun _ _ htext hbefore hf hg => (marker_takes name).eq_of_before_eq htext hbefore hf hg)
    ((marker_takes name).firstOf_find t)

/-- A place with a property is there **if the first is found**. -/
theorem FirstOf.isSome_iff (h : FirstOf P t x) : x.isSome = true ↔ ∃ f : Found, f.text = t ∧ P f := by
  cases h with
  | found text holds => exact ⟨fun _ => ⟨_, text, holds⟩, fun _ => rfl⟩
  | absent nowhere =>
    exact ⟨fun h => absurd h Bool.false_ne_true, fun ⟨f, hf, hP⟩ => absurd hP (nowhere f hf)⟩

/-- **No place** with a property is before the first, if what follows does not matter. -/
theorem FirstOf.not_before {f : Found} (hne : ∀ g, P g → g.piece ≠ [])
    (hP : ∀ g v, P g → P (g.followedBy v)) (h : FirstOf P t (some f)) (g : Found) (hg : g.text = f.before) :
    ¬ P g := by
  intro hholds
  cases h with
  | found text _ first =>
    have htext : (g.followedBy (f.piece ++ f.after)).text = t := by
      rw [← text]
      simp [Found.followedBy, Found.text, ← hg]
    have hle := first _ htext (hP g _ hholds)
    have hpos := List.length_pos_iff.2 (hne g hholds)
    rw [← hg, Found.text, List.length_append, List.length_append] at hle
    change _ ≤ g.before.length at hle
    omega

/-- Markers **occur** where they are looked for. -/
theorem MarkerStrategy.occurs_iff {strategy : MarkerStrategy} (h : strategy ≠ .wholeBody) :
    strategy.Occurs names t ↔ isUsed names t strategy = true := by
  have hoccurs : strategy.Occurs names t ↔ (∃ f : Found, f.text = t ∧ strategy.IsMarker names.start f) ∨
      ∃ f : Found, f.text = t ∧ strategy.IsMarker names.stop f := by
    simp only [Occurs, and_or_left, exists_or]
  cases strategy with
  | bookmark =>
    rw [hoccurs, isUsed, Bookmark.isPresent, Bool.or_eq_true,
      (Bookmark.firstOf_isStart_iff.2 rfl).isSome_iff, (Bookmark.firstOf_isStart_iff.2 rfl).isSome_iff]
    rfl
  | comment =>
    rw [hoccurs, isUsed, Comment.isPresent, Bool.or_eq_true,
      (Comment.firstOf_isMarker_iff.2 rfl).isSome_iff, (Comment.firstOf_isMarker_iff.2 rfl).isSome_iff]
    rfl
  | wholeBody => exact absurd rfl h

/-- The way of marking that a main part uses **is taken**. -/
theorem MarkerStrategy.Marks.detect?_eq {strategy : MarkerStrategy} (h : strategy.Marks names t) :
    detect? names t = some strategy := by
  cases h with
  | bookmark occurs =>
    rw [detect?, all, List.find?_cons, (occurs_iff (by decide)).1 occurs]
  | comment free occurs =>
    rw [occurs_iff (by decide), Bool.not_eq_true] at free
    rw [detect?, all, List.find?_cons, free, List.find?_cons, (occurs_iff (by decide)).1 occurs]

/-! ### Pairs -/

/-- The search for bookmarks ends **in one of the five ways**. -/
theorem Bookmark.firstPair_region :
    FirstPair names t .bookmark (Bookmark.region names t) := by
  unfold Bookmark.region
  split
  case h_1 hopening => exact .noStart (firstOf_isStart_iff.2 hopening)
  case h_2 opening hopening =>
    have hopening := firstOf_isStart_iff.2 hopening
    split
    case h_1 hpaired =>
      -- a bookmark without an identifier has no end, or the end is missing
      cases hid : attribute? "w:id" opening.piece with
      | none => exact .noIdentifier hopening hid
      | some id =>
        rw [hid] at hpaired
        exact .noEnd hopening hid (firstOf_isEnd_iff.2 hpaired)
    case h_2 paired hpaired =>
      obtain ⟨id, hid, hpaired⟩ := Option.bind_eq_some_iff.1 hpaired
      have hpaired := firstOf_isEnd_iff.2 hpaired
      split
      case h_1 hclosing => exact .noStop hopening hid hpaired (firstOf_isStart_iff.2 hclosing)
      case h_2 closing hclosing =>
        exact .bookmarks hopening hid hpaired (firstOf_isStart_iff.2 hclosing)

/-- The region of bookmarks is what **the first bookmarks** delimit. -/
theorem Bookmark.region_eq_iff {outcome : Except MissingMarker Region} :
    Bookmark.region names t = outcome ↔ FirstPair names t .bookmark outcome := by
  constructor
  · rintro rfl
    exact Bookmark.firstPair_region
  · -- What the markers are decides the outcome, whichever of the cases holds.
    intro h
    unfold Bookmark.region
    cases h with
    | bookmarks hopening hid hpaired hclosing =>
      rw [firstOf_isStart_iff] at hopening hclosing
      rw [firstOf_isEnd_iff] at hpaired
      simp only [hopening, hid, Option.bind_eq_bind, Option.bind_some, hpaired, hclosing]
    | noStart hopening =>
      rw [firstOf_isStart_iff] at hopening
      rw [hopening]
    | noIdentifier hopening hid =>
      rw [firstOf_isStart_iff] at hopening
      simp only [hopening, hid, Option.bind_eq_bind, Option.bind_none]
    | noEnd hopening hid hpaired =>
      rw [firstOf_isStart_iff] at hopening
      rw [firstOf_isEnd_iff] at hpaired
      simp only [hopening, hid, Option.bind_eq_bind, Option.bind_some, hpaired]
    | noStop hopening hid hpaired hclosing =>
      rw [firstOf_isStart_iff] at hopening hclosing
      rw [firstOf_isEnd_iff] at hpaired
      simp only [hopening, hid, Option.bind_eq_bind, Option.bind_some, hpaired, hclosing]

/-- The region of comments is what **the first comments** delimit. -/
theorem Comment.region_eq_iff {outcome : Except MissingMarker Region} :
    Comment.region names t = outcome ↔ FirstPair names t .comment outcome := by
  constructor
  · rintro rfl
    unfold Comment.region
    split
    case h_1 hopening => exact .noStartComment (firstOf_isMarker_iff.2 hopening)
    case h_2 opening hopening =>
      split
      case h_1 hclosing =>
        exact .noStopComment (firstOf_isMarker_iff.2 hopening) (firstOf_isMarker_iff.2 hclosing)
      case h_2 closing hclosing =>
        exact .comments (firstOf_isMarker_iff.2 hopening) (firstOf_isMarker_iff.2 hclosing)
  · intro h
    unfold Comment.region
    cases h with
    | comments hopening hclosing | noStopComment hopening hclosing =>
      rw [firstOf_isMarker_iff] at hopening hclosing
      simp only [hopening, hclosing]
    | noStartComment hopening =>
      rw [firstOf_isMarker_iff] at hopening
      rw [hopening]

theorem MarkerStrategy.region_eq_iff {strategy : MarkerStrategy} {outcome : Except MissingMarker Region}
    (h : strategy.Marks names t) :
    strategy.region names t = outcome ↔ FirstPair names t strategy outcome := by
  cases h with
  | bookmark => exact Bookmark.region_eq_iff
  | comment => exact Comment.region_eq_iff

/-- Between the first markers **there is no end marker**. -/
theorem FirstPair.not_isMarker {strategy : MarkerStrategy} {r : Region}
    (h : FirstPair names t strategy (.ok r)) (f : Found) (hf : f.text = r.inside) :
    ¬ strategy.IsMarker names.stop f := by
  cases h with
  | bookmarks hopening hid hpaired hclosing =>
    exact hclosing.not_before (fun g hg => Bookmark.startTag_takes.ne_nil hg.1.1) (fun g v hg => hg) f hf
  | comments hopening hclosing =>
    exact hclosing.not_before (fun g hg => (Comment.marker_takes _).ne_nil hg) (fun g v hg => hg) f hf

/-! ### Locations -/

/-- The location of what the first markers delimit **marks it off**. -/
theorem FirstPair.marksOff {strategy : MarkerStrategy} {r : Region} (hmarks : strategy.Marks names t)
    (h : FirstPair names t strategy (.ok r)) :
    (Location.ofRegion names strategy r).MarksOff names t r := by
  have htext : r.text = t := Region.text_of_region ((MarkerStrategy.region_eq_iff hmarks).2 h)
  exact {
    text := htext
    start := rfl
    stop := by rw [regionStop_ofRegion, Text.utf8Size_append]; rfl
    ordered := Nat.le_add_right _ _
    inRange := by
      rw [regionStop_ofRegion, ← htext, Region.text, Text.utf8Size_append, Text.utf8Size_append]
      exact Nat.le_add_right _ _
    closed := h.not_isMarker
    replaced := fun trailing copies => by
      rw [regionStart_ofRegion, regionStop_ofRegion, ← htext]
      exact splice_region r trailing copies }

/-- **The first markers decide.** Where a start marker or an end marker occurs, as a bookmark or else as a
comment, the region of a main part is what the first markers of that kind delimit: it is found if all of
them are there, and the error names the first of them that is not. The region ends before the first end
marker behind its start, and its offsets are such that copies can be put in its place. -/
theorem locate_first_pair (names : MarkerNames) (t : Text) (strategy : MarkerStrategy)
    (h : strategy.Marks names t) :
    (∀ location, locate names t = .ok location ↔
      ∃ r, FirstPair names t strategy (.ok r) ∧ location = .ofRegion names strategy r) ∧
    (∀ missing, locate names t = .error missing ↔ FirstPair names t strategy (.error missing)) ∧
    ∀ r, FirstPair names t strategy (.ok r) →
      (Location.ofRegion names strategy r).strategy = strategy ∧
        (Location.ofRegion names strategy r).MarksOff names t r := by
  have hlocate : locate names t = (strategy.region names t).map (Location.ofRegion names strategy) := by
    rw [locate, h.detect?_eq]
  refine ⟨fun location => ?_, fun missing => ?_, fun r hr => ⟨rfl, hr.marksOff h⟩⟩
  · rw [hlocate, map_eq_ok_iff]
    refine exists_congr fun r => ?_
    rw [MarkerStrategy.region_eq_iff h, eq_comm (a := location)]
  · rw [hlocate, ← MarkerStrategy.region_eq_iff h]
    cases strategy.region names t with
    | error => simp [Except.map]
    | ok => simp [Except.map]

/-- Comments and a bookmark of another name stand around the markers, with an end tag of its own between
them. -/
theorem locate_first_pair_among_others :
    ∃ r : Region, r = ⟨"<!--SectionStart-->é<w:bookmarkStart w:id=\"7\" w:name=\"Other\"/>" ++
          "<w:bookmarkStart w:id=\"0\" w:name=\"SectionStart\"/><w:bookmarkEnd w:id=\"7\"/>" ++
          "<w:bookmarkEnd w:id=\"0\"/>", "Grüße",
        "<w:bookmarkStart w:id=\"1\" w:name=\"SectionEnd\"/><!--SectionEnd-->"⟩ ∧
      locate .standard r.text = .ok (.ofRegion .standard .bookmark r) ∧
      (Location.ofRegion .standard .bookmark r).MarksOff .standard r.text r := by
  have hdecided (r : Region) (hused : Bookmark.isPresent .standard r.text = true)
      (hregion : Bookmark.region .standard r.text = .ok r) :
      locate .standard r.text = .ok (.ofRegion .standard .bookmark r) ∧
        (Location.ofRegion .standard .bookmark r).MarksOff .standard r.text r := by
    obtain ⟨hlocated, -, hmarked⟩ := locate_first_pair .standard r.text .bookmark
      (.bookmark ((MarkerStrategy.occurs_iff (by decide)).2 hused))
    have hpair := Bookmark.region_eq_iff.1 hregion
    exact ⟨(hlocated _).2 ⟨r, hpair, rfl⟩, (hmarked r hpair).2⟩
  exact ⟨_, rfl, hdecided _ (by decide +kernel) (by decide +kernel)⟩

end MailMerge
