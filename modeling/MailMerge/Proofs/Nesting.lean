import MailMerge.Placeholder.Repair

/-!
# Nesting

The tags of a fragment are nested if every end tag closes the element that was opened last and is still
open, and no element is left open. Going through the tags, one keeps the names of the open elements; a tag
can be read backwards as well, so that the elements open behind some tags tell those open before them.

* `tagRole` is what a tag does to the open elements, and `walkTags` goes through the tags;
* `Nested` is a fragment whose tags are nested;
* `walkTags_injective` — the elements open behind tags tell those open before them;
* `length_walkTags` — how many elements are open.
-/

namespace MailMerge

/-- What a tag does to the **open elements**. -/
inductive TagRole where
  | opens (name : Text)
  | closes (name : Text)
  | alone
  deriving DecidableEq, Repr

/-- A tag opens or closes an element, or stands alone: an element without content, a comment, a
declaration or an instruction. -/
def tagRole (tag : Text) : TagRole :=
  if Text.startsWith "</" tag then .closes (tagName tag)
  else if Text.endsWith "/>" tag || Text.startsWith "<?" tag || Text.startsWith "<!" tag then .alone
  else .opens (tagName tag)

/-- The elements **open behind a tag** of a role, the innermost first. An end tag closes the innermost
one, and only if that has its name. -/
def TagRole.behind? : TagRole → List Text → Option (List Text)
  | .opens name, elements => some (name :: elements)
  | .alone, elements => some elements
  | .closes _, [] => none
  | .closes name, innermost :: others => if innermost = name then some others else none

/-- The elements **open behind a tag**. -/
def walkTag (elements : List Text) (tag : Text) : Option (List Text) := (tagRole tag).behind? elements

/-- The elements **open behind tags**. -/
def walkTags (elements tags : List Text) : Option (List Text) := tags.foldlM walkTag elements

/-- A fragment is **nested** if its tags close what they open. -/
def Nested (t : Text) : Prop := walkTags [] (matchesIn anyTag t) = some []

instance (t : Text) : Decidable (Nested t) := inferInstanceAs (Decidable (_ = _))

variable {elements elements' tags tags' result : List Text} {tag : Text}

theorem walkTags_cons (elements : List Text) (tag : Text) (tags : List Text) :
    walkTags elements (tag :: tags) = (walkTag elements tag).bind (walkTags · tags) := rfl

theorem walkTags_append (elements tags tags' : List Text) :
    walkTags elements (tags ++ tags') = (walkTags elements tags).bind (walkTags · tags') := by
  rw [walkTags, List.foldlM_append]
  rfl

theorem TagRole.behind?_closes_iff {name : Text} :
    (TagRole.closes name).behind? elements = some result ↔ elements = name :: result := by
  cases elements with
  | nil => exact ⟨fun h => (nomatch h), fun h => (nomatch h)⟩
  | cons innermost others =>
    rw [TagRole.behind?, List.cons.injEq]
    by_cases hname : innermost = name <;> simp [hname]

/-- The elements open behind a tag tell **those open before it**: the one that is closed by its name. -/
theorem walkTag_injective (h : walkTag elements tag = some result)
    (h' : walkTag elements' tag = some result) : elements = elements' := by
  unfold walkTag at h h'
  cases hrole : tagRole tag with
  | opens name =>
    rw [hrole] at h h'
    exact (List.cons.inj (Option.some.inj (h.trans h'.symm))).2
  | alone =>
    rw [hrole] at h h'
    exact Option.some.inj (h.trans h'.symm)
  | closes name =>
    rw [hrole, TagRole.behind?_closes_iff] at h h'
    rw [h, h']

/-- The elements open behind tags tell **those open before them**. -/
theorem walkTags_injective (h : walkTags elements tags = some result)
    (h' : walkTags elements' tags = some result) : elements = elements' := by
  induction tags generalizing elements elements' with
  | nil => exact Option.some.inj (h.trans h'.symm)
  | cons tag tags ih =>
    rw [walkTags_cons] at h h'
    obtain ⟨between, hstep, hrest⟩ := Option.bind_eq_some_iff.1 h
    obtain ⟨between', hstep', hrest'⟩ := Option.bind_eq_some_iff.1 h'
    -- backwards: first the tags behind the first one, then that one
    obtain rfl := ih hrest hrest'
    exact walkTag_injective hstep hstep'

/-! ### Depth -/

/-- A tag changes the **number of open elements** by its depth step. -/
theorem length_walkTag (h : walkTag elements tag = some result) :
    (result.length : Int) = elements.length + depthStep tag := by
  unfold walkTag tagRole at h
  unfold depthStep
  split at h
  case isTrue hcloses =>
    rw [TagRole.behind?_closes_iff] at h
    rw [if_pos hcloses, h, List.length_cons]
    omega
  case isFalse hcloses =>
    rw [if_neg hcloses]
    split at h
    case isTrue halone =>
      cases h
      rw [if_pos halone, Int.add_zero]
    case isFalse halone =>
      cases h
      rw [if_neg halone]
      simp

theorem length_walkTags (h : walkTags elements tags = some result) :
    (result.length : Int) = elements.length + depthChange tags := by
  induction tags generalizing elements with
  | nil =>
    cases h
    exact (Int.add_zero _).symm
  | cons tag tags ih =>
    rw [walkTags_cons] at h
    obtain ⟨between, hstep, hrest⟩ := Option.bind_eq_some_iff.1 h
    rw [ih hrest, length_walkTag hstep, depthChange, Int.add_assoc]

end MailMerge
