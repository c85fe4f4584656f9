import MailMerge.Text.Basic

/-!
# Scanning for matches

A **matcher** gives the length of the match at the head of a text, zero if there
is none. A scan goes from left to right and takes each match whole, so that
matches never overlap.

* `segments` cuts a text into matches and the single characters between them;
* `rewriteMatches` replaces every match;
* `matchesIn` lists the matches;
* `findMatch?` finds the first match with a property, with what stands around it.
-/

namespace MailMerge

/-- A **matcher**: the number of characters of the match at the head of a text. -/
abbrev Matcher := Text → Nat

/-- A **segment** of a scanned text: a match, or a character outside all matches. -/
inductive Segment where
  | plain (c : Char)
  | hit (piece : Text)
  deriving DecidableEq, Repr

/-- The text of a segment. -/
def Segment.text : Segment → Text
  | .plain c => [c]
  | .hit piece => piece

/-- The segments of a text. -/
def segments (m : Matcher) : Text → List Segment
  | [] => []
  | c :: t =>
    match m (c :: t) with
    | 0 => .plain c :: segments m t
    | n + 1 => .hit (c :: t.take n) :: segments m (t.drop n)
termination_by t => t.length

@[simp] theorem segments_nil (m : Matcher) : segments m [] = [] := by
  simp [segments]

/-- Scanning loses nothing. -/
theorem flatMap_text_segments (m : Matcher) (t : Text) :
    (segments m t).flatMap Segment.text = t := by
  fun_induction segments m t with
  | case1 => rfl
  | case2 c t _ ih => simp [Segment.text, ih]
  | case3 c t n _ ih => simp [Segment.text, ih]

/-- The matches of a text, from left to right. -/
def matchesIn (m : Matcher) (t : Text) : List Text :=
  (segments m t).filterMap fun
    | .hit piece => some piece
    | .plain _ => none

/-- Replaces every match by what `f` makes of it. -/
def rewriteMatches (m : Matcher) (f : Text → Text) (t : Text) : Text :=
  (segments m t).flatMap fun
    | .hit piece => f piece
    | .plain c => [c]

/-- A **found** piece of a text, with what stands before and behind it. -/
structure Found where
  before : Text
  piece : Text
  after : Text
  deriving DecidableEq, Repr

/-- The text in which a piece was found. -/
def Found.text (f : Found) : Text := f.before ++ f.piece ++ f.after

/-- The first match that has a property. -/
def findMatch? (m : Matcher) (p : Text → Bool) : Text → Option Found
  | [] => none
  | c :: t =>
    match m (c :: t) with
    | 0 => (findMatch? m p t).map fun f => { f with before := c :: f.before }
    | n + 1 =>
      if p (c :: t.take n) then some ⟨[], c :: t.take n, t.drop n⟩
      else (findMatch? m p (t.drop n)).map fun f => { f with before := c :: t.take n ++ f.before }
termination_by t => t.length

@[simp] theorem findMatch?_nil (m : Matcher) (p : Text → Bool) : findMatch? m p [] = none := by
  simp [findMatch?]

/-- A match is found where it stands. -/
theorem text_of_findMatch? {m : Matcher} {p : Text → Bool} {t : Text} {f : Found}
    (h : findMatch? m p t = some f) : f.text = t := by
  fun_induction findMatch? m p t generalizing f with
  | case1 => simp at h
  | case2 c t _ ih =>
    obtain ⟨g, hg, rfl⟩ := Option.map_eq_some_iff.1 h
    simpa [Found.text] using ih hg
  | case3 c t n _ _ =>
    cases h
    simp [Found.text]
  | case4 c t n _ _ ih =>
    obtain ⟨g, hg, rfl⟩ := Option.map_eq_some_iff.1 h
    have := ih hg
    simp only [Found.text, List.append_assoc] at this ⊢
    simp [this]

/-- Whether there is a match. -/
def hasMatch (m : Matcher) (t : Text) : Bool := (findMatch? m (fun _ => true) t).isSome

end MailMerge
