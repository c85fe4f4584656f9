import MailMerge.Text.Blank

/-!
# Markup as events

A document is a sequence of **events**: runs of character data and pieces of
markup, each with its place in bytes. Reading never fails as a whole: markup that
does not end is an event of its own, the last one.

* `Event` is the type of events, `Placed` an event with its offsets;
* `Event.read` reads one piece of markup behind its `<`;
* `events` reads a whole document.
-/

namespace MailMerge

/-- Why a piece of markup cannot be read. -/
inductive SyntaxFault where
  | unclosedTag
  | unclosedComment
  | unclosedCData
  | unclosedInstruction
  | unclosedDoctype
  | unknownMarkup
  deriving DecidableEq, Repr

/-- The text of a fault. -/
def SyntaxFault.message : SyntaxFault → Text
  | .unclosedTag => "tag not closed: `>` not found before end of input"
  | .unclosedComment => "comment not closed: `-->` not found before end of input"
  | .unclosedCData => "CDATA not closed: `]]>` not found before end of input"
  | .unclosedInstruction =>
    "processing instruction or xml declaration not closed: `?>` not found before end of input"
  | .unclosedDoctype => "DOCTYPE not closed: `>` not found before end of input"
  | .unknownMarkup => "unknown or missed symbol in markup"

/-- An **event** of a document. Comments, instructions, sections of literal data and
document types are not told apart once they are complete. -/
inductive Event where
  | characters (data : Text)
  | startTag (name : Text)
  | endTag (name : Text)
  | emptyTag (name : Text)
  | aside
  | namelessDoctype
  | broken (fault : SyntaxFault)
  deriving DecidableEq, Repr

/-- An event with the offsets of its first byte and of the byte behind it. -/
structure Placed where
  start : Nat
  stop : Nat
  event : Event
  deriving DecidableEq, Repr

namespace Event

/-! ### Ends of markup -/

/-- Splits at the first `>` outside quotes. -/
def splitTag : Option Char → Text → Option (Text × Text)
  | _, [] => none
  | none, c :: t =>
    if c = '>' then some ([], t)
    else (splitTag (if c = '"' ∨ c = '\'' then some c else none) t).map fun p => (c :: p.1, p.2)
  | some quote, c :: t =>
    (splitTag (if c = quote then none else some quote) t).map fun p => (c :: p.1, p.2)

/-- Splits at the first `>` for which the text before it, in reverse, closes the
markup. -/
def splitWhere (closes : Text → Bool) (before : Text) : Text → Option (Text × Text)
  | [] => none
  | c :: t =>
    if c = '>' && closes before then some (before.reverse, t)
    else splitWhere closes (c :: before) t

/-! ### Names -/

/-- The name at the head of a tag: up to the first blank. -/
def nameOf (content : Text) : Text := content.takeWhile fun c => !isMarkupBlank c

/-- The name of an end tag: all of it but the blanks at its end. -/
def endNameOf (content : Text) : Text :=
  let trimmed := (content.reverse.dropWhile isMarkupBlank).reverse
  if trimmed.isEmpty then content else trimmed

/-- The event of a tag that is no end tag. -/
def ofTag (content : Text) : Event :=
  match content.reverse with
  | '/' :: r => .emptyTag (nameOf r.reverse)
  | _ => .startTag (nameOf content)

theorem length_of_splitTag {q : Option Char} {t : Text} {p : Text × Text}
    (h : splitTag q t = some p) : p.2.length ≤ t.length := by
  fun_induction splitTag q t generalizing p with
  | case1 => simp at h
  | case2 => cases h; simp
  | case3 _ _ _ ih | case4 _ _ _ ih =>
    obtain ⟨r, hr, rfl⟩ := Option.map_eq_some_iff.1 h
    have := ih hr
    exact Nat.le_succ_of_le this

theorem length_of_splitWhere {closes : Text → Bool} {before t : Text} {p : Text × Text}
    (h : splitWhere closes before t = some p) : p.2.length ≤ t.length := by
  fun_induction splitWhere closes before t generalizing p with
  | case1 => simp at h
  | case2 => cases h; simp
  | case3 _ _ _ _ ih => exact Nat.le_succ_of_le (ih h)

/-! ### Pieces of markup -/

/-- A **piece of markup** behind its `<`: its event, its size in bytes, and what follows
it. -/
structure Piece where
  event : Event
  size : Nat
  rest : Text
  deriving DecidableEq, Repr

/-- The piece at the head of a text that is broken. Nothing follows it. -/
def Piece.broken (fault : SyntaxFault) (t : Text) : Piece := ⟨.broken fault, Text.utf8Size t, []⟩

/-- The piece at the head of a text, which is split at its `>`. A piece without an end
or without a meaning is broken. -/
def Piece.ofSplit (t : Text) (split : Option (Text × Text)) (fault : SyntaxFault)
    (event? : Text → Option Event) : Piece :=
  match split with
  | none => .broken fault t
  | some (content, rest) =>
    match event? content with
    | none => .broken fault t
    | some event => ⟨event, Text.utf8Size content + 1, rest⟩

theorem Piece.length_ofSplit {t : Text} {split : Option (Text × Text)} {n : Nat}
    (h : ∀ p, split = some p → p.2.length ≤ n) (fault : SyntaxFault)
    (event? : Text → Option Event) : (ofSplit t split fault event?).rest.length ≤ n := by
  unfold ofSplit
  split
  · simp [Piece.broken]
  · split
    · simp [Piece.broken]
    · exact h _ rfl

/-- The content of a section of literal data. -/
def ofCData (content : Text) : Option Event :=
  if Text.startsWith "![CDATA[" content then some .aside else none

/-- The content of a comment. -/
def ofComment (content : Text) : Option Event :=
  if Text.startsWith "!--" content then some .aside else none

/-- The content of a document type. -/
def ofDoctype (content : Text) : Option Event :=
  if Text.startsWith "!doctype" (Text.asciiLower content) then
    some (if (content.drop 8).all isMarkupBlank then .namelessDoctype else .aside)
  else none

/-- The content of a processing instruction, with its question marks. -/
def ofInstruction (content : Text) : Option Event :=
  if 1 < content.length then some .aside else none

/-- Reads markup that begins with `!`: a section of literal data, a comment or a
document type. -/
def readDeclaration (t : Text) : Piece :=
  match t.drop 1 with
  | '[' :: _ => .ofSplit t (splitWhere (Text.startsWith "]]") [] t) .unclosedCData ofCData
  | '-' :: _ =>
    .ofSplit t (splitWhere (fun before => Text.startsWith "--" before && 5 ≤ before.length) [] t)
      .unclosedComment ofComment
  | 'D' :: _ | 'd' :: _ =>
    .ofSplit t (splitWhere (fun before => before.count '<' == before.count '>') [] t)
      .unclosedDoctype ofDoctype
  | _ => .broken .unknownMarkup t

/-- Reads one piece of markup behind its `<`. -/
def read (t : Text) : Piece :=
  match t with
  | [] => .broken .unclosedTag []
  | '!' :: _ => readDeclaration t
  | '?' :: _ =>
    .ofSplit t (splitWhere (Text.startsWith "?") [] t) .unclosedInstruction ofInstruction
  | '/' :: _ =>
    .ofSplit t (splitTag none t) .unclosedTag fun content =>
      some (.endTag (endNameOf (content.drop 1)))
  | _ => .ofSplit t (splitTag none t) .unclosedTag fun content => some (ofTag content)

theorem length_readDeclaration (t : Text) : (readDeclaration t).rest.length ≤ t.length := by
  unfold readDeclaration
  split
  case h_5 => simp [Piece.broken]
  all_goals exact Piece.length_ofSplit (fun _ h => length_of_splitWhere h) _ _

theorem length_read (t : Text) : (read t).rest.length ≤ t.length := by
  unfold read
  split
  · simp [Piece.broken]
  · exact length_readDeclaration _
  · exact Piece.length_ofSplit (fun _ h => length_of_splitWhere h) _ _
  · exact Piece.length_ofSplit (fun _ h => length_of_splitTag h) _ _
  · exact Piece.length_ofSplit (fun _ h => length_of_splitTag h) _ _

end Event

/-! ### Documents -/

/-- The events of a text that begins at a byte offset. Empty runs of character
data are no events. -/
def eventsFrom (offset : Nat) (t : Text) : List Placed :=
  let data := t.takeWhile (· != '<')
  let start := offset + Text.utf8Size data
  let characters := if data.isEmpty then [] else [⟨offset, start, .characters data⟩]
  match _h : t.drop data.length with
  | [] => characters
  | _ :: markup =>
    let piece := Event.read markup
    let stop := start + 1 + piece.size
    characters ++ ⟨start, stop, piece.event⟩ :: eventsFrom stop piece.rest
termination_by t.length
decreasing_by
  have h := congrArg List.length _h
  have := Event.length_read markup
  simp only [List.length_drop, List.length_cons] at h
  omega

/-- The events of a document. A byte order mark at its start is no part of it. -/
def events (document : Text) : List Placed :=
  match document with
  | '\ufeff' :: t => eventsFrom 0 t
  | t => eventsFrom 0 t

end MailMerge
