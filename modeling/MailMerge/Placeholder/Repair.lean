import MailMerge.Markup.Tag
import MailMerge.Placeholder.Convention

/-!
# Repairing split tokens

Word processors spread one token over several runs of text. Such a token is joined
again by dropping the tags inside it, if these are as many start tags as end tags
and none belongs to a paragraph, a table cell or a table row.

A fragment is seen as a **strand**: its visible characters, each with the tags
directly before it. Tokens are looked for among the visible characters alone.

* `strandOf` and `Strand.text` go from a fragment to its strand and back;
* `repairCells` joins the tokens of a strand;
* `repairTokens` does all of it.
-/

namespace MailMerge

/-- A **visible character** with the tags directly before it. -/
structure Cell where
  tags : List Text
  char : Char
  deriving DecidableEq, Repr

/-- A fragment as visible characters, and what stands behind the last of them:
tags, and possibly one that never ends. -/
structure Strand where
  cells : List Cell
  rest : Text
  deriving DecidableEq, Repr

/-- The text of a cell. -/
def Cell.text (c : Cell) : Text := c.tags.flatten ++ [c.char]

/-- The text of a strand. -/
def Strand.text (s : Strand) : Text := s.cells.flatMap Cell.text ++ s.rest

/-- Cuts a fragment into cells, given the tags read since the last visible
character. -/
def strandFrom (tags : List Text) : Text → Strand
  | [] => ⟨[], tags.flatten⟩
  | c :: t =>
    if c = '<' then
      match anyTag (c :: t) with
      | 0 => ⟨[], tags.flatten ++ c :: t⟩
      | n + 1 => strandFrom (tags ++ [c :: t.take n]) (t.drop n)
    else
      let s := strandFrom [] t
      ⟨⟨tags, c⟩ :: s.cells, s.rest⟩
termination_by t => t.length

/-- The strand of a fragment. -/
def strandOf (fragment : Text) : Strand := strandFrom [] fragment

/-! ### Tags that may be dropped -/

/-- The name of a tag, without the marks before it. -/
def tagName (tag : Text) : Text :=
  ((tag.dropWhile (· == '<')).dropWhile (· == '/')).takeWhile fun c =>
    !(isBlank c || c == '>' || c == '/')

/-- The elements that a token never spans: paragraphs, table cells and table rows. -/
def boundaryNames : List Text := ["w:p", "w:tc", "w:tr"]

/-- How a tag changes the number of open elements. -/
def depthStep (tag : Text) : Int :=
  if Text.startsWith "</" tag then -1
  else if Text.endsWith "/>" tag || Text.startsWith "<?" tag || Text.startsWith "<!" tag then 0
  else 1

/-- How tags change the number of open elements all together. -/
def depthChange : List Text → Int
  | [] => 0
  | tag :: tags => depthStep tag + depthChange tags

/-- Whether the tags inside a token may be dropped. -/
def areDroppable (tags : List Text) : Bool :=
  tags.all (fun tag => !boundaryNames.contains (tagName tag)) && depthChange tags == 0

/-! ### Joining -/

/-- The greatest size of the inside of a token that is joined, in bytes. -/
def maxInnerSize : Nat := 100

/-- The cells of a token without the tags inside it: all but those before the first
character. -/
def joinCells : List Cell → List Cell
  | [] => []
  | first :: inner => first :: inner.map fun c => { c with tags := [] }

/-- The cells of a token, joined if there are tags inside that may be dropped. -/
def repairToken (token : List Cell) : List Cell :=
  let tags := (token.drop 1).flatMap Cell.tags
  if !tags.isEmpty && areDroppable tags then joinCells token else token

/-- The visible characters of cells. -/
def visible (cells : List Cell) : Text := cells.map Cell.char

/-- Whether the visible characters of cells begin with a text. -/
def beginVisibly (opening : Text) (cells : List Cell) : Bool :=
  visible (cells.take opening.length) == opening

/-- The visible characters of cells before the first place where they go on with a
text. -/
def visibleBefore? (closing : Text) : List Cell → Option Text
  | [] => if closing.isEmpty then some [] else none
  | cell :: cells =>
    if beginVisibly closing (cell :: cells) then some []
    else (visibleBefore? closing cells).map (cell.char :: ·)

/-- Joins the tokens among cells. Behind an opening delimiter whose token holds
another one or is too long, the search goes on. Without a closing delimiter there is
nothing left to join. -/
def repairCells (d : Delimiters) : List Cell → List Cell
  | [] => []
  | cell :: cells =>
    if beginVisibly d.opening (cell :: cells) then
      match visibleBefore? d.closing (cells.drop (d.opening.length - 1)) with
      | none => cell :: cells
      | some inner =>
        if Text.contains d.opening inner || maxInnerSize < Text.utf8Size inner then
          cell :: cells.take (d.opening.length - 1) ++
            repairCells d (cells.drop (d.opening.length - 1))
        else
          let size := d.opening.length + inner.length + d.closing.length
          repairToken (cell :: cells.take (size - 1)) ++ repairCells d (cells.drop (size - 1))
    else cell :: repairCells d cells
termination_by cells => cells.length

/-- A fragment with its split tokens joined. -/
def repairTokens (convention : PlaceholderConvention) (fragment : Text) : Text :=
  match convention.delimiters? with
  | none => fragment
  | some d =>
    let s := strandOf fragment
    Strand.text { s with cells := repairCells d s.cells }

end MailMerge
