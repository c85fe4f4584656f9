import MailMerge.Proofs.Nesting
import MailMerge.Proofs.BracketedText
import MailMerge.Proofs.CharacterData

/-!
# Nesting under repair

Token repair drops the tags inside a token if they are as many start tags as end tags. Their names are not
compared, so that the elements open behind the dropped tags may be others than those open before: as many,
but of other names. The end tags behind the token then close what is not open.

A fragment is seen as the pieces that repair takes it in. As long as the same elements are open on both
sides of all tags that are dropped, the tags that are left lead through the same elements as all tags do.
The first time they do not, the tags that are left lead somewhere else, and since tags can be read
backwards they never get back, unless they are led astray once more.

* `repairPieces` are the pieces of a fragment, `StrandPiece.kept` and `StrandPiece.dropped` the tags that
  repair keeps and drops in one of them;
* `StrandPiece.length_walk_dropped` — dropped tags keep the number of open elements;
* `unevenJoints` counts the tokens behind whose dropped tags other elements are open than before;
* `nested_repairTokens_iff` — a nested fragment stays nested if and only if there are none.
-/

namespace MailMerge

/-! ### Pieces -/

/-- A **piece of a strand**: cells that repair leaves alone, or those of a token. -/
inductive StrandPiece where
  | plain (cells : List Cell)
  | token (cells : List Cell)

namespace StrandPiece

/-- The cells of a piece. -/
def cells : StrandPiece → List Cell
  | plain cells => cells
  | token cells => cells

/-- The tags of a piece. -/
def tags (piece : StrandPiece) : List Text := piece.cells.flatMap Cell.tags

/-- The cells of a piece, **repaired**. -/
def repaired : StrandPiece → List Cell
  | plain cells => cells
  | token cells => repairToken cells

/-- The tags that repair **keeps** in a piece. -/
def kept (piece : StrandPiece) : List Text := piece.repaired.flatMap Cell.tags

/-- The tags that repair **drops** in a piece: those inside a token, if they may be dropped. -/
def dropped : StrandPiece → List Text
  | plain _ => []
  | token cells =>
    let tags := (cells.drop 1).flatMap Cell.tags
    if areDroppable tags then tags else []

/-- Tags are **kept or dropped**, the dropped ones behind those that are kept. -/
theorem kept_append_dropped (piece : StrandPiece) :
    piece.kept ++ piece.dropped = piece.tags := by
  cases piece with
  | plain cells => exact List.append_nil _
  | token cells =>
    cases cells with
    | nil => rfl
    | cons first inner =>
      have hjoined : (joinCells (first :: inner)).flatMap Cell.tags = first.tags := by
        simp [joinCells, List.flatMap_map]
      rw [kept, repaired, repairToken, dropped, StrandPiece.tags, StrandPiece.cells, List.drop_one,
        List.tail_cons, List.flatMap_cons]
      cases hdroppable : areDroppable (inner.flatMap Cell.tags) with
      | true =>
        -- without tags inside, nothing is dropped though it may be
        cases htags : inner.flatMap Cell.tags with
        | nil => simp [htags]
        | cons tag tags => simp [hjoined]
      | false => simp

/-- Behind the tags that are dropped **as many elements are open** as before them. -/
theorem length_walk_dropped {piece : StrandPiece} {before behind : List Text}
    (h : walkTags before piece.dropped = some behind) : behind.length = before.length := by
  have hlength := length_walkTags h
  have hdepth : depthChange piece.dropped = 0 := by
    cases piece with
    | plain cells => rfl
    | token cells =>
      rw [dropped]
      split
      case isTrue hdroppable =>
        rw [areDroppable, Bool.and_eq_true, beq_iff_eq] at hdroppable
        exact hdroppable.2
      case isFalse => rfl
  omega

end StrandPiece

/-- The **pieces of a strand**, as repair takes it. -/
def repairPieces (d : Delimiters) : List Cell → List StrandPiece
  | [] => []
  | cell :: cells =>
    if beginVisibly d.opening (cell :: cells) then
      match visibleBefore? d.closing (cells.drop (d.opening.length - 1)) with
      | none => [.plain (cell :: cells)]
      | some inner =>
        if Text.contains d.opening inner || maxInnerSize < Text.utf8Size inner then
          .plain (cell :: cells.take (d.opening.length - 1)) ::
            repairPieces d (cells.drop (d.opening.length - 1))
        else
          let size := d.opening.length + inner.length + d.closing.length
          .token (cell :: cells.take (size - 1)) :: repairPieces d (cells.drop (size - 1))
    else .plain [cell] :: repairPieces d cells
termination_by cells => cells.length

/-- Repair takes the strand **piece by piece**. -/
theorem flatMap_repaired (d : Delimiters) (cells : List Cell) :
    (repairPieces d cells).flatMap StrandPiece.repaired = repairCells d cells := by
  fun_induction repairCells d cells with
  | case1 => rw [repairPieces]; rfl
  | case2 cell cells hbegin hnone =>
    rw [repairPieces, if_pos hbegin, hnone]
    exact List.append_nil _
  | case3 cell cells hbegin inner hinner hskip ih =>
    rw [repairPieces, if_pos hbegin, hinner]
    dsimp only
    rw [if_pos hskip, List.flatMap_cons, ih]
    rfl
  | case4 cell cells hbegin inner hinner hjoin size ih =>
    rw [repairPieces, if_pos hbegin, hinner]
    dsimp only
    rw [if_neg hjoin, List.flatMap_cons, ih]
    rfl
  | case5 cell cells hbegin ih =>
    rw [repairPieces, if_neg hbegin, List.flatMap_cons, ih]
    rfl

/-- The pieces of a strand **are the strand**. -/
theorem flatMap_cells (d : Delimiters) (cells : List Cell) :
    (repairPieces d cells).flatMap StrandPiece.cells = cells := by
  fun_induction repairPieces d cells with
  | case1 => rfl
  | case2 cell cells => exact List.append_nil _
  | case3 cell cells _ inner _ _ ih =>
    rw [List.flatMap_cons, ih]
    exact congrArg (cell :: ·) (List.take_append_drop _ _)
  | case4 cell cells _ inner _ _ size ih =>
    rw [List.flatMap_cons, ih]
    exact congrArg (cell :: ·) (List.take_append_drop _ _)
  | case5 cell cells _ ih =>
    rw [List.flatMap_cons, ih]
    rfl

/-! ### Tags of a strand -/

theorem matchesIn_tag {tag : Text} (h : IsTag tag) (t : Text) :
    matchesIn anyTag (tag ++ t) = tag :: matchesIn anyTag t :=
  matchesIn_append_of_match h.ne_nil (h.anyTag_append t)

theorem matchesIn_flatten {tags : List Text} (h : ∀ tag ∈ tags, IsTag tag) (t : Text) :
    matchesIn anyTag (tags.flatten ++ t) = tags ++ matchesIn anyTag t := by
  induction tags with
  | nil => rfl
  | cons tag tags ih =>
    obtain ⟨htag, htags⟩ := List.forall_mem_cons.1 h
    rw [List.flatten_cons, List.append_assoc, matchesIn_tag htag, ih htags, List.cons_append]

/-- The tags of a strand **are those of its cells** and those behind them. -/
theorem matchesIn_flatMap_text {cells : List Cell} (hopen : ∀ cell ∈ cells, cell.char ≠ '<')
    (htags : ∀ cell ∈ cells, ∀ tag ∈ cell.tags, IsTag tag) (t : Text) :
    matchesIn anyTag (cells.flatMap Cell.text ++ t) =
      cells.flatMap Cell.tags ++ matchesIn anyTag t := by
  induction cells with
  | nil => rfl
  | cons cell cells ih =>
    obtain ⟨hc, hcs⟩ := List.forall_mem_cons.1 hopen
    obtain ⟨htag, htagss⟩ := List.forall_mem_cons.1 htags
    have hchar (t : Text) : matchesIn anyTag (cell.char :: t) = matchesIn anyTag t :=
      matchesIn_cons_of_zero (anyTag_opensWith _ _ hc)
    rw [List.flatMap_cons, Cell.text, List.append_assoc, List.append_assoc, List.singleton_append,
      matchesIn_flatten htag, hchar, ih hcs htagss, List.flatMap_cons, List.append_assoc]

/-- The cells of a strand have **all their tags or none** after the repair. -/
theorem forall_repairCells {P : Cell → Prop} (hP : ∀ cell, P cell → P { cell with tags := [] })
    (d : Delimiters) {cells : List Cell} (h : ∀ cell ∈ cells, P cell) :
    ∀ cell ∈ repairCells d cells, P cell := by
  have hthin := thinned_repairCells d cells
  generalize repairCells d cells = cells' at hthin
  induction hthin with
  | nil => exact h
  | cons hcell _ ih =>
    obtain ⟨hc, hcs⟩ := List.forall_mem_cons.1 h
    refine List.forall_mem_cons.2 ⟨?_, ih hcs⟩
    rcases hcell with rfl | rfl
    · exact hc
    · exact hP _ hc

/-- The tags of a fragment are **those of its pieces** and those behind them. -/
theorem matchesIn_eq_tags (d : Delimiters) (t : Text) :
    matchesIn anyTag t = (repairPieces d (strandOf t).cells).flatMap StrandPiece.tags ++
      matchesIn anyTag (strandOf t).rest := by
  have hpieces : (repairPieces d (strandOf t).cells).flatMap StrandPiece.tags =
      (strandOf t).cells.flatMap Cell.tags := by
    conv_rhs => rw [← flatMap_cells d (strandOf t).cells, List.flatMap_assoc]
    rfl
  have hopen : ∀ cell ∈ (strandOf t).cells, cell.char ≠ '<' := not_open_of_mem_strandFrom [] t
  have htags : ∀ cell ∈ (strandOf t).cells, ∀ tag ∈ cell.tags, IsTag tag :=
    isTag_of_mem_strandFrom (List.forall_mem_nil IsTag) t
  rw [hpieces, ← matchesIn_flatMap_text hopen htags]
  exact congrArg (matchesIn anyTag) (text_strandOf t).symm

/-- The tags of a repaired fragment are **those that are kept** in its pieces, and those behind them. -/
theorem matchesIn_eq_kept (d : Delimiters) (t : Text) :
    matchesIn anyTag ((repairCells d (strandOf t).cells).flatMap Cell.text ++ (strandOf t).rest) =
      (repairPieces d (strandOf t).cells).flatMap StrandPiece.kept ++
        matchesIn anyTag (strandOf t).rest := by
  have hopen := not_open_of_mem_strandFrom [] t
  have htags := isTag_of_mem_strandFrom (List.forall_mem_nil IsTag) t
  have hpieces : (repairPieces d (strandOf t).cells).flatMap StrandPiece.kept =
      (repairCells d (strandOf t).cells).flatMap Cell.tags := by
    rw [← flatMap_repaired, List.flatMap_assoc]
    rfl
  rw [hpieces]
  exact matchesIn_flatMap_text (forall_repairCells (fun _ h => h) d hopen)
    (forall_repairCells (fun _ _ => List.forall_mem_nil IsTag) d htags) _

/-! ### Joints -/

/-- The number of tokens behind whose dropped tags **other elements are open** than before them, given the
elements open before the pieces. -/
def unevenFrom (elements : List Text) : List StrandPiece → Nat
  | [] => 0
  | piece :: pieces =>
    match walkTags elements piece.kept with
    | none => 0
    | some before =>
      match walkTags before piece.dropped with
      | none => 0
      | some behind => (if behind = before then 0 else 1) + unevenFrom behind pieces

variable {elements result : List Text} {pieces : List StrandPiece}

/-- A walk through a piece goes through the tags that are kept, then through those that are dropped. -/
theorem unevenFrom_cons {piece : StrandPiece} {tags : List Text}
    (h : walkTags elements ((piece :: pieces).flatMap StrandPiece.tags ++ tags) =
      some result) :
    ∃ before behind, walkTags elements piece.kept = some before ∧
      walkTags behind (pieces.flatMap StrandPiece.tags ++ tags) = some result ∧
      unevenFrom elements (piece :: pieces) =
        (if behind = before then 0 else 1) + unevenFrom behind pieces := by
  rw [List.flatMap_cons, ← piece.kept_append_dropped, List.append_assoc, List.append_assoc,
    walkTags_append] at h
  obtain ⟨before, hkept, h⟩ := Option.bind_eq_some_iff.1 h
  rw [walkTags_append] at h
  obtain ⟨behind, hdropped, hrest⟩ := Option.bind_eq_some_iff.1 h
  refine ⟨before, behind, hkept, hrest, ?_⟩
  rw [unevenFrom, hkept]
  dsimp only
  rw [hdropped]

/-- Where the same elements are open on both sides of all dropped tags, the tags that are kept **lead where
all tags do**. -/
theorem walkTags_kept_of_even {tags : List Text}
    (h : walkTags elements (pieces.flatMap StrandPiece.tags ++ tags) = some result)
    (heven : unevenFrom elements pieces = 0) :
    walkTags elements (pieces.flatMap StrandPiece.kept ++ tags) = some result := by
  induction pieces generalizing elements with
  | nil => exact h
  | cons piece pieces ih =>
    obtain ⟨before, behind, hkept, hrest, huneven⟩ := unevenFrom_cons h
    rw [huneven, Nat.add_eq_zero_iff] at heven
    obtain ⟨hsame, heven⟩ := heven
    have hsame : behind = before := by
      by_contra hne
      rw [if_neg hne] at hsame
      cases hsame
    subst hsame
    rw [List.flatMap_cons, List.append_assoc, walkTags_append, hkept]
    exact ih hrest heven

/-- Where other elements are open behind some dropped tags, and behind no others, the tags that are kept
**lead elsewhere**. -/
theorem walkTags_kept_of_uneven {tags : List Text}
    (h : walkTags elements (pieces.flatMap StrandPiece.tags ++ tags) = some result)
    (hone : unevenFrom elements pieces = 1) :
    walkTags elements (pieces.flatMap StrandPiece.kept ++ tags) ≠ some result := by
  induction pieces generalizing elements with
  | nil => cases hone
  | cons piece pieces ih =>
    obtain ⟨before, behind, hkept, hrest, huneven⟩ := unevenFrom_cons h
    rw [huneven] at hone
    rw [List.flatMap_cons, List.append_assoc, walkTags_append, hkept, Option.bind_some]
    by_cases hsame : behind = before
    · subst hsame
      rw [if_pos rfl, Nat.zero_add] at hone
      exact ih hrest hone
    · -- nothing is uneven from here on, so both walks would end with the same elements
      rw [if_neg hsame] at hone
      intro hagain
      exact hsame (walkTags_injective (walkTags_kept_of_even hrest (by omega)) hagain)

/-! ### Repair -/

/-- The number of tokens that repair joins though **other elements are open** behind the tags inside than
before them. -/
def unevenJoints (convention : PlaceholderConvention) (t : Text) : Nat :=
  match convention.delimiters? with
  | none => 0
  | some d => unevenFrom [] (repairPieces d (strandOf t).cells)

/-- Token repair **keeps a fragment nested** if the same elements are open on both sides of all tags that it
drops, and it does not if there is one token where they are others. Two such tokens may make up for each
other. -/
theorem nested_repairTokens_iff {convention : PlaceholderConvention} {t : Text} (ht : Nested t)
    (hone : unevenJoints convention t ≤ 1) :
    Nested (repairTokens convention t) ↔ unevenJoints convention t = 0 := by
  rw [unevenJoints] at hone ⊢
  rw [repairTokens]
  cases hd : convention.delimiters? with
  | none => exact ⟨fun _ => rfl, fun _ => ht⟩
  | some d =>
    rw [hd] at hone
    dsimp only at hone ⊢
    -- both fragments are walked through piece by piece
    rw [Nested, matchesIn_eq_tags d] at ht
    rw [Nested, Strand.text, matchesIn_eq_kept d]
    constructor
    · intro hnested
      by_contra hne
      exact walkTags_kept_of_uneven ht (by omega) hnested
    · exact walkTags_kept_of_even ht

/-- A token cut between two runs is joined, and the runs are one. -/
theorem nested_repairTokens_of_runs :
    Nested (repairTokens .braces "<w:r><w:t>\x7b\x7bVor</w:t></w:r><w:r><w:t>name\x7d\x7d</w:t></w:r>") ↔
      unevenJoints .braces "<w:r><w:t>\x7b\x7bVor</w:t></w:r><w:r><w:t>name\x7d\x7d</w:t></w:r>" = 0 :=
  nested_repairTokens_iff (by decide +kernel) (by decide +kernel)

/-- A token cut between a smart tag and a hyperlink is joined, though one is closed inside the token and
the other opened. -/
theorem not_nested_repairTokens_of_hyperlink :
    ∃ t : Text, Bracketed t ∧ Nested t ∧ ¬ Nested (repairTokens .braces t) :=
  ⟨"<w:smartTag><w:r><w:t>\x7b\x7bVor</w:t></w:r></w:smartTag><w:hyperlink><w:r><w:t>name\x7d\x7d</w:t></w:r></w:hyperlink>",
    by decide +kernel, by decide +kernel, by decide +kernel⟩

/-- Two tokens may make up for each other. -/
example : Nested (repairTokens .braces "<a>\x7b\x7bx</a><b>y\x7d\x7d, \x7b\x7bx</b><a>y\x7d\x7d</a>") ∧
    unevenJoints .braces "<a>\x7b\x7bx</a><b>y\x7d\x7d, \x7b\x7bx</b><a>y\x7d\x7d</a>" = 2 := by
  decide +kernel

end MailMerge
