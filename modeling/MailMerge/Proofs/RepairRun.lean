import MailMerge.Proofs.NestedRepair
import MailMerge.Proofs.SectionSearch

/-!
# How token repair goes through a fragment

Token repair goes through the visible characters of a fragment in steps of four kinds: a character at which no
opening delimiter begins is kept, and so is an opening delimiter behind which no token ends, or behind which
another one begins, or the name is too long; without a closing delimiter all that is left is kept; and a token
is joined, if the tags in it may be dropped. Which of the steps is taken depends on the visible characters
alone. Repair does not change these, so that it takes the same steps the second time, and a token that has
been joined has no tags any more that could be dropped.

* `RepairRun` is the relation of cells and what repair makes of them, step by step; `repairRun_repairCells`
  and `RepairRun.eq` — it is what repair computes;
* `RepairRun.again` — the second run of repair does nothing;
* `Joined` relates a fragment to one in which tags inside tokens have been dropped, and
  `joined_repairTokens` — repair does no more than that.
-/

namespace MailMerge

/-! ### The specification -/

/-- Whether the inside of a token is **passed over**: another token begins in it, or it is too long. -/
def Delimiters.skips (d : Delimiters) (inner : Text) : Bool :=
  Text.contains d.opening inner || decide (maxInnerSize < Text.utf8Size inner)

/-- A fragment, and **what is left of it when tags inside tokens are dropped**. The fragment is cut into its
visible characters, each with the tags before it, and what stands behind the last of them. A token is spelled
by visible characters; of those that have lost tags, all tags behind the first character are gone. -/
inductive Joined (d : Delimiters) (IsDropped : Text → Prop) : Text → Text → Prop
  | rest {t : Text} (h : characterData t = []) : Joined d IsDropped t t
  | cell {cell : Cell} {t u : Text} (hopen : cell.char ≠ '<') (htags : ∀ tag ∈ cell.tags, IsTag tag) :
      Joined d IsDropped t u → Joined d IsDropped (cell.text ++ t) (cell.text ++ u)
  | token {first : Cell} {inside : List Cell} {inner t u : Text}
      (htoken : visible (first :: inside) = d.tokenText inner) (hkeep : d.skips inner = false)
      (hopen : ∀ cell ∈ first :: inside, cell.char ≠ '<')
      (htags : ∀ cell ∈ first :: inside, ∀ tag ∈ cell.tags, IsTag tag)
      (hdropped : ∀ cell ∈ inside, ∀ tag ∈ cell.tags, IsDropped tag) :
      Joined d IsDropped t u →
      Joined d IsDropped ((first :: inside).flatMap Cell.text ++ t)
        (first.tags.flatten ++ d.tokenText inner ++ u)

/-- Whether a text begins with a **tag of an element**, be it a start tag, an end tag or that of an empty
element. -/
def BeginsTagOf (name t : Text) : Prop :=
  ∃ slash ∈ ([[], ['/']] : List Text), ∃ c rest, t = '<' :: (slash ++ name ++ c :: rest) ∧ endsTagName c = true

/-- Whether **no tag of a paragraph, a table cell or a table row** begins anywhere in a text. -/
def HoldsNoBoundary (t : Text) : Prop := ∀ s, s <:+ t → ∀ name ∈ boundaryNames, ¬ BeginsTagOf name s

/-- **How repair goes** through cells, step by step. -/
inductive RepairRun (d : Delimiters) : List Cell → List Cell → Prop
  | nil : RepairRun d [] []
  | char {cell : Cell} {cells out : List Cell} (h : ¬ d.opening <+: visible (cell :: cells)) :
      RepairRun d cells out → RepairRun d (cell :: cells) (cell :: out)
  | unclosed {front cells : List Cell} (hopening : visible front = d.opening)
      (hnone : Text.cut? d.closing (visible cells) = none) : RepairRun d (front ++ cells) (front ++ cells)
  | skip {front cells out : List Cell} {inner behind : Text} (hopening : visible front = d.opening)
      (hcut : Text.cut? d.closing (visible cells) = some (inner, behind)) (hskip : d.skips inner = true) :
      RepairRun d cells out → RepairRun d (front ++ cells) (front ++ out)
  | token {token cells out : List Cell} {inner : Text} (htoken : visible token = d.tokenText inner)
      (hcut : Text.cut? d.closing (inner ++ d.closing ++ visible cells) = some (inner, visible cells))
      (hkeep : d.skips inner = false) :
      RepairRun d cells out → RepairRun d (token ++ cells) (repairToken token ++ out)

variable {d : Delimiters} {cells out front token : List Cell} {inner behind t u : Text}

/-! ### Steps -/

/-- The step at a character that opens no token **keeps it**. -/
theorem repairCells_char {cell : Cell} (h : ¬ d.opening <+: visible (cell :: cells)) :
    repairCells d (cell :: cells) = cell :: repairCells d cells :=
  repairCells_cons_of_not (mt (Exists.imp fun _ => Eq.symm) h)

/-- The step at an opening delimiter depends on **what stands behind it**. -/
theorem repairCells_opening (hne : d.opening ≠ []) (hopening : visible front = d.opening) (cells : List Cell) :
    repairCells d (front ++ cells) =
      match Text.cut? d.closing (visible cells) with
      | none => front ++ cells
      | some (inner, _) =>
        if d.skips inner then front ++ repairCells d cells
        else
          let size := inner.length + d.closing.length
          repairToken (front ++ cells.take size) ++ repairCells d (cells.drop size) := by
  have hlength : front.length = d.opening.length := by rw [← hopening, visible, List.length_map]
  have hbegin : beginVisibly d.opening (front ++ cells) = true :=
    beginVisibly_iff.2 ⟨visible cells, by rw [visible_append, hopening]⟩
  cases front with
  | nil => exact absurd hopening.symm hne
  | cons cell front =>
    have hsize : d.opening.length - 1 = front.length := by rw [← hlength, List.length_cons]; omega
    rw [List.cons_append] at hbegin
    rw [List.cons_append, repairCells, if_pos hbegin, hsize, List.drop_left, List.take_left, visibleBefore?_eq]
    cases hcut : Text.cut? d.closing (visible cells) with
    | none => rfl
    | some p =>
      obtain ⟨inner, behind⟩ := p
      have htotal : d.opening.length + inner.length + d.closing.length - 1 =
          front.length + (inner.length + d.closing.length) := by
        rw [← hlength, List.length_cons]
        omega
      dsimp only [Option.map_some]
      rw [htotal, List.take_length_add_append, List.drop_length_add_append, Delimiters.skips]
      rfl

theorem exists_of_visible_eq_append {a b : Text} (h : visible cells = a ++ b) :
    ∃ front rest, cells = front ++ rest ∧ visible front = a ∧ visible rest = b :=
  List.map_eq_append_iff.1 h

/-- Cells that go on **behind a token**. -/
theorem repairCells_token (hne : d.opening ≠ []) (htoken : visible token = d.tokenText inner)
    (hcut : Text.cut? d.closing (inner ++ d.closing ++ visible cells) = some (inner, behind))
    (hkeep : d.skips inner = false) :
    repairCells d (token ++ cells) = repairToken token ++ repairCells d cells := by
  rw [Delimiters.tokenText, List.append_assoc] at htoken
  obtain ⟨front, rest, rfl, hopening, hrest⟩ := exists_of_visible_eq_append htoken
  have hsize : inner.length + d.closing.length = rest.length := by
    rw [← List.length_append, ← hrest, visible, List.length_map]
  have hskip : ¬ d.skips inner = true := by rw [hkeep]; exact Bool.false_ne_true
  rw [List.append_assoc, repairCells_opening hne hopening, visible_append, hrest, hcut]
  dsimp only
  rw [if_neg hskip, hsize, List.take_left, List.drop_left]

/-- What goes through cells step by step **is what repair makes** of them. -/
theorem RepairRun.eq (hne : d.opening ≠ []) (h : RepairRun d cells out) : repairCells d cells = out := by
  induction h with
  | nil => rw [repairCells]
  | char h _ ih => rw [repairCells_char h, ih]
  | unclosed hopening hnone => rw [repairCells_opening hne hopening, hnone]
  | skip hopening hcut hskip _ ih =>
    rw [repairCells_opening hne hopening, hcut]
    dsimp only
    rw [if_pos hskip, ih]
  | token htoken hcut hkeep _ ih => rw [repairCells_token hne htoken hcut hkeep, ih]

/-- Repair **goes step by step**. -/
theorem repairRun_repairCells (hne : d.opening ≠ []) (cells : List Cell) :
    RepairRun d cells (repairCells d cells) := by
  -- by induction on the number of cells: each step leaves fewer
  induction hlength : cells.length using Nat.strongRecOn generalizing cells with
  | ind n ih =>
    by_cases hbegin : d.opening <+: visible cells
    · obtain ⟨rest, hrest⟩ := hbegin
      obtain ⟨front, behind, rfl, hopening, -⟩ := exists_of_visible_eq_append hrest.symm
      have hfront : 0 < front.length := by
        rw [← List.length_map Cell.char, ← visible, hopening]
        exact List.length_pos_iff.2 hne
      rw [List.length_append] at hlength
      rw [repairCells_opening hne hopening]
      cases hcut : Text.cut? d.closing (visible behind) with
      | none => exact .unclosed hopening hcut
      | some p =>
        obtain ⟨inner, after⟩ := p
        dsimp only
        cases hskip : d.skips inner with
        | true =>
          rw [if_pos rfl]
          exact .skip hopening hcut hskip (ih _ (by omega) behind rfl)
        | false =>
          rw [if_neg Bool.false_ne_true]
          obtain ⟨name, cells, rfl, hname, hcells⟩ := exists_of_visible_eq_append (Text.eq_of_cut? hcut)
          dsimp only at hname hcells
          have hsize : inner.length + d.closing.length = name.length := by
            rw [← List.length_append, ← hname, visible, List.length_map]
          have htoken : visible (front ++ name) = d.tokenText inner := by
            rw [visible_append, hopening, hname, Delimiters.tokenText, List.append_assoc]
          rw [visible_append, hname, ← hcells] at hcut
          rw [hsize, List.take_left, List.drop_left, ← List.append_assoc]
          rw [List.length_append] at hlength
          exact .token htoken hcut hskip (ih _ (by omega) cells rfl)
    · cases cells with
      | nil =>
        rw [repairCells]
        exact .nil
      | cons cell cells =>
        rw [repairCells_char hbegin]
        rw [List.length_cons] at hlength
        exact .char hbegin (ih _ (by omega) cells rfl)

/-! ### The second run -/

theorem visible_repairToken (token : List Cell) : visible (repairToken token) = visible token := by
  unfold repairToken
  dsimp only
  split
  case isFalse => rfl
  case isTrue =>
    cases token with
    | nil => rfl
    | cons first inner => exact congrArg (first.char :: ·) (visible_map_untagged inner)

theorem repairToken_of_not_droppable {first : Cell} {inside : List Cell}
    (h : areDroppable (inside.flatMap Cell.tags) = false) : repairToken (first :: inside) = first :: inside := by
  unfold repairToken
  dsimp only
  rw [List.drop_one, List.tail_cons, h, Bool.and_false, if_neg Bool.false_ne_true]

/-- The text of a token without the tags inside it. -/
theorem flatMap_text_joined (first : Cell) (inside : List Cell) :
    (first :: inside.map Cell.untagged).flatMap Cell.text = first.tags.flatten ++ visible (first :: inside) := by
  rw [List.flatMap_cons, flatMap_text_untagged, Cell.text, List.append_assoc]
  rfl

/-- A token that has been joined **stays as it is**. -/
theorem repairToken_repairToken (token : List Cell) : repairToken (repairToken token) = repairToken token := by
  cases token with
  | nil => rfl
  | cons first inner =>
    cases hdroppable : areDroppable (inner.flatMap Cell.tags) with
    | false =>
      rw [repairToken_of_not_droppable hdroppable, repairToken_of_not_droppable hdroppable]
    | true =>
      -- no tags are left inside the token, and there is nothing more to drop
      have hnone : (inner.map Cell.untagged).flatMap Cell.tags = [] := by simp [Cell.untagged]
      have hagain : areDroppable ((inner.map Cell.untagged).flatMap Cell.tags) = true := by rw [hnone]; decide
      rw [repairToken_eq hdroppable, repairToken_eq hagain, List.map_map]
      rfl

theorem RepairRun.visible_eq (h : RepairRun d cells out) : visible out = visible cells := by
  induction h with
  | nil => rfl
  | char _ _ ih => exact congrArg (_ :: ·) ih
  | unclosed => rfl
  | skip _ _ _ _ ih => rw [visible_append, visible_append, ih]
  | token _ _ _ _ ih => rw [visible_append, visible_append, visible_repairToken, ih]

/-- The second run **does nothing**. -/
theorem RepairRun.again (h : RepairRun d cells out) : RepairRun d out out := by
  induction h with
  | nil => exact .nil
  | @char cell cells out h hrun ih =>
    have hvisible : visible (cell :: out) = visible (cell :: cells) := congrArg (_ :: ·) hrun.visible_eq
    exact .char (by rwa [hvisible]) ih
  | unclosed hopening hnone => exact .unclosed hopening hnone
  | skip hopening hcut hskip hrun ih => exact .skip hopening (by rwa [hrun.visible_eq]) hskip ih
  | @token token cells out inner htoken hcut hkeep hrun ih =>
    have hagain : RepairRun d (repairToken token ++ out) (repairToken (repairToken token) ++ out) :=
      .token ((visible_repairToken token).trans htoken) (by rwa [hrun.visible_eq]) hkeep ih
    rwa [repairToken_repairToken] at hagain

/-- Behind its last visible character a strand holds **no character data**. -/
theorem characterData_rest (t : Text) : characterData (strandOf t).rest = [] := by
  have hopen := not_open_of_mem_strandFrom [] t
  have htags := isTag_of_mem_strandFrom (List.forall_mem_nil IsTag) t
  have hdata := characterData_of_thinned (Cell.Thinned.refl_list (strandOf t).cells) hopen htags (strandOf t).rest
  have htext : (strandOf t).cells.flatMap Cell.text ++ (strandOf t).rest = t := text_strandOf t
  rw [htext, visible_strandOf] at hdata
  exact List.append_right_eq_self.1 hdata.symm

/-- What stands behind the last visible character **is a strand without cells**. -/
theorem strandOf_of_characterData (h : characterData t = []) : strandOf t = ⟨[], t⟩ := by
  have hcells : (strandOf t).cells = [] := List.map_eq_nil_iff.1 ((visible_strandOf t).trans h)
  have htext := text_strandOf t
  rw [Strand.text, hcells] at htext
  have hrest : (strandOf t).rest = t := htext
  calc strandOf t
    _ = ⟨(strandOf t).cells, (strandOf t).rest⟩ := rfl
    _ = ⟨[], t⟩ := by rw [hcells, hrest]

/-- The strand of a repaired fragment **are the repaired cells**, and what stands behind them. -/
theorem strandOf_repaired (d : Delimiters) (t : Text) :
    strandOf (Strand.text { strandOf t with cells := repairCells d (strandOf t).cells }) =
      { strandOf t with cells := repairCells d (strandOf t).cells } := by
  have hopen : ∀ cell ∈ repairCells d (strandOf t).cells, cell.char ≠ '<' :=
    forall_repairCells (fun _ h => h) d (not_open_of_mem_strandFrom [] t)
  have htags : ∀ cell ∈ repairCells d (strandOf t).cells, ∀ tag ∈ cell.tags, IsTag tag :=
    forall_repairCells (fun _ _ => List.forall_mem_nil IsTag) d
      (isTag_of_mem_strandFrom (List.forall_mem_nil IsTag) t)
  have hrest : strandFrom [] (strandOf t).rest = ⟨[], (strandOf t).rest⟩ :=
    strandOf_of_characterData (characterData_rest t)
  rw [strandOf, Strand.text]
  dsimp only
  rw [strandFrom_flatMap_text hopen htags, hrest, List.append_nil]

/-- Repairing twice **is repairing once**. -/
theorem repairTokens_repairTokens (convention : PlaceholderConvention) (t : Text) :
    repairTokens convention (repairTokens convention t) = repairTokens convention t := by
  cases hd : convention.delimiters? with
  | none => rw [repairTokens, hd]
  | some d =>
    have hne := (Delimiters.proper_of_mem hd).opening_ne_nil
    have hagain := (repairRun_repairCells hne (strandOf t).cells).again.eq hne
    have hrepair (u : Text) : repairTokens convention u =
        Strand.text { strandOf u with cells := repairCells d (strandOf u).cells } := by
      rw [repairTokens, hd]
    rw [hrepair, hrepair t, strandOf_repaired]
    dsimp only
    rw [hagain]

/-! ### What is dropped -/

/-- Tags in a text in which brackets only delimit tags **are single tags**. -/
theorem isSingleTag_of_mem_strandFrom (ht : Bracketed t) {tags : List Text}
    (htags : ∀ tag ∈ tags, IsSingleTag tag) :
    ∀ cell ∈ (strandFrom tags t).cells, ∀ tag ∈ cell.tags, IsSingleTag tag := by
  induction ht generalizing tags with
  | nil =>
    rw [strandFrom]
    exact List.forall_mem_nil _
  | char hopen _ _ ih =>
    rw [strandFrom_cons hopen]
    exact List.forall_mem_cons.2 ⟨htags, ih (List.forall_mem_nil _)⟩
  | @tag inner t hopen hclose _ ih =>
    have htag : IsTag ('<' :: inner ++ ['>']) := ⟨inner, rfl, hclose⟩
    have htext : '<' :: inner ++ '>' :: t = ('<' :: inner ++ ['>']) ++ t := by simp
    rw [htext, strandFrom_tag htag]
    exact ih (List.forall_mem_append.2 ⟨htags, List.forall_mem_singleton.2 ⟨inner, rfl, hopen, hclose⟩⟩)

/-- The name of a tag that begins like that of an element **is the name of the element**. -/
theorem tagName_of_beginsTagOf {name : Text} (hname : name ∈ boundaryNames) (h : BeginsTagOf name t) :
    tagName t = name := by
  obtain ⟨slash, hslash, c, rest, rfl, hc⟩ := h
  have hall : ∀ a ∈ name, endsTagName a = false := by
    revert name
    decide
  have hhead : ∃ a u, name = a :: u ∧ a ≠ '<' ∧ a ≠ '/' := by
    rcases List.mem_cons.1 hname with rfl | hname
    · exact ⟨'w', [':', 'p'], rfl, by decide, by decide⟩
    · rcases List.mem_pair.1 hname with rfl | rfl
      · exact ⟨'w', [':', 't', 'c'], rfl, by decide, by decide⟩
      · exact ⟨'w', [':', 't', 'r'], rfl, by decide, by decide⟩
  have htake : (name ++ c :: rest).takeWhile (fun a => !endsTagName a) = name :=
    takeWhile_append_cons (fun a ha => by rw [hall a ha]; rfl) (by rw [hc]; rfl)
  have hmarks : (('<' :: (slash ++ name ++ c :: rest)).dropWhile (· == '<')).dropWhile (· == '/') =
      name ++ c :: rest := by
    obtain ⟨a, u, rfl, hopen, hmark⟩ := hhead
    rcases List.mem_pair.1 hslash with rfl | rfl
    · simp [hopen, hmark]
    · simp [hmark]
  rw [tagName, hmarks]
  exact htake

/-- In a single tag with another name **no boundary begins**. -/
theorem IsSingleTag.holdsNoBoundary {tag : Text} (h : IsSingleTag tag) (hname : tagName tag ∉ boundaryNames) :
    HoldsNoBoundary tag := by
  intro s hs name hmem hbegins
  obtain ⟨inner, rfl, hopen, -⟩ := h
  rcases List.suffix_cons_iff.1 hs with rfl | hinner
  · have hboundary : tagName ('<' :: inner ++ ['>']) = name := tagName_of_beginsTagOf hmem hbegins
    exact hname (by rwa [hboundary])
  · -- no bracket opens behind the first one
    obtain ⟨slash, -, c, rest, rfl, -⟩ := hbegins
    have hbracket : '<' ∈ inner ++ ['>'] := hinner.subset (List.mem_cons_self ..)
    simp [hopen] at hbracket

theorem Joined.keep {IsDropped : Text → Prop} (hopen : ∀ cell ∈ cells, cell.char ≠ '<')
    (htags : ∀ cell ∈ cells, ∀ tag ∈ cell.tags, IsTag tag) (h : Joined d IsDropped t u) :
    Joined d IsDropped (cells.flatMap Cell.text ++ t) (cells.flatMap Cell.text ++ u) := by
  induction cells with
  | nil => exact h
  | cons cell cells ih =>
    obtain ⟨hcell, hcells⟩ := List.forall_mem_cons.1 hopen
    obtain ⟨hcellTags, hcellsTags⟩ := List.forall_mem_cons.1 htags
    rw [List.flatMap_cons, List.append_assoc, List.append_assoc]
    exact .cell hcell hcellTags (ih hcells hcellsTags)

/-- A run of repair **drops tags inside tokens**, and none of a boundary. -/
theorem RepairRun.joined {IsDropped : Text → Prop} {rest : Text} (h : RepairRun d cells out)
    (hopen : ∀ cell ∈ cells, cell.char ≠ '<') (htags : ∀ cell ∈ cells, ∀ tag ∈ cell.tags, IsTag tag)
    (hdropped : ∀ cell ∈ cells, ∀ tag ∈ cell.tags, tagName tag ∉ boundaryNames → IsDropped tag)
    (hrest : characterData rest = []) :
    Joined d IsDropped (cells.flatMap Cell.text ++ rest) (out.flatMap Cell.text ++ rest) := by
  induction h with
  | nil => exact .rest hrest
  | char _ _ ih =>
    obtain ⟨hcell, hopen⟩ := List.forall_mem_cons.1 hopen
    obtain ⟨hcellTags, htags⟩ := List.forall_mem_cons.1 htags
    rw [List.flatMap_cons, List.flatMap_cons, List.append_assoc, List.append_assoc]
    exact .cell hcell hcellTags (ih hopen htags (List.forall_mem_cons.1 hdropped).2)
  | unclosed => exact (Joined.rest hrest).keep hopen htags
  | skip _ _ _ _ ih =>
    obtain ⟨hfront, hopen⟩ := List.forall_mem_append.1 hopen
    obtain ⟨hfrontTags, htags⟩ := List.forall_mem_append.1 htags
    rw [List.flatMap_append, List.flatMap_append, List.append_assoc, List.append_assoc]
    exact (ih hopen htags (List.forall_mem_append.1 hdropped).2).keep hfront hfrontTags
  | @token token cells out inner htoken _ hkeep _ ih =>
    obtain ⟨hfront, hopen⟩ := List.forall_mem_append.1 hopen
    obtain ⟨hfrontTags, htags⟩ := List.forall_mem_append.1 htags
    obtain ⟨hinside, hdropped⟩ := List.forall_mem_append.1 hdropped
    have hjoined := ih hopen htags hdropped
    rw [List.flatMap_append, List.flatMap_append, List.append_assoc, List.append_assoc]
    cases token with
    | nil => exact hjoined
    | cons first inside =>
      -- the tags in a token go together, or stay together
      cases hdroppable : areDroppable (inside.flatMap Cell.tags) with
      | false =>
        rw [repairToken_of_not_droppable hdroppable]
        exact hjoined.keep hfront hfrontTags
      | true =>
        have hnames : ∀ cell ∈ inside, ∀ tag ∈ cell.tags, IsDropped tag := by
          intro cell hcell tag htag
          rw [areDroppable, Bool.and_eq_true, List.all_eq_true] at hdroppable
          have hname := hdroppable.1 tag (List.mem_flatMap.2 ⟨cell, hcell, htag⟩)
          exact hinside cell (List.mem_cons_of_mem _ hcell) tag htag (by simpa using hname)
        rw [repairToken_eq hdroppable, flatMap_text_joined, htoken]
        exact .token htoken hkeep hfront hfrontTags hnames hjoined

/-- Token repair drops **tags inside tokens, and nothing else**. If brackets only delimit tags, none of them is
that of a paragraph, a table cell or a table row. -/
theorem joined_repairTokens {convention : PlaceholderConvention} (hd : convention.delimiters? = some d)
    (t : Text) : Joined d (fun tag => Bracketed t → HoldsNoBoundary tag) t (repairTokens convention t) := by
  have hrun := repairRun_repairCells (Delimiters.proper_of_mem hd).opening_ne_nil (strandOf t).cells
  have hopen : ∀ cell ∈ (strandOf t).cells, cell.char ≠ '<' := not_open_of_mem_strandFrom [] t
  have htags : ∀ cell ∈ (strandOf t).cells, ∀ tag ∈ cell.tags, IsTag tag :=
    isTag_of_mem_strandFrom (List.forall_mem_nil IsTag) t
  have hjoined : Joined d (fun tag => Bracketed t → HoldsNoBoundary tag)
      ((strandOf t).cells.flatMap Cell.text ++ (strandOf t).rest)
      ((repairCells d (strandOf t).cells).flatMap Cell.text ++ (strandOf t).rest) :=
    hrun.joined hopen htags (fun cell hcell tag htag hname ht =>
      (isSingleTag_of_mem_strandFrom ht (List.forall_mem_nil _) cell hcell tag htag).holdsNoBoundary hname)
      (characterData_rest t)
  have htext : (strandOf t).cells.flatMap Cell.text ++ (strandOf t).rest = t := text_strandOf t
  rw [htext] at hjoined
  rw [repairTokens, hd]
  exact hjoined

end MailMerge
