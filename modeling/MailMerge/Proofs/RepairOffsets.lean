import MailMerge.Proofs.LocatedRegion
import MailMerge.Proofs.RepairRun

/-!
# Token repair by byte offsets

Token repair can be carried out without a strand, on two texts: the fragment, and its character data. Tokens
are looked for in the character data, and a table tells where each byte of it stands in the fragment. What has
been copied so far, the place in the fragment up to which it has been, and the place in the character data from
which the search goes on are all there is to remember. Every place is looked at only if it is there: an offset
past the end, one inside a character and a piece that ends before it begins are refused, and so is the whole
run.

Along a run the two places go through the cells of the fragment: behind some of its cells the search goes on,
and what stands between the place of the last copy and these cells is still to be copied. Hence no place is
ever refused, and what is copied is the repaired fragment.

* `RepairState` is what a run remembers, `repairStep` the step, and `RepairedTo` the result of a run;
* `CutAt` says that a fragment is cut between two of its cells;
* `CutAt.repairStep_char`, `CutAt.repairStep_opening` and `CutAt.repairStep_token` — the step at a cut;
* `RepairRun.repairedTo` — a run of steps makes the repaired fragment;
* `repairTokens_loses_no_text` — what repair keeps and what it may remove.
-/

namespace MailMerge

/-! ### The specification -/

/-- **Where the character data of a fragment stands**, that begins at an offset, inside a tag or not: for each
byte of the character data the offset of that byte. -/
def dataOffsetsFrom : Bool → Nat → Text → List Nat
  | _, _, [] => []
  | true, offset, c :: t => dataOffsetsFrom (c != '>') (offset + c.utf8Size) t
  | false, offset, c :: t =>
    if c = '<' then dataOffsetsFrom true (offset + c.utf8Size) t
    else List.range' offset c.utf8Size ++ dataOffsetsFrom false (offset + c.utf8Size) t

/-- Where the character data of a fragment stands in it. -/
def dataOffsets (t : Text) : List Nat := dataOffsetsFrom false 0 t

/-- What stands **behind a byte offset** of a text, if the offset is between two characters. -/
def Text.behind? (offset : Nat) (t : Text) : Option Text := (splitAtByte? offset t).map Prod.snd

/-- The **piece of a text between two byte offsets**, if they are in order and between characters. -/
def Text.slice? (start stop : Nat) (t : Text) : Option Text :=
  (splitAtByte? stop t).bind fun cut => behind? start cut.1

/-- What a **run of repair** remembers: what it has copied, the offset in the fragment behind that, and the
offset in the character data from which the search goes on. -/
structure RepairState where
  out : Text
  cursor : Nat
  search : Nat
  deriving DecidableEq, Repr

/-- Copies a token that stands between two offsets of the character data, if the tags inside it are dropped. -/
def repairSpan (t : Text) (s : RepairState) (start stop : Nat) : Option RepairState := do
  let spanStart ← (dataOffsets t)[start]?
  let last ← (dataOffsets t)[stop - 1]?
  let span ← Text.slice? spanStart (last + 1) t
  if Text.contains "<" span && areDroppable (matchesIn anyTag span) then
    let front ← Text.slice? s.cursor spanStart t
    let token ← Text.slice? start stop (characterData t)
    return ⟨s.out ++ front ++ token, last + 1, stop⟩
  else return { s with search := stop }

/-- **The step** of a run: nothing, if a place is refused; no further state, if there is nothing left to join;
or the state behind the next token or opening delimiter. -/
def repairStep (d : Delimiters) (t : Text) (s : RepairState) : Option (Option RepairState) := do
  let tail ← Text.behind? s.search (characterData t)
  match Text.cut? d.opening tail with
  | none => return none
  | some (before, _) =>
    let start := s.search + Text.utf8Size before
    let inside := start + Text.utf8Size d.opening
    let behind ← Text.behind? inside (characterData t)
    match Text.cut? d.closing behind with
    | none => return none
    | some (upToClosing, _) =>
      let inner ← Text.slice? inside (inside + Text.utf8Size upToClosing) (characterData t)
      if d.skips inner then return some { s with search := inside }
      else
        let s' ← repairSpan t s start (inside + Text.utf8Size inner + Text.utf8Size d.closing)
        return some s'

/-- **The result of a run** from a state on: behind the last step what is left of the fragment is copied. -/
inductive RepairedTo (d : Delimiters) (t : Text) : RepairState → Text → Prop
  | stop {s : RepairState} {rest : Text} (h : repairStep d t s = some none)
      (hrest : Text.behind? s.cursor t = some rest) : RepairedTo d t s (s.out ++ rest)
  | step {s s' : RepairState} {out : Text} (h : repairStep d t s = some (some s')) :
      RepairedTo d t s' out → RepairedTo d t s out

/-- Whether a run over a fragment **ends with a text**. Without delimiters the text is the fragment. -/
def RunsTo (convention : PlaceholderConvention) (t out : Text) : Prop :=
  match convention.delimiters? with
  | none => out = t
  | some d => RepairedTo d t ⟨[], 0, 0⟩ out

variable {d : Delimiters} {t u v rest inner : Text} {s s' : RepairState} {cell : Cell}
  {cells done todo front token : List Cell}

/-- A run has **no more than one result**. -/
theorem RepairedTo.unique {out out' : Text} (h : RepairedTo d t s out) (h' : RepairedTo d t s out') :
    out = out' := by
  induction h with
  | stop h hrest =>
    cases h' with
    | stop _ hrest' =>
      obtain rfl := Option.some.inj (hrest.symm.trans hrest')
      rfl
    | step h' _ => cases h.symm.trans h'
  | step h _ ih =>
    cases h' with
    | stop h' _ => cases h.symm.trans h'
    | step h' hrun' =>
      obtain rfl := Option.some.inj (Option.some.inj (h.symm.trans h'))
      exact ih hrun'

/-! ### Places -/

theorem Text.behind?_append (u t : Text) : behind? (utf8Size u) (u ++ t) = some t := by
  rw [behind?, splitAtByte?_append]
  rfl

theorem Text.slice?_append (u v t : Text) :
    slice? (utf8Size u) (utf8Size u + utf8Size v) (u ++ v ++ t) = some v := by
  rw [slice?, ← utf8Size_append, splitAtByte?_append]
  exact behind?_append u v

theorem dataOffsetsFrom_true_append (h : '>' ∉ u) (offset : Nat) (t : Text) :
    dataOffsetsFrom true offset (u ++ t) = dataOffsetsFrom true (offset + Text.utf8Size u) t := by
  induction u generalizing offset with
  | nil => rfl
  | cons c u ih =>
    have hc : (c != '>') = true := bne_iff_ne.2 (List.ne_of_not_mem_cons h).symm
    rw [List.cons_append, dataOffsetsFrom, hc, ih (List.not_mem_of_not_mem_cons h), Text.utf8Size_cons,
      Nat.add_assoc]

/-- Tags take no place in the character data. -/
theorem dataOffsetsFrom_flatten {tags : List Text} (h : ∀ tag ∈ tags, IsTag tag) (offset : Nat) (t : Text) :
    dataOffsetsFrom false offset (tags.flatten ++ t) =
      dataOffsetsFrom false (offset + Text.utf8Size tags.flatten) t := by
  induction tags generalizing offset with
  | nil => rfl
  | cons tag tags ih =>
    obtain ⟨⟨inner, htag, hclose⟩, htags⟩ := List.forall_mem_cons.1 h
    have htext : (tag :: tags).flatten ++ t = '<' :: (inner ++ '>' :: (tags.flatten ++ t)) := by
      rw [htag, List.flatten_cons]
      simp
    have hsize : Text.utf8Size tag = '<'.utf8Size + Text.utf8Size inner + '>'.utf8Size := by
      rw [htag]
      simp [Nat.add_assoc]
    rw [htext, dataOffsetsFrom, if_pos rfl, dataOffsetsFrom_true_append hclose, dataOffsetsFrom,
      List.flatten_cons, Text.utf8Size_append, hsize]
    exact (ih htags _).trans (congrArg (dataOffsetsFrom false · t) (by omega))

/-- The bytes of a visible character stand **behind the tags before it**. -/
theorem dataOffsetsFrom_cell (hopen : cell.char ≠ '<') (htags : ∀ tag ∈ cell.tags, IsTag tag) (offset : Nat)
    (t : Text) : dataOffsetsFrom false offset (cell.text ++ t) =
      List.range' (offset + Text.utf8Size cell.tags.flatten) cell.char.utf8Size ++
        dataOffsetsFrom false (offset + Text.utf8Size cell.text) t := by
  rw [Cell.text, List.append_assoc, dataOffsetsFrom_flatten htags, List.singleton_append, dataOffsetsFrom,
    if_neg hopen, Text.utf8Size_append, ← Nat.add_assoc]
  rfl

/-- The table of some cells has **an entry for each byte** of their characters. -/
theorem exists_dataOffsetsFrom (hopen : ∀ cell ∈ cells, cell.char ≠ '<')
    (htags : ∀ cell ∈ cells, ∀ tag ∈ cell.tags, IsTag tag) (offset : Nat) :
    ∃ table, table.length = Text.utf8Size (visible cells) ∧
      ∀ t, dataOffsetsFrom false offset (cells.flatMap Cell.text ++ t) =
        table ++ dataOffsetsFrom false (offset + Text.utf8Size (cells.flatMap Cell.text)) t := by
  induction cells generalizing offset with
  | nil => exact ⟨[], rfl, fun t => rfl⟩
  | cons cell cells ih =>
    obtain ⟨hcell, hopen⟩ := List.forall_mem_cons.1 hopen
    obtain ⟨hcellTags, htags⟩ := List.forall_mem_cons.1 htags
    obtain ⟨table, hlength, htable⟩ := ih hopen htags (offset + Text.utf8Size cell.text)
    refine ⟨List.range' (offset + Text.utf8Size cell.tags.flatten) cell.char.utf8Size ++ table, ?_, fun t => ?_⟩
    · rw [List.length_append, List.length_range', hlength]
      rfl
    · rw [List.flatMap_cons, List.append_assoc, dataOffsetsFrom_cell hcell hcellTags, htable, List.append_assoc,
        Text.utf8Size_append, Nat.add_assoc]

/-! ### Cuts -/

/-- Whether a fragment **is cut between two of its cells**, or before the first or behind the last. -/
structure CutAt (t : Text) (done todo : List Cell) (rest : Text) : Prop where
  text : t = done.flatMap Cell.text ++ (todo.flatMap Cell.text ++ rest)
  opens : ∀ cell ∈ done ++ todo, cell.char ≠ '<'
  tags : ∀ cell ∈ done ++ todo, ∀ tag ∈ cell.tags, IsTag tag
  rest : characterData rest = []

namespace CutAt

/-- A cut **moves on** behind the next cells. -/
theorem move (h : CutAt t done (front ++ todo) rest) : CutAt t (done ++ front) todo rest where
  text := by rw [h.text, List.flatMap_append, List.flatMap_append, List.append_assoc, List.append_assoc]
  opens := by
    rw [List.append_assoc]
    exact h.opens
  tags := by
    rw [List.append_assoc]
    exact h.tags
  rest := h.rest

theorem characterData_eq (h : CutAt t done todo rest) : characterData t = visible done ++ visible todo := by
  have hdata := characterData_of_thinned (Cell.Thinned.refl_list (done ++ todo)) h.opens h.tags rest
  rw [h.rest, List.append_nil, visible_append, List.flatMap_append, List.append_assoc, ← h.text] at hdata
  exact hdata

/-- The place of the **first byte** of the next character. -/
theorem first_offset (h : CutAt t done (cell :: todo) rest) :
    (dataOffsets t)[Text.utf8Size (visible done)]? =
      some (Text.utf8Size (done.flatMap Cell.text ++ cell.tags.flatten)) := by
  obtain ⟨hopen, hmore⟩ := List.forall_mem_append.1 h.opens
  obtain ⟨htags, hmoreTags⟩ := List.forall_mem_append.1 h.tags
  obtain ⟨table, hlength, htable⟩ := exists_dataOffsetsFrom hopen htags 0
  obtain ⟨size, hsize⟩ : ∃ size, cell.char.utf8Size = size + 1 :=
    ⟨_, (Nat.sub_add_cancel cell.char.utf8Size_pos).symm⟩
  rw [dataOffsets, h.text, htable, List.flatMap_cons, List.append_assoc,
    dataOffsetsFrom_cell (hmore cell (List.mem_cons_self ..)) (hmoreTags cell (List.mem_cons_self ..)), ← hlength,
    List.getElem?_append_right (Nat.le_refl _), Nat.sub_self, hsize, List.range'_succ, Text.utf8Size_append,
    Nat.zero_add]
  rfl

/-- The place of the **last byte** of the next character. -/
theorem last_offset (h : CutAt t done (cell :: todo) rest) :
    (dataOffsets t)[Text.utf8Size (visible (done ++ [cell])) - 1]? =
      some (Text.utf8Size ((done ++ [cell]).flatMap Cell.text) - 1) := by
  obtain ⟨hopen, hmore⟩ := List.forall_mem_append.1 h.opens
  obtain ⟨htags, hmoreTags⟩ := List.forall_mem_append.1 h.tags
  obtain ⟨table, hlength, htable⟩ := exists_dataOffsetsFrom hopen htags 0
  have hpos := cell.char.utf8Size_pos
  have hindex : Text.utf8Size (visible (done ++ [cell])) - 1 = table.length + (cell.char.utf8Size - 1) := by
    rw [visible_append, Text.utf8Size_append, ← hlength]
    change table.length + (cell.char.utf8Size + 0) - 1 = _
    omega
  have hplace : Text.utf8Size ((done ++ [cell]).flatMap Cell.text) - 1 =
      Text.utf8Size (done.flatMap Cell.text) + Text.utf8Size cell.tags.flatten + (cell.char.utf8Size - 1) := by
    rw [List.flatMap_append, Text.utf8Size_append, List.flatMap_singleton, Cell.text, Text.utf8Size_append]
    change _ + (_ + (cell.char.utf8Size + 0)) - 1 = _
    omega
  rw [dataOffsets, h.text, htable, List.flatMap_cons, List.append_assoc,
    dataOffsetsFrom_cell (hmore cell (List.mem_cons_self ..)) (hmoreTags cell (List.mem_cons_self ..)), hindex,
    List.getElem?_append_right (Nat.le_add_right _ _), Nat.add_sub_cancel_left, hplace,
    List.getElem?_append_left (by rw [List.length_range']; omega), List.getElem?_range' (by omega), Nat.one_mul,
    Nat.zero_add]

/-- The place of the **last byte** of the next characters. -/
theorem stop_offset (h : CutAt t done (front ++ todo) rest) (hne : front ≠ []) :
    (dataOffsets t)[Text.utf8Size (visible (done ++ front)) - 1]? =
      some (Text.utf8Size ((done ++ front).flatMap Cell.text) - 1) := by
  obtain ⟨front, last, rfl⟩ := (List.eq_nil_or_concat' front).resolve_left hne
  rw [List.append_assoc] at h
  have hoffset := h.move.last_offset
  rwa [List.append_assoc] at hoffset

/-- The character data **between two places** is that of the cells between them. -/
theorem slice?_visible (h : CutAt t done (front ++ todo) rest) :
    Text.slice? (Text.utf8Size (visible done)) (Text.utf8Size (visible (done ++ front))) (characterData t) =
      some (visible front) := by
  rw [h.characterData_eq, visible_append, visible_append, Text.utf8Size_append, ← List.append_assoc]
  exact Text.slice?_append _ _ _

/-- The fragment **between the place of a character and the end of a cell** behind it. -/
theorem slice?_span {first : Cell} {inside : List Cell} (h : CutAt t done (first :: inside ++ todo) rest) :
    Text.slice? (Text.utf8Size (done.flatMap Cell.text ++ first.tags.flatten))
      (Text.utf8Size ((done ++ first :: inside).flatMap Cell.text)) t =
        some (first.char :: inside.flatMap Cell.text) := by
  have htext : t = (done.flatMap Cell.text ++ first.tags.flatten) ++ (first.char :: inside.flatMap Cell.text) ++
      (todo.flatMap Cell.text ++ rest) := by
    rw [h.text]
    simp [Cell.text]
  have hstop : (done ++ first :: inside).flatMap Cell.text =
      (done.flatMap Cell.text ++ first.tags.flatten) ++ (first.char :: inside.flatMap Cell.text) := by
    simp [Cell.text]
  rw [hstop, Text.utf8Size_append _ (first.char :: _), htext]
  exact Text.slice?_append _ _ _

/-- What is still to be copied, **up to the place of the next character**. -/
theorem slice?_pending {consumed pending : Text} (h : CutAt t done (cell :: todo) rest)
    (hpending : done.flatMap Cell.text = consumed ++ pending) :
    Text.slice? (Text.utf8Size consumed) (Text.utf8Size (done.flatMap Cell.text ++ cell.tags.flatten)) t =
      some (pending ++ cell.tags.flatten) := by
  have htext : t = consumed ++ (pending ++ cell.tags.flatten) ++
      (cell.char :: (todo.flatMap Cell.text ++ rest)) := by
    rw [h.text, hpending]
    simp [Cell.text]
  rw [hpending, List.append_assoc, Text.utf8Size_append consumed, htext]
  exact Text.slice?_append _ _ _

end CutAt

/-! ### Spans -/

theorem contains_open (t : Text) : Text.contains "<" t = decide ('<' ∈ t) := by
  by_cases hmem : '<' ∈ t
  · obtain ⟨u, v, rfl, hu⟩ := List.eq_append_cons_of_mem hmem
    have hcut : Text.cut? ['<'] (u ++ ['<'] ++ v) = some (u, v) := cut?_append hu v
    have htext : u ++ '<' :: v = u ++ ['<'] ++ v := by simp
    rw [decide_eq_true hmem, htext, Text.contains]
    exact congrArg Option.isSome hcut
  · rw [decide_eq_false hmem, Text.contains]
    exact congrArg Option.isSome (cut?_eq_none hmem)

/-- There is a bracket among cells **if they have tags**. -/
theorem open_mem_flatMap_text (hopen : ∀ cell ∈ cells, cell.char ≠ '<')
    (htags : ∀ cell ∈ cells, ∀ tag ∈ cell.tags, IsTag tag) :
    decide ('<' ∈ cells.flatMap Cell.text) = !(cells.flatMap Cell.tags).isEmpty := by
  have hiff : '<' ∈ cells.flatMap Cell.text ↔ cells.flatMap Cell.tags ≠ [] := by
    have hne (tags : List Text) : tags ≠ [] ↔ ∃ tag, tag ∈ tags :=
      ⟨List.exists_mem_of_ne_nil tags, fun ⟨_, hmem⟩ => List.ne_nil_of_mem hmem⟩
    rw [hne]
    simp only [List.mem_flatMap]
    constructor
    · rintro ⟨cell, hcell, hmem⟩
      rcases List.mem_append.1 hmem with hmem | hmem
      · obtain ⟨tag, htag, -⟩ := List.mem_flatten.1 hmem
        exact ⟨tag, cell, hcell, htag⟩
      · exact absurd (List.mem_singleton.1 hmem).symm (hopen cell hcell)
    · rintro ⟨tag, cell, hcell, htag⟩
      obtain ⟨inner, rfl, -⟩ := htags cell hcell tag htag
      exact ⟨cell, hcell, List.mem_append_left _ (List.mem_flatten.2 ⟨_, htag, List.mem_cons_self ..⟩)⟩
  rw [Bool.eq_iff_iff, decide_eq_true_eq, hiff]
  simp

/-- The tags in a span are **those before its cells**, from the second one on. -/
theorem matchesIn_span {first : Cell} {inside : List Cell} (hopen : ∀ cell ∈ first :: inside, cell.char ≠ '<')
    (htags : ∀ cell ∈ inside, ∀ tag ∈ cell.tags, IsTag tag) :
    matchesIn anyTag (first.char :: inside.flatMap Cell.text) = inside.flatMap Cell.tags ∧
      Text.contains "<" (first.char :: inside.flatMap Cell.text) = !(inside.flatMap Cell.tags).isEmpty := by
  obtain ⟨hfirst, hopen⟩ := List.forall_mem_cons.1 hopen
  have hmatches := matchesIn_flatMap_text hopen htags []
  rw [List.append_nil, matchesIn_nil, List.append_nil] at hmatches
  refine ⟨by rw [matchesIn_cons_of_zero (anyTag_opensWith _ _ hfirst), hmatches], ?_⟩
  rw [contains_open, ← open_mem_flatMap_text hopen htags]
  simp [hfirst.symm]

/-- At a token, the run **copies what is still to be copied, and the token** without the tags inside it, or it
goes on behind the token. -/
theorem CutAt.repairSpan_eq {first : Cell} {inside : List Cell} {consumed pending : Text}
    (h : CutAt t done (first :: inside ++ todo) rest) (hpending : done.flatMap Cell.text = consumed ++ pending)
    (out : Text) (search : Nat) :
    repairSpan t ⟨out, Text.utf8Size consumed, search⟩ (Text.utf8Size (visible done))
        (Text.utf8Size (visible (done ++ first :: inside))) =
      some (if !(inside.flatMap Cell.tags).isEmpty && areDroppable (inside.flatMap Cell.tags) then
        ⟨out ++ (pending ++ first.tags.flatten) ++ visible (first :: inside),
          Text.utf8Size ((done ++ first :: inside).flatMap Cell.text),
          Text.utf8Size (visible (done ++ first :: inside))⟩
      else ⟨out, Text.utf8Size consumed, Text.utf8Size (visible (done ++ first :: inside))⟩) := by
  have hstart := CutAt.first_offset h
  have hlast := h.stop_offset (List.cons_ne_nil _ _)
  have hplace : Text.utf8Size ((done ++ first :: inside).flatMap Cell.text) - 1 + 1 =
      Text.utf8Size ((done ++ first :: inside).flatMap Cell.text) := by
    have hchar := first.char.utf8Size_pos
    simp only [List.flatMap_append, List.flatMap_cons, Cell.text, Text.utf8Size_append, Text.utf8Size_cons]
    omega
  have hopen : ∀ cell ∈ first :: inside, cell.char ≠ '<' := fun cell hcell =>
    h.opens cell (List.mem_append_right _ (List.mem_append_left _ hcell))
  have htags : ∀ cell ∈ inside, ∀ tag ∈ cell.tags, IsTag tag := fun cell hcell =>
    h.tags cell (List.mem_append_right _ (List.mem_append_left _ (List.mem_cons_of_mem _ hcell)))
  obtain ⟨hmatches, hcontains⟩ := matchesIn_span hopen htags
  unfold repairSpan
  simp only [hstart, hlast, hplace, h.slice?_span, hcontains, hmatches, CutAt.slice?_pending h hpending,
    h.slice?_visible, Option.bind_eq_bind, Option.bind_some]
  split
  case isTrue => rfl
  case isFalse => rfl

/-! ### Steps -/

theorem Text.cut?_self {needle : Text} (h : needle ≠ []) (t : Text) : cut? needle (needle ++ t) = some ([], t) := by
  obtain ⟨c, needle, rfl⟩ := List.exists_cons_of_ne_nil h
  exact cut?_append List.not_mem_nil t

theorem Text.cut?_cons_of_not_prefix {needle : Text} {c : Char} (h : ¬ needle <+: c :: t) :
    cut? needle (c :: t) = (cut? needle t).map fun p => (c :: p.1, p.2) := by
  rw [cut?]
  cases hprefix : dropPrefix? needle (c :: t) with
  | none => rfl
  | some rest => exact absurd ⟨rest, (dropPrefix?_eq_some_iff.1 hprefix).symm⟩ h

namespace CutAt

theorem behind?_eq (h : CutAt t done todo rest) :
    Text.behind? (Text.utf8Size (visible done)) (characterData t) = some (visible todo) := by
  rw [h.characterData_eq]
  exact Text.behind?_append _ _

/-- Where no token begins any more, the run **ends**. -/
theorem repairStep_of_none (h : CutAt t done todo rest) (hsearch : s.search = Text.utf8Size (visible done))
    (hnone : Text.cut? d.opening (visible todo) = none) : repairStep d t s = some none := by
  unfold repairStep
  rw [hsearch, h.behind?_eq, Option.bind_eq_bind, Option.bind_some, hnone]
  rfl

/-- A character at which no token begins **may be passed over**. -/
theorem repairStep_char (h : CutAt t done (cell :: todo) rest) (hnot : ¬ d.opening <+: visible (cell :: todo))
    (out : Text) (cursor : Nat) :
    repairStep d t ⟨out, cursor, Text.utf8Size (visible done)⟩ =
      repairStep d t ⟨out, cursor, Text.utf8Size (visible (done ++ [cell]))⟩ := by
  have hmove : CutAt t (done ++ [cell]) todo rest := CutAt.move h
  have hcut : Text.cut? d.opening (visible (cell :: todo)) =
      (Text.cut? d.opening (visible todo)).map fun p => (cell.char :: p.1, p.2) :=
    Text.cut?_cons_of_not_prefix hnot
  -- the search finds the same place from both sides of the character
  have hstart (before : Text) : Text.utf8Size (visible (done ++ [cell])) + Text.utf8Size before =
      Text.utf8Size (visible done) + Text.utf8Size (cell.char :: before) := by
    rw [visible_append, Text.utf8Size_append, Text.utf8Size_cons, Nat.add_assoc]
    rfl
  unfold repairStep
  simp only [h.behind?_eq, hmove.behind?_eq, Option.bind_eq_bind, Option.bind_some, hcut]
  cases Text.cut? d.opening (visible todo) with
  | none => rfl
  | some p =>
    simp only [Option.map_some, hstart]
    rfl

/-- The step at an **opening delimiter**. -/
theorem repairStep_opening (h : CutAt t done (front ++ todo) rest) (hne : d.opening ≠ [])
    (hopening : visible front = d.opening) (hsearch : s.search = Text.utf8Size (visible done)) :
    repairStep d t s =
      match Text.cut? d.closing (visible todo) with
      | none => some none
      | some (inner, _) =>
        if d.skips inner then some (some { s with search := Text.utf8Size (visible (done ++ front)) })
        else (repairSpan t s (Text.utf8Size (visible done))
          (Text.utf8Size (visible (done ++ front)) + Text.utf8Size inner + Text.utf8Size d.closing)).map some := by
  have hinside : Text.utf8Size (visible done) + Text.utf8Size ([] : Text) + Text.utf8Size d.opening =
      Text.utf8Size (visible (done ++ front)) := by
    rw [visible_append, Text.utf8Size_append, hopening]
    rfl
  have hvisible : visible (front ++ todo) = d.opening ++ visible todo := by rw [visible_append, hopening]
  -- the opening delimiter is found where the search goes on, at once
  unfold repairStep
  simp only [hsearch, h.behind?_eq, h.move.behind?_eq, Option.bind_eq_bind, Option.bind_some, hvisible,
    Text.cut?_self hne, hinside]
  cases hcut : Text.cut? d.closing (visible todo) with
  | none => rfl
  | some p =>
    obtain ⟨inner, behind⟩ := p
    have hslice : Text.slice? (Text.utf8Size (visible (done ++ front)))
        (Text.utf8Size (visible (done ++ front)) + Text.utf8Size inner) (characterData t) = some inner := by
      have htodo : visible todo = inner ++ (d.closing ++ behind) := by
        rw [Text.eq_of_cut? hcut, List.append_assoc]
      rw [h.move.characterData_eq, htodo, ← List.append_assoc]
      exact Text.slice?_append _ _ _
    simp only [hslice, Option.bind_some]
    cases d.skips inner with
    | true => rfl
    | false =>
      have hmap (x : Option RepairState) : (x.bind fun s' => some (some s')) = x.map some := by
        cases x with
        | none => rfl
        | some s' => rfl
      exact hmap _

/-- The step at a **token**. -/
theorem repairStep_token {first : Cell} {inside : List Cell} {consumed pending : Text}
    (h : CutAt t done (first :: inside ++ todo) rest) (hne : d.opening ≠ [])
    (htoken : visible (first :: inside) = d.tokenText inner)
    (hcut : Text.cut? d.closing (inner ++ d.closing ++ visible todo) = some (inner, visible todo))
    (hkeep : d.skips inner = false) (hpending : done.flatMap Cell.text = consumed ++ pending) (out : Text) :
    repairStep d t ⟨out, Text.utf8Size consumed, Text.utf8Size (visible done)⟩ =
      some (some (if !(inside.flatMap Cell.tags).isEmpty && areDroppable (inside.flatMap Cell.tags) then
        ⟨out ++ (pending ++ first.tags.flatten) ++ visible (first :: inside),
          Text.utf8Size ((done ++ first :: inside).flatMap Cell.text),
          Text.utf8Size (visible (done ++ first :: inside))⟩
      else ⟨out, Text.utf8Size consumed, Text.utf8Size (visible (done ++ first :: inside))⟩)) := by
  -- the token begins with the opening delimiter, and its name goes up to the closing one
  obtain ⟨front, name, hfront, hopening, hname⟩ := exists_of_visible_eq_append
    (htoken.trans (List.append_assoc ..))
  have hspan := h.repairSpan_eq hpending out (Text.utf8Size (visible done))
  rw [hfront, List.append_assoc] at h
  have hcut' : Text.cut? d.closing (visible (name ++ todo)) = some (inner, visible todo) := by
    rw [visible_append, hname, hcut]
  have hsize : Text.utf8Size (visible (done ++ front)) + Text.utf8Size inner + Text.utf8Size d.closing =
      Text.utf8Size (visible (done ++ first :: inside)) := by
    rw [hfront, ← List.append_assoc, visible_append (done ++ front), hname, Text.utf8Size_append _ (inner ++ _),
      Text.utf8Size_append inner, Nat.add_assoc]
  have hskip : ¬ d.skips inner = true := by rw [hkeep]; exact Bool.false_ne_true
  rw [h.repairStep_opening hne hopening rfl, hcut']
  dsimp only
  rw [if_neg hskip, hsize, hspan]
  rfl

end CutAt

/-! ### Runs -/

/-- What follows a step **follows another that goes to the same state**. -/
theorem RepairedTo.of_step_eq {out result : Text} {cursor search search' : Nat}
    (hstep : repairStep d t ⟨out, cursor, search⟩ = repairStep d t ⟨out, cursor, search'⟩)
    (h : RepairedTo d t ⟨out, cursor, search'⟩ result) : RepairedTo d t ⟨out, cursor, search⟩ result := by
  generalize hs : (⟨out, cursor, search'⟩ : RepairState) = s' at h
  cases h with
  | stop h hrest =>
    cases hs
    exact .stop (hstep.trans h) hrest
  | step h hrun =>
    cases hs
    exact .step (hstep.trans h) hrun

/-- What is still to be copied stands **behind the last copy**. -/
theorem CutAt.behind?_consumed (h : CutAt t done todo rest) {consumed pending : Text}
    (hpending : done.flatMap Cell.text = consumed ++ pending) :
    Text.behind? (Text.utf8Size consumed) t = some (pending ++ (todo.flatMap Cell.text ++ rest)) := by
  rw [h.text, hpending, List.append_assoc]
  exact Text.behind?_append _ _

/-- Cells that are passed over are **still to be copied**. -/
theorem pending_append {consumed pending : Text} (hpending : done.flatMap Cell.text = consumed ++ pending)
    (front : List Cell) :
    (done ++ front).flatMap Cell.text = consumed ++ (pending ++ front.flatMap Cell.text) := by
  rw [List.flatMap_append, hpending, List.append_assoc]

theorem text_pending_append (pending rest : Text) (front cells : List Cell) :
    pending ++ front.flatMap Cell.text ++ (cells.flatMap Cell.text ++ rest) =
      pending ++ ((front ++ cells).flatMap Cell.text ++ rest) := by
  rw [List.flatMap_append, List.append_assoc, List.append_assoc]

/-- **A run makes the repaired fragment.** Behind some of the cells of a fragment, what stands between the last
copy and these cells is still to be copied, and the other cells are still to be repaired. -/
theorem RepairRun.repairedTo {repaired : List Cell} (hne : d.opening ≠ []) (hrun : RepairRun d todo repaired)
    (h : CutAt t done todo rest) {consumed pending : Text}
    (hpending : done.flatMap Cell.text = consumed ++ pending) (out : Text) :
    RepairedTo d t ⟨out, Text.utf8Size consumed, Text.utf8Size (visible done)⟩
      (out ++ (pending ++ (repaired.flatMap Cell.text ++ rest))) := by
  -- the cut moves on with the run; only a token that loses tags is copied at once, and all else waits
  induction hrun generalizing done consumed pending out with
  | nil =>
    have hnone : Text.cut? d.opening (visible []) = none := by
      obtain ⟨c, opening, hopening⟩ := List.exists_cons_of_ne_nil hne
      rw [hopening]
      rfl
    exact .stop (h.repairStep_of_none rfl hnone) (h.behind?_consumed hpending)
  | @char cell cells repaired hnot _ ih =>
    have hmove : CutAt t (done ++ [cell]) cells rest := CutAt.move h
    have hrest := ih hmove (pending_append hpending [cell]) out
    rw [text_pending_append] at hrest
    -- a character is no step: the search for the next token goes over it
    exact hrest.of_step_eq (h.repairStep_char hnot out _)
  | @unclosed front cells hopening hnone =>
    have hstep := h.repairStep_opening (s := ⟨out, Text.utf8Size consumed, _⟩) hne hopening rfl
    rw [hnone] at hstep
    exact .stop hstep (h.behind?_consumed hpending)
  | @skip front cells repaired inner behind hopening hcut hskip _ ih =>
    have hstep := h.repairStep_opening (s := ⟨out, Text.utf8Size consumed, _⟩) hne hopening rfl
    rw [hcut] at hstep
    dsimp only at hstep
    rw [if_pos hskip] at hstep
    have hrest := ih h.move (pending_append hpending front) out
    rw [text_pending_append] at hrest
    exact .step hstep hrest
  | @token token cells repaired inner htoken hcut hkeep _ ih =>
    cases token with
    | nil => exact absurd (List.append_eq_nil_iff.1 (List.append_eq_nil_iff.1 htoken.symm).1).1 hne
    | cons first inside =>
      have hstep := h.repairStep_token hne htoken hcut hkeep hpending out
      have hrepaired : repairToken (first :: inside) =
          if !(inside.flatMap Cell.tags).isEmpty && areDroppable (inside.flatMap Cell.tags) then
            first :: inside.map Cell.untagged
          else first :: inside := rfl
      rw [hrepaired]
      split at hstep
      case isTrue hdrop =>
        -- all that stands up to the end of the token has been copied
        have hrest := ih h.move (List.append_nil _).symm
          (out ++ (pending ++ first.tags.flatten) ++ visible (first :: inside))
        rw [if_pos hdrop, List.flatMap_append, flatMap_text_joined]
        simp only [List.nil_append, List.append_assoc] at hstep hrest ⊢
        exact .step hstep hrest
      case isFalse hkept =>
        have hrest := ih h.move (pending_append hpending (first :: inside)) out
        rw [text_pending_append] at hrest
        rw [if_neg hkept]
        exact .step hstep hrest

/-! ### Fragments -/

/-- A run over a fragment ends with **the repaired fragment**, and with nothing else. -/
theorem runsTo_iff {convention : PlaceholderConvention} {out : Text} :
    RunsTo convention t out ↔ out = repairTokens convention t := by
  rw [RunsTo, repairTokens]
  cases hd : convention.delimiters? with
  | none => exact Iff.rfl
  | some d =>
    have hne := (Delimiters.proper_of_mem hd).opening_ne_nil
    have hcut : CutAt t [] (strandOf t).cells (strandOf t).rest :=
      { text := (text_strandOf t).symm
        opens := not_open_of_mem_strandFrom [] t
        tags := isTag_of_mem_strandFrom (List.forall_mem_nil IsTag) t
        rest := characterData_rest t }
    have hrun := (repairRun_repairCells hne (strandOf t).cells).repairedTo hne hcut (List.append_nil []).symm []
    constructor
    · intro h
      exact h.unique hrun
    · rintro rfl
      exact hrun

/-- **Token repair loses no text**, whatever the fragment. By byte offsets it is carried out without an access
out of range, and it comes to an end, always with the same text. The character data is that of the fragment.
What has been removed are tags inside tokens, each of them whole, and none of a paragraph, a table cell or a
table row if brackets only delimit tags. Repairing twice is repairing once. -/
theorem repairTokens_loses_no_text (convention : PlaceholderConvention) (t : Text) :
    (∀ out, RunsTo convention t out ↔ out = repairTokens convention t) ∧
      characterData (repairTokens convention t) = characterData t ∧
      (∀ d, convention.delimiters? = some d →
        Joined d (fun tag => Bracketed t → HoldsNoBoundary tag) t (repairTokens convention t)) ∧
      repairTokens convention (repairTokens convention t) = repairTokens convention t :=
  ⟨fun _ => runsTo_iff, characterData_repairTokens convention t, fun _ hd => joined_repairTokens hd t,
    repairTokens_repairTokens convention t⟩

/-- Between stray delimiters a token is joined, though a bracket stands outside tags and the last tag never
ends. -/
theorem repairTokens_between_stray_delimiters :
    RunsTo .braces "> \x7b\x7b <w:t>\x7b\x7bVor</w:t></w:r><w:r><w:t>name\x7d\x7d</w:t>\x7d\x7d\x7b\x7b<w:p>x<w:b"
      "> \x7b\x7b <w:t>\x7b\x7bVorname\x7d\x7d</w:t>\x7d\x7d\x7b\x7b<w:p>x<w:b" :=
  ((repairTokens_loses_no_text .braces _).1 _).2 (by decide +kernel)

end MailMerge
