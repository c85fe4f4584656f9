import MailMerge.Proofs.CharacterData

/-!
# Templates with split tokens

Word processors split the text of a run into several runs at any place, also inside tokens and inside
their delimiters. A token that is split so can be joined again, and where each token stands in one run
all of them are replaced.

* `IsSplitToken` is a token split into runs, and `SplitTemplate` a template with such tokens;
* `SplitTemplate.repairTokens_cut` — its tokens are joined;
* `rewriteMatches_wholeText` — in a template with whole tokens, all tokens are replaced;
* `count_characterData_replace_lt` — with them, their delimiters go.
-/

namespace MailMerge

/-! ### Split templates -/

/-- The tags that end a run of text and open another one. -/
def runEnd : List Text := ["</w:t>", "</w:r>", "<w:r>"]

/-- The tag that begins a text. -/
def textStart : Text := "<w:t>"

/-- The tags **between two runs** of text, the second of them with properties. -/
def runBreak (properties : List Text) : List Text := runEnd ++ properties ++ [textStart]

/-- Whether tags may be the **properties of a run**: none at all or those of a `w:rPr` element, or any
others that are balanced, none of them of a paragraph, a table cell or a table row. -/
def IsRunProperties (properties : List Text) : Prop :=
  (∀ tag ∈ properties, IsTag tag) ∧ areDroppable properties = true

/-- The cells of a token that is **split into runs** between any of its visible characters. -/
structure IsSplitToken (d : Delimiters) (cells : List Cell) : Prop where
  exists_inner : ∃ inner, visible cells = d.tokenText inner ∧ inner ≠ [] ∧
    (∀ c ∈ inner, c ∉ d.excluded) ∧ Text.utf8Size inner ≤ maxInnerSize
  head_tags : ∀ cell ∈ cells.head?, cell.tags = []
  splits : ∀ cell ∈ cells, cell.tags = [] ∨
    ∃ properties, IsRunProperties properties ∧ cell.tags = runBreak properties

/-- Whether a part may stand in a template whose tokens are split: a tag, a character that is no
delimiter character, or a token. -/
def TemplatePart.IsSplit (convention : PlaceholderConvention) (d : Delimiters) : TemplatePart → Prop
  | tag t => IsTag t
  | spelling t => IsSpelling t ∧ t ∉ convention.delimiterSpellings
  | token cells => IsSplitToken d cells

/-- The parts of a **template whose tokens are split**. All its tokens are of one convention. -/
structure SplitTemplate (convention : PlaceholderConvention) (d : Delimiters)
    (parts : List TemplatePart) : Prop where
  delimiters_eq : convention.delimiters? = some d
  isSplit : ∀ part ∈ parts, part.IsSplit convention d
  throughout : convention = .angles →
    Text.contains "\x7b\x7b" (characterData (wholeText parts)) = false

/-! ### Split tokens can be joined -/

variable {convention other : PlaceholderConvention} {d d' : Delimiters} {parts : List TemplatePart}
  {cells : List Cell} {inner : Text}

theorem depthChange_append (tags more : List Text) :
    depthChange (tags ++ more) = depthChange tags + depthChange more := by
  induction tags with
  | nil => rw [List.nil_append, depthChange, Int.zero_add]
  | cons tag tags ih => rw [List.cons_append, depthChange, depthChange, ih, Int.add_assoc]

theorem areDroppable_append {tags more : List Text} (h : areDroppable tags = true)
    (h' : areDroppable more = true) : areDroppable (tags ++ more) = true := by
  rw [areDroppable, Bool.and_eq_true, beq_iff_eq] at h h' ⊢
  rw [List.all_append, depthChange_append, h.1, h.2, h'.1, h'.2]
  exact ⟨rfl, rfl⟩

/-- Tags that may be dropped cell by cell **may be dropped together**. -/
theorem areDroppable_flatMap (h : ∀ cell ∈ cells, areDroppable cell.tags = true) :
    areDroppable (cells.flatMap Cell.tags) = true := by
  induction cells with
  | nil => rfl
  | cons cell cells ih =>
    obtain ⟨hcell, hcells⟩ := List.forall_mem_cons.1 h
    rw [List.flatMap_cons]
    exact areDroppable_append hcell (ih hcells)

/-- The tags between two runs **may be dropped**. -/
theorem areDroppable_runBreak {properties : List Text} (h : areDroppable properties = true) :
    areDroppable (runBreak properties) = true := by
  rw [areDroppable, Bool.and_eq_true, beq_iff_eq] at h ⊢
  rw [runBreak, List.all_append, List.all_append, depthChange_append, depthChange_append, h.1, h.2]
  exact ⟨by decide, by decide⟩

theorem isTag_runBreak {properties : List Text} (h : ∀ tag ∈ properties, IsTag tag) :
    ∀ tag ∈ runBreak properties, IsTag tag := by
  intro tag htag
  rw [runBreak, List.append_assoc, List.mem_append, List.mem_append] at htag
  rcases htag with htag | htag | htag
  · simp only [runEnd, List.mem_cons, List.not_mem_nil, or_false] at htag
    rcases htag with rfl | rfl | rfl
    · exact ⟨"/w:t", rfl, by decide⟩
    · exact ⟨"/w:r", rfl, by decide⟩
    · exact ⟨"w:r", rfl, by decide⟩
  · exact h tag htag
  · rw [List.mem_singleton.1 htag]
    exact ⟨"w:t", rfl, by decide⟩

/-- Both delimiters begin with a character that no name holds. -/
theorem exists_opening_head (hd : convention.delimiters? = some d) :
    ∃ c t, d.opening = c :: t ∧ c ∈ d.excluded := by
  cases convention with
  | braces => cases hd; exact ⟨_, _, rfl, by decide⟩
  | angles => cases hd; exact ⟨_, _, rfl, by decide⟩
  | bare => cases hd

/-- A split token **can be joined**. -/
theorem IsSplitToken.joinable (hd : convention.delimiters? = some d) (h : IsSplitToken d cells) :
    ∃ inner, Joinable d cells inner := by
  obtain ⟨inner, hvisible, -, hinner, hsize⟩ := h.exists_inner
  obtain ⟨a, opening, hopening, ha⟩ := exists_opening_head hd
  obtain ⟨b, closing, hclosing, hb⟩ := (Delimiters.proper_of_mem hd).closing_head
  refine ⟨inner, ?_⟩
  constructor
  case visible_eq => exact hvisible
  case opening_outside =>
    rw [Text.contains, hopening, cut?_eq_none fun hmem => hinner a hmem ha]
    rfl
  case closing_behind =>
    intro rest
    rw [hclosing]
    exact cut?_append (fun hmem => hinner b hmem hb) rest
  case size_le => exact hsize
  case not_open =>
    intro cell hcell hchar
    have hmem : cell.char ∈ visible cells := List.mem_map_of_mem hcell
    rw [hvisible, hchar] at hmem
    exact (Delimiters.free_open hd).not_mem_tokenText hinner hmem
  case isTag =>
    intro cell hcell
    rcases h.splits cell hcell with htags | ⟨properties, hproperties, htags⟩
    · rw [htags]
      exact List.forall_mem_nil IsTag
    · rw [htags]
      exact isTag_runBreak hproperties.1
  case head_tags => exact h.head_tags
  case droppable =>
    refine areDroppable_flatMap fun cell hcell => ?_
    rcases h.splits cell hcell with htags | ⟨properties, hproperties, htags⟩
    · rw [htags]
      rfl
    · rw [htags]
      exact areDroppable_runBreak hproperties.2

namespace TemplatePart

theorem cut_uncut (part : TemplatePart) : part.uncut.cut = part.whole := by
  cases part with
  | tag t => rfl
  | spelling t => rfl
  | token cells => exact flatMap_text_untagged cells

theorem whole_uncut (part : TemplatePart) : part.uncut.whole = part.whole := by
  cases part with
  | tag t => rfl
  | spelling t => rfl
  | token cells => exact visible_map_untagged cells

/-- A part that may be split **may be whole**. -/
theorem IsSplit.uncut {part : TemplatePart} (h : part.IsSplit convention d) :
    part.uncut.IsSplit convention d := by
  cases part with
  | tag t => exact h
  | spelling t => exact h
  | token cells =>
    have hnil : ∀ cell ∈ cells.map Cell.untagged, cell.tags = [] := by
      intro cell hcell
      obtain ⟨cell, -, rfl⟩ := List.mem_map.1 hcell
      rfl
    refine ⟨?_, fun cell hcell => hnil cell (List.mem_of_mem_head? hcell), fun cell hcell =>
      .inl (hnil cell hcell)⟩
    rw [visible_map_untagged]
    exact h.exists_inner

end TemplatePart

namespace SplitTemplate

theorem isJoinable (h : SplitTemplate convention d parts) :
    ∀ part ∈ parts, part.IsJoinable convention d := by
  intro part hpart
  have hsplit := h.isSplit part hpart
  cases part with
  | tag t => exact hsplit
  | spelling t => exact hsplit
  | token cells => exact hsplit.joinable h.delimiters_eq

/-- The template whose tokens are whole is split in no place. -/
theorem uncut (h : SplitTemplate convention d parts) :
    SplitTemplate convention d (parts.map TemplatePart.uncut) ∧
      cutText (parts.map TemplatePart.uncut) = wholeText parts ∧
      wholeText (parts.map TemplatePart.uncut) = wholeText parts := by
  have hwholeText : wholeText (parts.map TemplatePart.uncut) = wholeText parts := by
    rw [wholeText, List.flatMap_map, wholeText]
    simp only [TemplatePart.whole_uncut]
  refine ⟨⟨h.delimiters_eq, ?_, ?_⟩, ?_, hwholeText⟩
  · intro part hpart
    obtain ⟨part, hmem, rfl⟩ := List.mem_map.1 hpart
    exact (h.isSplit part hmem).uncut
  · rw [hwholeText]
    exact h.throughout
  · rw [cutText, List.flatMap_map, wholeText]
    simp only [TemplatePart.cut_uncut]

theorem repairTokens_cut (h : SplitTemplate convention d parts) :
    repairTokens convention (cutText parts) = wholeText parts :=
  repairTokens_cutText h.delimiters_eq h.isJoinable

theorem repairTokens_whole (h : SplitTemplate convention d parts) :
    repairTokens convention (wholeText parts) = wholeText parts := by
  obtain ⟨huncut, hcut, hwhole⟩ := h.uncut
  have hrepair := huncut.repairTokens_cut
  rwa [hcut, hwhole] at hrepair

/-- Splitting tokens **keeps the character data**. -/
theorem characterData_cutText (h : SplitTemplate convention d parts) :
    characterData (cutText parts) = characterData (wholeText parts) := by
  rw [← h.repairTokens_cut, characterData_repairTokens]

end SplitTemplate

/-! ### Replacing whole tokens -/

/-- What becomes of a part of a template with whole tokens. -/
def TemplatePart.replace (d : Delimiters) (f : Text → Text) : TemplatePart → Text
  | tag t => rewriteMatches d.token f t
  | spelling t => t
  | token cells => f (visible cells)

theorem rewriteMatches_append_of_clears {u : Text} {f : Text → Text} (h : d.Clears u) (t : Text) :
    rewriteMatches d.token f (u ++ t) = u ++ rewriteMatches d.token f t := by
  refine rewriteMatches_append_of_passed fun v hne hv => ?_
  have hnone : Text.dropPrefix? d.opening (v ++ t) = none := by
    rw [Option.eq_none_iff_forall_ne_some]
    intro rest hrest
    exact h v hne hv t rest (Text.dropPrefix?_eq_some_iff.1 hrest)
  rw [Delimiters.token, hnone]

/-- In a template with whole tokens **all tokens are replaced**, and nothing else in its character
data. -/
theorem rewriteMatches_wholeText (h : SplitTemplate convention d parts) (f : Text → Text) :
    rewriteMatches d.token f (wholeText parts) = parts.flatMap (TemplatePart.replace d f) := by
  have hproper := Delimiters.proper_of_mem h.delimiters_eq
  have hsplit := h.isSplit
  have hd := h.delimiters_eq
  clear h
  induction parts with
  | nil => exact rewriteMatches_nil _ _
  | cons part parts ih =>
    obtain ⟨hpart, hparts⟩ := List.forall_mem_cons.1 hsplit
    rw [wholeText, List.flatMap_cons, List.flatMap_cons, ← wholeText, ← ih hparts]
    cases part with
    | tag t =>
      obtain ⟨inner, rfl, -⟩ := hpart
      -- no token reaches over the end of the tag
      have hstops := Delimiters.token_stopsAt hproper (Delimiters.free_close hd)
      have htag : rewriteMatches d.token f ('<' :: inner ++ ['>']) =
          rewriteMatches d.token f ('<' :: inner) ++ ['>'] := by
        rw [rewriteMatches_append_of_stopsAt hstops, rewriteMatches_nil]
      rw [TemplatePart.whole, TemplatePart.replace, htag, List.append_assoc, List.append_assoc,
        List.singleton_append, List.singleton_append, rewriteMatches_append_of_stopsAt hstops]
    | spelling t => exact rewriteMatches_append_of_clears (clears_of_spelling hd hpart.1 hpart.2) _
    | token cells =>
      obtain ⟨inner, hvisible, hne, hinner, -⟩ := hpart.exists_inner
      rw [TemplatePart.whole, TemplatePart.replace, hvisible]
      exact rewriteMatches_append_of_match (Delimiters.tokenText_ne_nil hproper inner)
        (Delimiters.token_append hproper hne hinner _)

/-- A tag without its tokens **is a tag**. -/
theorem isTag_rewriteMatches (hd : convention.delimiters? = some d) {tag : Text} (h : IsTag tag) :
    IsTag (rewriteMatches d.token (fun _ => []) tag) := by
  have hproper := Delimiters.proper_of_mem hd
  obtain ⟨inner, rfl, hclose⟩ := h
  refine ⟨rewriteMatches d.token (fun _ => []) inner, ?_, fun hmem =>
    hclose (mem_of_mem_rewriteMatches hmem)⟩
  have htext : '<' :: inner ++ ['>'] = [] ++ '<' :: (inner ++ '>' :: []) := rfl
  rw [htext, rewriteMatches_append_of_stopsAt (Delimiters.token_stopsAt hproper (Delimiters.free_open hd)),
    rewriteMatches_append_of_stopsAt (Delimiters.token_stopsAt hproper (Delimiters.free_close hd)),
    rewriteMatches_nil]
  rfl

/-- With the tokens **their delimiters go**. -/
theorem count_characterData_replace_lt (h : SplitTemplate convention d parts) {a : Char}
    (ha : a ∈ d.opening) {cells : List Cell} (hmem : .token cells ∈ parts) :
    (characterData (parts.flatMap (TemplatePart.replace d fun _ => []))).count a <
      (characterData (wholeText parts)).count a := by
  have hd := h.delimiters_eq
  have hsplit := h.isSplit
  -- without a token among the parts, nothing is gained
  suffices hcount : (characterData (parts.flatMap (TemplatePart.replace d fun _ => []))).count a +
      parts.countP (fun part => part matches .token _) ≤
      (characterData (wholeText parts)).count a by
    have hpos : 0 < parts.countP (fun part => part matches .token _) :=
      List.countP_pos_iff.2 ⟨_, hmem, rfl⟩
    omega
  clear h hmem
  induction parts with
  | nil => exact Nat.le_refl _
  | cons part parts ih =>
    obtain ⟨hpart, hparts⟩ := List.forall_mem_cons.1 hsplit
    have hrest := ih hparts
    rw [wholeText] at hrest
    rw [wholeText, List.flatMap_cons, List.flatMap_cons]
    cases part with
    | tag t =>
      rw [List.countP_cons_of_neg (by simp), TemplatePart.replace, TemplatePart.whole,
        characterData_tag hpart, characterData_tag (isTag_rewriteMatches hd hpart)]
      exact hrest
    | spelling t =>
      rw [List.countP_cons_of_neg (by simp), TemplatePart.replace, TemplatePart.whole,
        characterData_append hpart.1.not_open, characterData_append hpart.1.not_open,
        List.count_append, List.count_append]
      omega
    | token cells =>
      obtain ⟨inner, hvisible, -, hinner, -⟩ := hpart.exists_inner
      have hopen : '<' ∉ visible cells := by
        rw [hvisible]
        exact (Delimiters.free_open hd).not_mem_tokenText hinner
      have hpos : 0 < (visible cells).count a := by
        rw [List.count_pos_iff, hvisible, Delimiters.tokenText, List.append_assoc]
        exact List.mem_append_left _ ha
      rw [List.countP_cons_of_pos rfl, TemplatePart.replace, TemplatePart.whole, List.nil_append,
        characterData_append hopen, List.count_append]
      omega

end MailMerge
