import MailMerge.Proofs.References
import MailMerge.Proofs.TokenMatch
import MailMerge.Proofs.TokenRepair

/-!
# Cut tokens are joined

A template is a list of parts: tags, spelled characters, and tokens. Between two visible characters of
a token there may be tags. If these may be dropped all together, and no delimiter character stands
outside tokens, then token repair makes of each token what it was before it was cut, whatever its
cuts and their number, and leaves the rest of the template alone.

* `TemplatePart.cut` and `TemplatePart.whole` are the text of a part with and without the tags inside
  tokens;
* `IsSpelling` and `PlaceholderConvention.delimiterSpellings` say what stands outside tokens;
* `Joinable` says of a token that it can be joined;
* `repairCells_of_joinable` — the step: a token at the head of a strand is joined;
* `repairTokens_cutText` — the run: the tokens of a template are joined.
-/

namespace MailMerge

/-! ### Templates by parts -/

/-- A **part of a template**: a tag, a character as markup spells it, or a token, whose visible
characters may have tags before them. -/
inductive TemplatePart where
  | tag (text : Text)
  | spelling (text : Text)
  | token (cells : List Cell)

namespace TemplatePart

/-- The text of a part, **tokens cut**. -/
def cut : TemplatePart → Text
  | tag t => t
  | spelling t => t
  | token cells => cells.flatMap Cell.text

/-- The text of a part, **tokens in one piece**. -/
def whole : TemplatePart → Text
  | tag t => t
  | spelling t => t
  | token cells => visible cells

end TemplatePart

/-- A cell without the tags before it. -/
def Cell.untagged (c : Cell) : Cell := { c with tags := [] }

/-- A part whose token is not cut. -/
def TemplatePart.uncut : TemplatePart → TemplatePart
  | tag t => tag t
  | spelling t => spelling t
  | token cells => token (cells.map Cell.untagged)

/-- A **spelled character** of character data: itself, or a reference. -/
inductive IsSpelling : Text → Prop
  | char {c : Char} (hopen : c ≠ '<') (hamp : c ≠ '&') : IsSpelling [c]
  | reference {inside : Text} (h : ∀ c ∈ inside, isReferenceChar c = true) :
      IsSpelling ('&' :: inside ++ [';'])

/-- How markup spells the **delimiter characters** of a convention. -/
def PlaceholderConvention.delimiterSpellings : PlaceholderConvention → List Text
  | .braces => ["\x7b", "\x7d"]
  | .angles => ["&lt;", "&gt;"]
  | .bare => []

/-- The cells of a token that **can be joined**: between the delimiters there is no other opening
delimiter and no earlier closing one, and the inside is not too long; all tags stand behind the first
character, and they may be dropped. -/
structure Joinable (d : Delimiters) (cells : List Cell) (inner : Text) : Prop where
  visible_eq : visible cells = d.tokenText inner
  opening_outside : Text.contains d.opening inner = false
  closing_behind : ∀ rest, Text.cut? d.closing (inner ++ d.closing ++ rest) = some (inner, rest)
  size_le : Text.utf8Size inner ≤ maxInnerSize
  not_open : ∀ cell ∈ cells, cell.char ≠ '<'
  isTag : ∀ cell ∈ cells, ∀ tag ∈ cell.tags, IsTag tag
  head_tags : ∀ cell ∈ cells.head?, cell.tags = []
  droppable : areDroppable (cells.flatMap Cell.tags) = true

/-- Whether a part may stand in a template whose tokens **can be joined**. -/
def TemplatePart.IsJoinable (convention : PlaceholderConvention) (d : Delimiters) :
    TemplatePart → Prop
  | tag t => IsTag t
  | spelling t => IsSpelling t ∧ t ∉ convention.delimiterSpellings
  | token cells => ∃ inner, Joinable d cells inner

/-! ### Searching visible characters -/

variable {d : Delimiters} {cells more : List Cell} {inner : Text}

theorem visible_append (cells more : List Cell) :
    visible (cells ++ more) = visible cells ++ visible more := List.map_append

theorem beginVisibly_iff {opening : Text} :
    beginVisibly opening cells = true ↔ ∃ rest, visible cells = opening ++ rest := by
  have hstarts : visible (cells.take opening.length) = (visible cells).take opening.length :=
    List.map_take
  rw [beginVisibly, beq_iff_eq, hstarts]
  constructor
  · intro h
    exact ⟨(visible cells).drop opening.length, by
      conv_lhs => rw [← List.take_append_drop opening.length (visible cells), h]⟩
  · rintro ⟨rest, h⟩
    rw [h, List.take_left]

/-- What stands before a delimiter among visible characters is what stands before it in **their
text**. -/
theorem visibleBefore?_eq (closing : Text) (cells : List Cell) :
    visibleBefore? closing cells = (Text.cut? closing (visible cells)).map Prod.fst := by
  induction cells with
  | nil =>
    rw [visibleBefore?, visible, List.map_nil, Text.cut?]
    split <;> rfl
  | cons cell cells ih =>
    have hvisible : visible (cell :: cells) = cell.char :: visible cells := rfl
    rw [visibleBefore?, ih, hvisible, Text.cut?]
    cases hstarts : Text.dropPrefix? closing (cell.char :: visible cells) with
    | some rest =>
      have hbegin : beginVisibly closing (cell :: cells) = true :=
        beginVisibly_iff.2 ⟨rest, Text.dropPrefix?_eq_some_iff.1 hstarts⟩
      rw [if_pos hbegin]
      rfl
    | none =>
      have hbegin : ¬ beginVisibly closing (cell :: cells) = true := by
        intro h
        obtain ⟨rest, hrest⟩ := beginVisibly_iff.1 h
        rw [hvisible] at hrest
        rw [Text.dropPrefix?_eq_some_iff.2 hrest] at hstarts
        cases hstarts
      rw [if_neg hbegin, Option.map_map, Option.map_map]
      rfl

/-! ### The step -/

theorem repairCells_cons_of_not {cell : Cell}
    (h : ¬ ∃ rest, visible (cell :: cells) = d.opening ++ rest) :
    repairCells d (cell :: cells) = cell :: repairCells d cells := by
  have hbegin : ¬ beginVisibly d.opening (cell :: cells) = true := fun hb =>
    h (beginVisibly_iff.1 hb)
  rw [repairCells, if_neg hbegin]

theorem visible_map_untagged (cells : List Cell) :
    visible (cells.map Cell.untagged) = visible cells := by
  rw [visible, List.map_map]
  rfl

theorem flatMap_text_untagged (cells : List Cell) :
    (cells.map Cell.untagged).flatMap Cell.text = visible cells := by
  induction cells with
  | nil => rfl
  | cons cell cells ih =>
    rw [List.map_cons, List.flatMap_cons, ih]
    rfl

theorem map_untagged_of_tags_eq_nil (h : ∀ cell ∈ cells, cell.tags = []) :
    cells.map Cell.untagged = cells := by
  have hcell : ∀ cell ∈ cells, cell.untagged = cell := by
    rintro ⟨tags, char⟩ hcell
    rw [Cell.untagged, ← h _ hcell]
  rw [List.map_congr_left hcell, List.map_id']

/-- A token that may be joined **loses its tags**, save for those before it. -/
theorem repairToken_eq {first : Cell} (h : areDroppable (cells.flatMap Cell.tags) = true) :
    repairToken (first :: cells) = first :: cells.map Cell.untagged := by
  unfold repairToken
  dsimp only
  rw [List.drop_one, List.tail_cons, h, Bool.and_true]
  split
  case isTrue => rfl
  case isFalse hempty =>
    have hnil : cells.flatMap Cell.tags = [] := by simpa using hempty
    rw [map_untagged_of_tags_eq_nil fun cell hcell => List.flatMap_eq_nil_iff.1 hnil cell hcell]

/-- **The step**: a token at the head of a strand is joined, and the search goes on behind it. The
tags before the token stay. -/
theorem repairCells_of_joinable (hd : d.Proper) {first : Cell}
    (h : Joinable d (first :: cells) inner) (tags : List Text) (more : List Cell) :
    repairCells d (⟨tags, first.char⟩ :: cells ++ more) =
      ⟨tags, first.char⟩ :: cells.map Cell.untagged ++ repairCells d more := by
  have htoken : visible (⟨tags, first.char⟩ :: cells) = d.tokenText inner := h.visible_eq
  have hvisible : visible (⟨tags, first.char⟩ :: cells ++ more) =
      d.opening ++ (inner ++ d.closing ++ visible more) := by
    rw [visible_append, htoken, Delimiters.tokenText]
    simp only [List.append_assoc]
  -- the search for the closing delimiter begins behind the opening one
  obtain ⟨c, opening, hopening⟩ := List.exists_cons_of_ne_nil hd.opening_ne_nil
  have hbehind : visible ((cells ++ more).drop (d.opening.length - 1)) =
      inner ++ d.closing ++ visible more := by
    have hdrop := congrArg (List.drop d.opening.length) hvisible
    rw [List.drop_left, hopening, List.length_cons] at hdrop
    rw [← hdrop, hopening, List.length_cons, Nat.add_sub_cancel, List.cons_append, visible, visible,
      List.map_cons, List.drop_succ_cons, List.map_drop]
  have hfound : visibleBefore? d.closing ((cells ++ more).drop (d.opening.length - 1)) =
      some inner := by
    rw [visibleBefore?_eq, hbehind, h.closing_behind]
    rfl
  have hsize : d.opening.length + inner.length + d.closing.length - 1 = cells.length := by
    have hlength := congrArg List.length htoken
    rw [Delimiters.length_tokenText, visible, List.length_map, List.length_cons] at hlength
    omega
  have hdroppable : areDroppable (cells.flatMap Cell.tags) = true := by
    have hall := h.droppable
    rwa [List.flatMap_cons, h.head_tags first rfl, List.nil_append] at hall
  have hkeep : ¬ (Text.contains d.opening inner || maxInnerSize < Text.utf8Size inner) = true := by
    rw [h.opening_outside, Bool.false_or, decide_eq_true_eq]
    exact Nat.not_lt.2 h.size_le
  have hbegin : beginVisibly d.opening (⟨tags, first.char⟩ :: (cells ++ more)) = true :=
    beginVisibly_iff.2 ⟨_, hvisible⟩
  rw [List.cons_append, repairCells, if_pos hbegin, hfound]
  dsimp only
  rw [if_neg hkeep, hsize, List.take_left, List.drop_left, repairToken_eq hdroppable]

/-! ### Strands of cut templates -/

theorem strandFrom_tag {tag : Text} (h : IsTag tag) (tags : List Text) (t : Text) :
    strandFrom tags (tag ++ t) = strandFrom (tags ++ [tag]) t := by
  have hmatch := h.anyTag_append t
  obtain ⟨inside, rfl, -⟩ := h
  rw [List.cons_append, List.cons_append] at hmatch ⊢
  rw [strandFrom, if_pos rfl, hmatch, List.length_cons]
  dsimp only
  rw [List.take_left, List.drop_left]

theorem strandFrom_flatten {more : List Text} (h : ∀ tag ∈ more, IsTag tag) (tags : List Text)
    (t : Text) : strandFrom tags (more.flatten ++ t) = strandFrom (tags ++ more) t := by
  induction more generalizing tags with
  | nil => rw [List.flatten_nil, List.nil_append, List.append_nil]
  | cons tag more ih =>
    obtain ⟨htag, hmore⟩ := List.forall_mem_cons.1 h
    rw [List.flatten_cons, List.append_assoc, strandFrom_tag htag, ih hmore, List.append_assoc,
      List.singleton_append]

theorem strandFrom_cons {c : Char} (h : c ≠ '<') (tags : List Text) (t : Text) :
    strandFrom tags (c :: t) =
      ⟨⟨tags, c⟩ :: (strandFrom [] t).cells, (strandFrom [] t).rest⟩ := by
  rw [strandFrom, if_neg h]

/-- The strand of cells is **these cells**. -/
theorem strandFrom_flatMap_text (hopen : ∀ cell ∈ cells, cell.char ≠ '<')
    (htags : ∀ cell ∈ cells, ∀ tag ∈ cell.tags, IsTag tag) (t : Text) :
    strandFrom [] (cells.flatMap Cell.text ++ t) =
      ⟨cells ++ (strandFrom [] t).cells, (strandFrom [] t).rest⟩ := by
  induction cells with
  | nil => rfl
  | cons cell cells ih =>
    obtain ⟨hc, hopen⟩ := List.forall_mem_cons.1 hopen
    obtain ⟨htag, htags⟩ := List.forall_mem_cons.1 htags
    rw [List.flatMap_cons, Cell.text, List.append_assoc, List.append_assoc,
      strandFrom_flatten htag, List.singleton_append, strandFrom_cons hc, ih hopen htags]
    rfl

/-! ### The run -/

/-- A strand with its tokens joined. -/
def Strand.repair (d : Delimiters) (s : Strand) : Strand := { s with cells := repairCells d s.cells }

/-- Whether no opening delimiter begins in a text, **whatever follows it**. -/
def Delimiters.Clears (d : Delimiters) (t : Text) : Prop :=
  ∀ s, s ≠ [] → s <:+ t → ∀ rest more, s ++ rest ≠ d.opening ++ more

/-- The tags before a token stay, whatever **becomes of those inside**. -/
theorem exists_repairToken_cons (c : Char) (token : List Cell) :
    ∃ rest, ∀ tags, repairToken (⟨tags, c⟩ :: token) = ⟨tags, c⟩ :: rest := by
  unfold repairToken
  simp only [List.drop_one, List.tail_cons]
  by_cases hdrop : (!(token.flatMap Cell.tags).isEmpty &&
      areDroppable (token.flatMap Cell.tags)) = true
  · simp only [if_pos hdrop]
    exact ⟨_, fun _ => rfl⟩
  · simp only [if_neg hdrop]
    exact ⟨_, fun _ => rfl⟩

/-- The first cell is kept, and **what becomes of the others** does not depend on its tags. -/
theorem exists_repairCells_cons (d : Delimiters) (c : Char) (cells : List Cell) :
    ∃ rest, ∀ tags, repairCells d (⟨tags, c⟩ :: cells) = ⟨tags, c⟩ :: rest := by
  -- what is decided at the first cell is decided by what is visible
  have hbegin (tags : List Text) : beginVisibly d.opening (⟨tags, c⟩ :: cells) =
      beginVisibly d.opening (⟨[], c⟩ :: cells) := by
    rw [Bool.eq_iff_iff, beginVisibly_iff, beginVisibly_iff]
    rfl
  by_cases hopening : beginVisibly d.opening (⟨[], c⟩ :: cells) = true
  · cases hfound : visibleBefore? d.closing (cells.drop (d.opening.length - 1)) with
    | none =>
      refine ⟨cells, fun tags => ?_⟩
      rw [repairCells, hbegin, if_pos hopening, hfound]
    | some inner =>
      by_cases hskip : (Text.contains d.opening inner ||
          maxInnerSize < Text.utf8Size inner) = true
      · refine ⟨cells.take (d.opening.length - 1) ++
          repairCells d (cells.drop (d.opening.length - 1)), fun tags => ?_⟩
        rw [repairCells, hbegin, if_pos hopening, hfound]
        dsimp only
        rw [if_pos hskip, List.cons_append]
      · obtain ⟨rest, hrest⟩ := exists_repairToken_cons c
          (cells.take (d.opening.length + inner.length + d.closing.length - 1))
        refine ⟨rest ++ repairCells d
          (cells.drop (d.opening.length + inner.length + d.closing.length - 1)), fun tags => ?_⟩
        rw [repairCells, hbegin, if_pos hopening, hfound]
        dsimp only
        rw [if_neg hskip, hrest, List.cons_append]
  · refine ⟨repairCells d cells, fun tags => ?_⟩
    rw [repairCells, hbegin, if_neg hopening]

/-- Tags before a fragment **stay before it**. -/
theorem text_repair_strandFrom (d : Delimiters) (tags : List Text) (t : Text) :
    ((strandFrom tags t).repair d).text = tags.flatten ++ ((strandFrom [] t).repair d).text := by
  induction hlength : t.length using Nat.strongRecOn generalizing tags t with
  | ind n ih =>
    cases t with
    | nil => simp [strandFrom, Strand.repair, Strand.text, repairCells]
    | cons c t =>
      by_cases hc : c = '<'
      · subst hc
        rw [strandFrom, if_pos rfl, strandFrom, if_pos rfl]
        cases hmatch : anyTag ('<' :: t) with
        | zero => simp [Strand.repair, Strand.text, repairCells]
        | succ k =>
          have hlt : (t.drop k).length < n := by
            rw [← hlength, List.length_drop, List.length_cons]
            omega
          dsimp only
          rw [ih _ hlt (tags ++ [_]) _ rfl, ih _ hlt ([] ++ [_]) _ rfl, List.flatten_append,
            List.nil_append, List.append_assoc]
      · obtain ⟨rest, hrest⟩ := exists_repairCells_cons d c (strandFrom [] t).cells
        rw [strandFrom_cons hc, strandFrom_cons hc]
        simp only [Strand.repair, Strand.text, hrest, List.flatMap_cons, Cell.text,
          List.flatten_nil, List.nil_append, List.append_assoc]

theorem visible_strandFrom {u : Text} (hopen : '<' ∉ u) (t : Text) :
    visible (strandFrom [] (u ++ t)).cells = u ++ visible (strandFrom [] t).cells := by
  induction u with
  | nil => rfl
  | cons c u ih =>
    rw [List.cons_append, strandFrom_cons (List.ne_of_not_mem_cons hopen).symm, visible,
      List.map_cons, ← visible, ih (List.not_mem_of_not_mem_cons hopen)]
    rfl

/-- Characters among which no token begins **are passed over**. -/
theorem text_repair_append {u : Text} (hopen : '<' ∉ u) (hclear : d.Clears u) (t : Text) :
    ((strandOf (u ++ t)).repair d).text = u ++ ((strandOf t).repair d).text := by
  induction u with
  | nil => rfl
  | cons c u ih =>
    have hc := (List.ne_of_not_mem_cons hopen).symm
    have hrest := ih (List.not_mem_of_not_mem_cons hopen) fun s hne hs =>
      hclear s hne (hs.trans (List.suffix_cons c u))
    have hnot : ¬ ∃ rest, visible (⟨[], c⟩ :: (strandFrom [] (u ++ t)).cells) =
        d.opening ++ rest := by
      rintro ⟨rest, h⟩
      have hvisible : visible (⟨[], c⟩ :: (strandFrom [] (u ++ t)).cells) =
          c :: u ++ visible (strandFrom [] t).cells :=
        congrArg (c :: ·) (visible_strandFrom (List.not_mem_of_not_mem_cons hopen) t)
      rw [hvisible] at h
      exact hclear (c :: u) (List.cons_ne_nil _ _) (List.suffix_refl _) _ _ h
    rw [List.cons_append, strandOf, strandFrom_cons hc, List.cons_append, ← hrest]
    simp only [Strand.repair, repairCells_cons_of_not hnot, Strand.text, List.flatMap_cons, Cell.text,
      List.flatten_nil, List.nil_append, List.cons_append, strandOf]

/-- A token **is joined**. -/
theorem text_repair_token (hd : d.Proper) (h : Joinable d cells inner) (t : Text) :
    ((strandOf (cells.flatMap Cell.text ++ t)).repair d).text =
      visible cells ++ ((strandOf t).repair d).text := by
  obtain ⟨first, rest, rfl⟩ := List.exists_cons_of_ne_nil (show cells ≠ [] from fun hnil =>
    Delimiters.tokenText_ne_nil hd inner (by rw [← h.visible_eq, hnil]; rfl))
  have hfirst : (⟨[], first.char⟩ : Cell) = first := by rw [← h.head_tags first rfl]
  have hstep := repairCells_of_joinable hd h [] (strandFrom [] t).cells
  rw [hfirst] at hstep
  rw [strandOf, strandFrom_flatMap_text h.not_open h.isTag, Strand.repair]
  dsimp only
  rw [hstep]
  simp only [Strand.text, List.flatMap_append, List.flatMap_cons, flatMap_text_untagged, Strand.repair,
    strandOf, List.append_assoc, List.cons_append, Cell.text, h.head_tags first rfl]
  rfl

/-! ### Spelled characters -/

theorem IsSpelling.not_open {u : Text} (h : IsSpelling u) : '<' ∉ u := by
  cases h with
  | char hopen => simpa using hopen.symm
  | reference h =>
    have hmem : '<' ∉ _ := fun hmem => absurd (h '<' hmem) (by decide)
    simpa using hmem

theorem clears_of_spelling {convention : PlaceholderConvention}
    (hd : convention.delimiters? = some d) {u : Text} (h : IsSpelling u)
    (hu : u ∉ convention.delimiterSpellings) : d.Clears u := by
  intro s hne hs rest more heq
  obtain ⟨c, s, rfl⟩ := List.exists_cons_of_ne_nil hne
  have hmem : c ∈ u := hs.subset (List.mem_cons_self ..)
  cases convention with
  | braces =>
    cases hd
    -- the text would hold a brace
    obtain rfl : c = '\x7b' := (List.cons.inj heq).1
    cases h with
    | char =>
      rw [List.mem_singleton] at hmem
      exact hu (by rw [← hmem]; decide)
    | @reference inside h =>
      have hmem' : '\x7b' ∈ inside := by simpa using hmem
      exact absurd (h _ hmem') (by decide)
  | angles =>
    cases hd
    obtain rfl : c = '&' := (List.cons.inj heq).1
    cases h with
    | char _ hamp => exact hamp (List.mem_singleton.1 hmem).symm
    | @reference inside h =>
      rcases List.suffix_cons_iff.1 hs with hwhole | hbehind
      · -- the reference would be that of a delimiter character
        have hsemi : ';' ∉ inside := fun hmem => absurd (h ';' hmem) (by decide)
        have hinside : inside ++ ';' :: rest = ['l', 't'] ++ ';' :: (['&', 'l', 't', ';'] ++ more) := by
          rw [(List.cons.inj hwhole).2] at heq
          simpa using heq
        obtain ⟨rfl, -⟩ := Markup.eq_of_append_cons_eq hinside hsemi (by decide)
        exact hu (by decide)
      · have hmem' : '&' ∈ inside := by simpa using hbehind.subset (List.mem_cons_self ..)
        exact absurd (h _ hmem') (by decide)
  | bare => cases hd

/-! ### The run -/

/-- The text of a template **with its tokens cut**. -/
def cutText (parts : List TemplatePart) : Text := parts.flatMap TemplatePart.cut

/-- The text of a template **with its tokens in one piece**. -/
def wholeText (parts : List TemplatePart) : Text := parts.flatMap TemplatePart.whole

/-- **The tokens of a template are joined**, however they are cut: what is left is the template with
its tokens in one piece. -/
theorem repairTokens_cutText {convention : PlaceholderConvention}
    (hd : convention.delimiters? = some d) {parts : List TemplatePart}
    (h : ∀ part ∈ parts, part.IsJoinable convention d) :
    repairTokens convention (cutText parts) = wholeText parts := by
  have hrepair (t : Text) : repairTokens convention t = ((strandOf t).repair d).text := by
    rw [repairTokens, hd]
    rfl
  rw [hrepair]
  induction parts with
  | nil => simp [cutText, wholeText, strandOf, strandFrom, Strand.repair, Strand.text, repairCells]
  | cons part parts ih =>
    obtain ⟨hpart, h⟩ := List.forall_mem_cons.1 h
    rw [cutText, wholeText, List.flatMap_cons, List.flatMap_cons, ← wholeText, ← cutText, ← ih h]
    cases part with
    | tag t =>
      rw [strandOf, TemplatePart.cut, strandFrom_tag hpart, text_repair_strandFrom]
      simp [TemplatePart.whole, strandOf]
    | spelling t => exact text_repair_append hpart.1.not_open (clears_of_spelling hd hpart.1 hpart.2) _
    | token cells =>
      obtain ⟨inner, hcells⟩ := hpart
      exact text_repair_token (Delimiters.proper_of_mem hd) hcells _

end MailMerge
