import MailMerge.Proofs.CutTokens

/-!
# Character data

The character data of a fragment is what stands outside tags. It is what the visible characters of the
strand of the fragment spell, and token repair leaves it as it is. Replacing tokens takes away the
character data of the tokens and nothing else, since a token never reaches over the end of a tag.

* `characterData` reads it off a fragment, one character after the other;
* `visible_strandOf` — it is spelled by the visible characters;
* `characterData_repairTokens` — token repair keeps it;
* `count_characterData_rewriteMatches` — replacing matches keeps the characters that no match holds.
-/

namespace MailMerge

/-- The **character data** of the rest of a fragment, inside a tag or not. -/
def characterDataFrom : Bool → Text → Text
  | _, [] => []
  | true, c :: t => characterDataFrom (c != '>') t
  | false, c :: t => if c = '<' then characterDataFrom true t else c :: characterDataFrom false t

/-- The **character data** of a fragment: what stands outside tags. -/
def characterData (t : Text) : Text := characterDataFrom false t

variable {t u : Text}

/-! ### Piece by piece -/

@[simp] theorem characterDataFrom_nil (inTag : Bool) : characterDataFrom inTag [] = [] := by
  cases inTag <;> rfl

theorem characterDataFrom_true_append (h : '>' ∉ u) (t : Text) :
    characterDataFrom true (u ++ t) = characterDataFrom true t := by
  induction u with
  | nil => rfl
  | cons c u ih =>
    have hc : (c != '>') = true := bne_iff_ne.2 (List.ne_of_not_mem_cons h).symm
    rw [List.cons_append, characterDataFrom, hc, ih (List.not_mem_of_not_mem_cons h)]

/-- A tag holds no character data. -/
theorem characterData_tag {tag : Text} (h : IsTag tag) (t : Text) :
    characterData (tag ++ t) = characterData t := by
  obtain ⟨inner, rfl, hclose⟩ := h
  rw [characterData, List.append_assoc, List.cons_append, characterDataFrom, if_pos rfl,
    characterDataFrom_true_append hclose, List.singleton_append, characterDataFrom]
  rfl

theorem characterData_flatten {tags : List Text} (h : ∀ tag ∈ tags, IsTag tag) (t : Text) :
    characterData (tags.flatten ++ t) = characterData t := by
  induction tags with
  | nil => rfl
  | cons tag tags ih =>
    obtain ⟨htag, htags⟩ := List.forall_mem_cons.1 h
    rw [List.flatten_cons, List.append_assoc, characterData_tag htag, ih htags]

theorem characterData_append (h : '<' ∉ u) (t : Text) :
    characterData (u ++ t) = u ++ characterData t := by
  induction u with
  | nil => rfl
  | cons c u ih =>
    rw [List.cons_append, characterData, characterDataFrom,
      if_neg (List.ne_of_not_mem_cons h).symm, ← characterData,
      ih (List.not_mem_of_not_mem_cons h), List.cons_append]

/-- Text without angle brackets **stays where it is**: inside a tag, or outside. -/
theorem characterDataFrom_append (hopen : '<' ∉ u) (hclose : '>' ∉ u) (inTag : Bool) (t : Text) :
    characterDataFrom inTag (u ++ t) = (if inTag then [] else u) ++ characterDataFrom inTag t := by
  cases inTag with
  | true => exact characterDataFrom_true_append hclose t
  | false => exact characterData_append hopen t

/-! ### Visible characters -/

/-- A tag that never ends hides all that follows. -/
theorem characterData_of_anyTag_eq_zero (h : anyTag ('<' :: t) = 0) :
    characterData ('<' :: t) = [] := by
  have hclose : '>' ∉ t := by
    intro hmem
    obtain ⟨u, v, rfl, hu⟩ := List.eq_append_cons_of_mem hmem
    have hmatch : anyTag ('<' :: (u ++ '>' :: v)) = u.length + 2 := anyTag_append hu v
    rw [hmatch] at h
    cases h
  have hhidden := characterDataFrom_true_append hclose []
  rw [List.append_nil] at hhidden
  rw [characterData, characterDataFrom, if_pos rfl, hhidden, characterDataFrom_nil]

theorem visible_strandFrom_eq (tags : List Text) (t : Text) :
    visible (strandFrom tags t).cells = characterData t := by
  fun_induction strandFrom tags t with
  | case1 => rfl
  | case2 tags t h => rw [characterData_of_anyTag_eq_zero h]; rfl
  | case3 tags t n h ih =>
    have htext : '<' :: t = ('<' :: t.take n) ++ t.drop n := by
      rw [List.cons_append, List.take_append_drop]
    rw [ih, htext, characterData_tag (isTag_of_anyTag h)]
  | case4 tags c t hc s ih =>
    have hvisible : visible (⟨tags, c⟩ :: s.cells) = c :: visible s.cells := rfl
    rw [hvisible, ih, characterData, characterData, characterDataFrom, if_neg hc]

/-- The visible characters of a fragment **spell its character data**. -/
theorem visible_strandOf (t : Text) : visible (strandOf t).cells = characterData t :=
  visible_strandFrom_eq [] t

/-- Visible characters are no angle brackets that open a tag. -/
theorem not_open_of_mem_strandFrom (tags : List Text) (t : Text) :
    ∀ cell ∈ (strandFrom tags t).cells, cell.char ≠ '<' := by
  fun_induction strandFrom tags t with
  | case1 => exact fun cell hcell => absurd hcell List.not_mem_nil
  | case2 => exact fun cell hcell => absurd hcell List.not_mem_nil
  | case3 tags t n h ih => exact ih
  | case4 tags c t hc s ih => exact List.forall_mem_cons.2 ⟨hc, ih⟩

/-! ### Repair -/

theorem characterData_cell {c : Cell} (hopen : c.char ≠ '<') (htags : ∀ tag ∈ c.tags, IsTag tag)
    (t : Text) : characterData (c.text ++ t) = c.char :: characterData t := by
  have hmem : '<' ∉ [c.char] := by simpa using hopen.symm
  rw [Cell.text, List.append_assoc, characterData_flatten htags, characterData_append hmem,
    List.singleton_append]

/-- Cells without some of their tags **spell the same characters**. -/
theorem characterData_of_thinned {cells cells' : List Cell}
    (h : List.Forall₂ Cell.Thinned cells cells') (hopen : ∀ cell ∈ cells, cell.char ≠ '<')
    (htags : ∀ cell ∈ cells, ∀ tag ∈ cell.tags, IsTag tag) (t : Text) :
    characterData (cells'.flatMap Cell.text ++ t) = visible cells ++ characterData t := by
  induction h with
  | nil => rfl
  | @cons cell cell' cells cells' hcell _ ih =>
    obtain ⟨hc, hcs⟩ := List.forall_mem_cons.1 hopen
    obtain ⟨htag, htagss⟩ := List.forall_mem_cons.1 htags
    rw [List.flatMap_cons, List.append_assoc]
    rcases hcell with rfl | rfl
    · rw [characterData_cell hc htag, ih hcs htagss]
      rfl
    · rw [characterData_cell (c := ⟨[], cell.char⟩) hc (List.forall_mem_nil IsTag), ih hcs htagss]
      rfl

/-- Token repair **keeps the character data**. -/
theorem characterData_repairTokens (convention : PlaceholderConvention) (t : Text) :
    characterData (repairTokens convention t) = characterData t := by
  unfold repairTokens
  split
  case h_1 => rfl
  case h_2 d _ =>
    have hopen := not_open_of_mem_strandFrom [] t
    have htags := isTag_of_mem_strandFrom (List.forall_mem_nil IsTag) t
    have hrepaired := characterData_of_thinned (thinned_repairCells d (strandOf t).cells) hopen htags
      (strandOf t).rest
    have hsame := characterData_of_thinned (Cell.Thinned.refl_list (strandOf t).cells) hopen htags
      (strandOf t).rest
    have htext : (strandOf t).cells.flatMap Cell.text ++ (strandOf t).rest = t := text_strandOf t
    rw [htext] at hsame
    dsimp only [Strand.text]
    rw [hrepaired, hsame]

/-! ### Replaced matches -/

/-- Removing matches that hold no angle brackets **keeps the characters** that they do not hold. -/
theorem count_characterData_rewriteMatches {m : Matcher} {a : Char}
    (h : ∀ piece ∈ matchesIn m t, '<' ∉ piece ∧ '>' ∉ piece ∧ a ∉ piece) :
    (characterData (rewriteMatches m (fun _ => []) t)).count a = (characterData t).count a := by
  have htext := flatMap_text_segments m t
  rw [matchesIn] at h
  rw [rewriteMatches]
  -- by induction on the segments, inside or outside of a tag
  generalize segments m t = parts at h htext
  subst htext
  unfold characterData
  generalize false = inTag
  induction parts generalizing inTag with
  | nil => rfl
  | cons part parts ih =>
    cases part with
    | plain c =>
      have hrest := ih (fun piece hpiece => h piece (by simpa using hpiece))
      rw [List.flatMap_cons, List.flatMap_cons, Segment.text, List.singleton_append,
        List.singleton_append]
      cases inTag with
      | true => exact hrest _
      | false =>
        rw [characterDataFrom, characterDataFrom]
        split
        · exact hrest true
        · rw [List.count_cons, List.count_cons, hrest false]
    | hit piece =>
      have hrest := ih (fun piece hpiece => h piece (List.mem_cons_of_mem _ hpiece))
      obtain ⟨hopen, hclose, ha⟩ := h piece (List.mem_cons_self ..)
      rw [List.flatMap_cons, List.flatMap_cons, Segment.text, List.nil_append,
        characterDataFrom_append hopen hclose, List.count_append, hrest inTag]
      have hnone : (if inTag then [] else piece).count a = 0 := by
        cases inTag with
        | true => rfl
        | false => exact List.count_eq_zero.2 ha
      rw [hnone, Nat.zero_add]

end MailMerge
