import Mathlib.Data.List.Forall2
import MailMerge.Placeholder.Repair
import MailMerge.Proofs.Segments
import MailMerge.Proofs.SoundTemplate

/-!
# Token repair drops tags

Whatever token repair does to a fragment, it only drops tags: the visible characters stay as they
are, and so do all tags that are not dropped. Hence the repair of a sound text is sound, and its tags
are among those of the text.

* `Thinned` relates a text to what is left of it when some of its tags are dropped;
* `text_strandOf` — going to the strand of a fragment and back loses nothing;
* `thinned_repairTokens` — token repair thins a fragment;
* `Markup.thin` — a sound text stays sound when it is thinned.
-/

namespace MailMerge

/-- What is left of a text when **some of its tags are dropped**. -/
inductive Thinned : Text → Text → Prop
  | nil : Thinned [] []
  | char {t u : Text} (c : Char) : Thinned t u → Thinned (c :: t) (c :: u)
  | drop {tag t u : Text} (h : IsTag tag) : Thinned t u → Thinned (tag ++ t) u

namespace Thinned

variable {t t' u u' : Text}

theorem refl (t : Text) : Thinned t t := by
  induction t with
  | nil => exact .nil
  | cons c t ih => exact .char c ih

theorem append (h : Thinned t u) (h' : Thinned t' u') : Thinned (t ++ t') (u ++ u') := by
  induction h with
  | nil => exact h'
  | char c _ ih => exact .char c ih
  | drop htag _ ih =>
    rw [List.append_assoc]
    exact .drop htag ih

theorem dropAll {tags : List Text} (h : ∀ tag ∈ tags, IsTag tag) : Thinned tags.flatten [] := by
  induction tags with
  | nil => exact .nil
  | cons tag tags ih =>
    obtain ⟨htag, htags⟩ := List.forall_mem_cons.1 h
    exact .drop htag (ih htags)

/-- Up to the first tag nothing is dropped. -/
theorem exists_of_append {v : Text} (h : Thinned (v ++ t) u) (hv : '<' ∉ v) :
    ∃ u', u = v ++ u' ∧ Thinned t u' := by
  induction v generalizing u with
  | nil => exact ⟨u, rfl, h⟩
  | cons c v ih =>
    have hc := List.ne_of_not_mem_cons hv
    generalize ht : c :: v ++ t = w at h
    cases h with
    | nil => cases ht
    | char d h =>
      obtain ⟨rfl, rfl⟩ := List.cons.inj ht
      obtain ⟨u', rfl, h'⟩ := ih h (List.not_mem_of_not_mem_cons hv)
      exact ⟨u', rfl, h'⟩
    | drop htag h =>
      obtain ⟨inner, rfl, -⟩ := htag
      exact absurd (List.cons.inj ht).1.symm hc

end Thinned

/-- A **sound text stays sound** when it is thinned, and what is left of its tags is a part of
them. -/
theorem Markup.thin {tags : List Text} {t u : Text} (h : Markup tags t) (ht : Thinned t u) :
    ∃ tags', Markup tags' u ∧ tags' ⊆ tags := by
  -- by induction on the markup: only its tags may be dropped, for all else holds no bracket
  induction h generalizing u with
  | nil =>
    generalize hnil : ([] : Text) = v at ht
    cases ht with
    | nil => exact ⟨[], .nil, List.Subset.refl _⟩
    | char => cases hnil
    | drop htag =>
      obtain ⟨inner, rfl, -⟩ := htag
      cases hnil
  | @char tags c t hopen hclose hamp _ ih =>
    have hmem : '<' ∉ [c] := by simpa using hopen.symm
    obtain ⟨u', rfl, hu⟩ := Thinned.exists_of_append (v := [c]) ht hmem
    obtain ⟨tags', h', hsub⟩ := ih hu
    exact ⟨tags', .char hopen hclose hamp h', hsub⟩
  | @reference tags inside t hr _ ih =>
    have hmem : '<' ∉ '&' :: inside ++ [';'] := by simpa using hr.not_mem (c := '<') (by decide)
    have htext : '&' :: inside ++ ';' :: t = ('&' :: inside ++ [';']) ++ t := by simp
    rw [htext] at ht
    obtain ⟨u', rfl, hu⟩ := ht.exists_of_append hmem
    obtain ⟨tags', h', hsub⟩ := ih hu
    refine ⟨tags', ?_, hsub⟩
    rw [List.append_assoc, List.singleton_append]
    exact .reference hr h'
  | @tag tags tag t htag _ ih =>
    obtain ⟨inner, rfl, hinner, hgt⟩ := htag.shape
    generalize hv : '<' :: inner ++ ['>'] ++ t = v at ht
    cases ht with
    | nil => cases hv
    | char c hu =>
      obtain ⟨rfl, rfl⟩ := List.cons.inj hv
      have hmem : '<' ∉ inner ++ ['>'] := by simpa using hinner
      obtain ⟨u', rfl, hu'⟩ := hu.exists_of_append hmem
      obtain ⟨tags', h', hsub⟩ := ih hu'
      exact ⟨_ :: tags', .tag htag h', List.cons_subset_cons _ hsub⟩
    | drop htag' hu =>
      obtain ⟨inner', rfl, hgt'⟩ := htag'
      simp only [List.append_assoc, List.cons_append, List.nil_append] at hv
      have heq := (List.cons.inj hv).2
      obtain ⟨-, rfl⟩ := Markup.eq_of_append_cons_eq heq hgt hgt'
      obtain ⟨tags', h', hsub⟩ := ih hu
      exact ⟨tags', h', List.subset_cons_of_subset _ hsub⟩

/-! ### Strands -/

/-- The text of a strand is **the fragment that it was made of**. -/
theorem text_strandFrom (tags : List Text) (t : Text) :
    (strandFrom tags t).text = tags.flatten ++ t := by
  fun_induction strandFrom tags t with
  | case1 tags => simp [Strand.text]
  | case2 tags t _ => simp [Strand.text]
  | case3 tags t n _ ih =>
    rw [ih, List.flatten_append, List.flatten_singleton, List.append_assoc, List.cons_append,
      List.take_append_drop]
  | case4 tags c t _ s ih =>
    have hs : s.cells.flatMap Cell.text ++ s.rest = t := ih
    rw [Strand.text, List.flatMap_cons, List.append_assoc, hs, Cell.text, List.append_assoc,
      List.singleton_append]

theorem text_strandOf (t : Text) : (strandOf t).text = t := text_strandFrom [] t

/-- The tags of a strand **are tags**. -/
theorem isTag_of_mem_strandFrom {tags : List Text} (htags : ∀ tag ∈ tags, IsTag tag) (t : Text) :
    ∀ cell ∈ (strandFrom tags t).cells, ∀ tag ∈ cell.tags, IsTag tag := by
  fun_induction strandFrom tags t with
  | case1 => exact fun cell hcell => nomatch hcell
  | case2 => exact fun cell hcell => nomatch hcell
  | case3 tags t n h ih =>
    refine ih fun tag htag => ?_
    rcases List.mem_append.1 htag with htag | htag
    · exact htags tag htag
    · rw [List.mem_singleton.1 htag]
      exact isTag_of_anyTag h
  | case4 tags c t _ s ih =>
    intro cell hcell
    rcases List.mem_cons.1 hcell with rfl | hcell
    · exact htags
    · exact ih (fun tag htag => nomatch htag) cell hcell

/-! ### Repair -/

/-- What repair may do to a cell: keep it, or drop its tags. -/
def Cell.Thinned (c c' : Cell) : Prop := c' = c ∨ c' = { c with tags := [] }

theorem Cell.Thinned.refl_list (cells : List Cell) : List.Forall₂ Cell.Thinned cells cells :=
  List.forall₂_same.2 fun _ _ => .inl rfl

theorem Cell.Thinned.append_list {cells cells' more more' : List Cell}
    (h : List.Forall₂ Cell.Thinned cells cells') (h' : List.Forall₂ Cell.Thinned more more') :
    List.Forall₂ Cell.Thinned (cells ++ more) (cells' ++ more') :=
  List.rel_append h h'

theorem thinned_joinCells (token : List Cell) :
    List.Forall₂ Cell.Thinned token (joinCells token) := by
  cases token with
  | nil => exact .nil
  | cons first inner =>
    refine .cons (.inl rfl) ?_
    rw [List.forall₂_map_right_iff]
    exact List.forall₂_same.2 fun _ _ => .inr rfl

theorem thinned_repairToken (token : List Cell) :
    List.Forall₂ Cell.Thinned token (repairToken token) := by
  unfold repairToken
  dsimp only
  split
  · exact thinned_joinCells token
  · exact Cell.Thinned.refl_list token

theorem thinned_repairCells (d : Delimiters) (cells : List Cell) :
    List.Forall₂ Cell.Thinned cells (repairCells d cells) := by
  fun_induction repairCells d cells with
  | case1 => exact .nil
  | case2 cell cells => exact Cell.Thinned.refl_list _
  | case3 cell cells _ inner _ _ ih =>
    -- the opening delimiter stays as it is
    have hcells := Cell.Thinned.append_list
      (Cell.Thinned.refl_list (cell :: cells.take (d.opening.length - 1))) ih
    rwa [List.cons_append, List.take_append_drop] at hcells
  | case4 cell cells _ inner _ _ size ih =>
    have hcells := Cell.Thinned.append_list (thinned_repairToken (cell :: cells.take (size - 1))) ih
    rwa [List.cons_append, List.take_append_drop] at hcells
  | case5 cell cells _ ih => exact .cons (.inl rfl) ih

theorem Cell.Thinned.text {c c' : Cell} (h : c.Thinned c') (htags : ∀ tag ∈ c.tags, IsTag tag) :
    MailMerge.Thinned c.text c'.text := by
  rcases h with rfl | rfl
  · exact .refl _
  · exact (MailMerge.Thinned.dropAll htags).append (.refl [c.char])

theorem Thinned.flatMap_text {cells cells' : List Cell}
    (h : List.Forall₂ Cell.Thinned cells cells')
    (htags : ∀ cell ∈ cells, ∀ tag ∈ cell.tags, IsTag tag) :
    Thinned (cells.flatMap Cell.text) (cells'.flatMap Cell.text) := by
  induction h with
  | nil => exact .nil
  | cons hcell _ ih =>
    obtain ⟨hcellTags, htags⟩ := List.forall_mem_cons.1 htags
    exact (hcell.text hcellTags).append (ih htags)

/-- **Token repair drops tags**, and nothing else. -/
theorem thinned_repairTokens (convention : PlaceholderConvention) (t : Text) :
    Thinned t (repairTokens convention t) := by
  unfold repairTokens
  split
  case h_1 => exact .refl t
  case h_2 d _ =>
    have htags := isTag_of_mem_strandFrom (List.forall_mem_nil IsTag) t
    have hthin : Thinned (strandOf t).text _ :=
      (Thinned.flatMap_text (thinned_repairCells d _) htags).append (.refl (strandOf t).rest)
    rwa [text_strandOf] at hthin

/-- The repair of a sound text **is sound**, and its tags are among those of the text. -/
theorem Markup.repairTokens {tags : List Text} {t : Text} (h : Markup tags t)
    (convention : PlaceholderConvention) :
    ∃ tags', Markup tags' (repairTokens convention t) ∧ tags' ⊆ tags :=
  h.thin (thinned_repairTokens convention t)

end MailMerge
