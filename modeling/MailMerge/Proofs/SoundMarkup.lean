import Mathlib.Data.List.Basic
import MailMerge.Markup.Tag
import MailMerge.Markup.WellFormed
import MailMerge.Proofs.References

/-!
# Sound markup

A text is **sound markup** if it is made of plain characters, of references that resolve and of
whole tags, where `<` and `>` only delimit the tags. Such texts can be put together, and they can be
cut at the brackets of the tags and at all characters that no reference holds.

* `Markup` is soundness, with the tags of the text;
* `Markup.append` — sound texts put together are sound;
* `Markup.split`, `Markup.split_open` and `Markup.split_close` — where a sound text can be cut;
* `Markup.cancel` — what follows a sound text in a sound text is sound;
* `Markup.tags_unique` — the tags of a sound text are determined.
-/

namespace MailMerge

/-! ### The specification -/

/-- The event of a tag. -/
def tagEvent (tag : Text) : Event := (Event.read (tag.drop 1)).event

/-- A **whole tag**: it begins at its only `<` and is read up to its only `>`. -/
structure WholeTag (tag : Text) : Prop where
  shape : ∃ inner, tag = '<' :: inner ++ ['>'] ∧ '<' ∉ inner ∧ '>' ∉ inner
  complete : ∀ fault, tagEvent tag ≠ .broken fault

/-- **Sound markup** and its tags. -/
inductive Markup : List Text → Text → Prop
  | nil : Markup [] []
  | char {tags : List Text} {c : Char} {t : Text} (hopen : c ≠ '<') (hclose : c ≠ '>')
      (hamp : c ≠ '&') : Markup tags t → Markup tags (c :: t)
  | reference {tags : List Text} {inside t : Text} (h : Resolves inside) :
      Markup tags t → Markup tags ('&' :: inside ++ ';' :: t)
  | tag {tags : List Text} {tag t : Text} (h : WholeTag tag) :
      Markup tags t → Markup (tag :: tags) (tag ++ t)

/-! ### Putting together -/

namespace Markup

variable {tags tags' : List Text} {a b t u inside tag : Text} {c : Char}

theorem append (h : Markup tags t) (h' : Markup tags' u) : Markup (tags ++ tags') (t ++ u) := by
  induction h with
  | nil => exact h'
  | char hopen hclose hamp _ ih => exact .char hopen hclose hamp ih
  | reference hr _ ih =>
    rw [List.append_assoc, List.cons_append]
    exact .reference hr ih
  | tag htag _ ih =>
    rw [List.append_assoc, List.cons_append]
    exact .tag htag ih

theorem single (h : WholeTag tag) : Markup [tag] tag := by
  have := Markup.tag h .nil
  rwa [List.append_nil] at this

theorem flatten (h : ∀ tag ∈ tags, WholeTag tag) : Markup tags tags.flatten := by
  induction tags with
  | nil => exact .nil
  | cons tag tags ih =>
    obtain ⟨htag, htags⟩ := List.forall_mem_cons.1 h
    exact .tag htag (ih htags)

/-! ### Cutting -/

/-- A cut before a character **of** `u ++ t` is before a character of `u`, or of `t`. -/
theorem exists_cut_of_append_eq {u t a b : Text} {c : Char} (h : u ++ t = a ++ c :: b) :
    (∃ v, u = a ++ c :: v ∧ b = v ++ t) ∨ ∃ a', a = u ++ a' ∧ t = a' ++ c :: b := by
  rcases List.append_eq_append_iff.1 h with ⟨a', ha, ht⟩ | ⟨v, hu, hb⟩
  · exact .inr ⟨a', ha, ht⟩
  · cases v with
    | nil => exact .inr ⟨[], by rw [hu, List.append_nil, List.append_nil], hb.symm⟩
    | cons d v =>
      obtain ⟨rfl, rfl⟩ := List.cons.inj hb
      exact .inl ⟨v, hu, rfl⟩

/-- A cut before a character that does not stand inside `u` cuts `u ++ t` before or behind `u`. -/
theorem exists_of_append_eq {u t a b : Text} {c : Char} (h : u ++ t = a ++ c :: b)
    (hc : c ∉ u.tail) : a = [] ∨ ∃ a', a = u ++ a' ∧ t = a' ++ c :: b := by
  refine (exists_cut_of_append_eq h).imp_left ?_
  rintro ⟨v, rfl, -⟩
  cases a with
  | nil => rfl
  | cons e a => exact absurd (List.mem_append_right a (List.mem_cons_self ..)) hc

/-- A cut behind a character that `u` holds at most at its end cuts `u ++ t` behind `u` or later. -/
theorem exists_of_append_eq_behind {u t a b : Text} {c : Char} (h : u ++ t = a ++ c :: b)
    (hc : c ∉ u.dropLast) : (u = a ++ [c] ∧ t = b) ∨ ∃ a', a = u ++ a' ∧ t = a' ++ c :: b := by
  refine (exists_cut_of_append_eq h).imp_left ?_
  rintro ⟨v, rfl, rfl⟩
  cases v with
  | nil => exact ⟨rfl, rfl⟩
  | cons e v =>
    rw [List.dropLast_append_of_ne_nil (List.cons_ne_nil _ _)] at hc
    exact absurd (List.mem_append_right a (List.mem_cons_self ..)) hc

/-- A sound text can be **cut before a character** that no reference holds, in a text without tags
or before an opening bracket. -/
theorem split (h : Markup tags (a ++ c :: b)) (hsemi : c ≠ ';') (hc : isReferenceChar c = false)
    (htag : c = '<' ∨ tags = []) :
    ∃ tags₁ tags₂, tags = tags₁ ++ tags₂ ∧ Markup tags₁ a ∧ Markup tags₂ (c :: b) := by
  -- the cut runs through the text from left to right: it lies before the first item, or in the rest
  generalize ht : a ++ c :: b = t at h
  induction h generalizing a with
  | nil => cases a <;> cases ht
  | @char tags d t hopen hclose hamp hm ih =>
    cases a with
    | nil =>
      refine ⟨[], tags, rfl, .nil, ?_⟩
      rw [show c :: b = d :: t from ht]
      exact .char hopen hclose hamp hm
    | cons e a =>
      obtain ⟨rfl, rfl⟩ := List.cons.inj ht
      obtain ⟨tags₁, tags₂, rfl, h₁, h₂⟩ := ih htag rfl
      exact ⟨tags₁, tags₂, rfl, .char hopen hclose hamp h₁, h₂⟩
  | @reference tags inside t hr hm ih =>
    have hu : '&' :: inside ++ ';' :: t = ('&' :: inside ++ [';']) ++ t := by simp
    have hmem : c ∉ ('&' :: inside ++ [';']).tail := by
      simpa [hsemi] using hr.not_mem hc
    rcases exists_of_append_eq (hu ▸ ht.symm) hmem with rfl | ⟨a', rfl, rfl⟩
    · refine ⟨[], tags, rfl, .nil, ?_⟩
      rw [show c :: b = '&' :: inside ++ ';' :: t from ht]
      exact .reference hr hm
    · obtain ⟨tags₁, tags₂, rfl, h₁, h₂⟩ := ih htag rfl
      refine ⟨tags₁, tags₂, rfl, ?_, h₂⟩
      rw [List.append_assoc, List.singleton_append]
      exact .reference hr h₁
  | @tag tags tag t htag' hm ih =>
    -- a tag has no bracket inside, so that the cut lies before it or behind it
    obtain rfl : c = '<' := htag.resolve_right (List.cons_ne_nil _ _)
    obtain ⟨inner, rfl, hlt, -⟩ := htag'.shape
    rcases exists_of_append_eq ht.symm (by simpa using hlt) with rfl | ⟨a', rfl, rfl⟩
    · refine ⟨[], _, rfl, .nil, ?_⟩
      rw [show '<' :: b = '<' :: inner ++ ['>'] ++ t from ht]
      exact .tag htag' hm
    · obtain ⟨tags₁, tags₂, rfl, h₁, h₂⟩ := ih (.inl rfl) rfl
      exact ⟨_ :: tags₁, tags₂, rfl, .tag htag' h₁, h₂⟩

/-- A sound text can be cut **before an opening bracket**. -/
theorem split_open (h : Markup tags (a ++ '<' :: b)) :
    ∃ tags₁ tags₂, tags = tags₁ ++ tags₂ ∧ Markup tags₁ a ∧ Markup tags₂ ('<' :: b) :=
  h.split (by decide) (by decide) (.inl rfl)

/-- **Character data** can be cut before a character that no reference holds. -/
theorem split_data (h : Markup [] (a ++ c :: b)) (hsemi : c ≠ ';')
    (hc : isReferenceChar c = false) : Markup [] a ∧ Markup [] (c :: b) := by
  obtain ⟨tags₁, tags₂, htags, ha, hb⟩ := h.split hsemi hc (.inr rfl)
  obtain ⟨rfl, rfl⟩ := List.append_eq_nil_iff.1 htags.symm
  exact ⟨ha, hb⟩

/-- A sound text can be cut **behind a closing bracket**. -/
theorem split_close (h : Markup tags (a ++ '>' :: b)) :
    ∃ tags₁ tags₂, tags = tags₁ ++ tags₂ ∧ Markup tags₁ (a ++ ['>']) ∧ Markup tags₂ b := by
  -- as before, but now the first item may end at the cut
  generalize ht : a ++ '>' :: b = t at h
  induction h generalizing a with
  | nil => cases a <;> cases ht
  | @char tags d t hopen hclose hamp hm ih =>
    cases a with
    | nil => exact absurd (List.cons.inj ht).1.symm hclose
    | cons e a =>
      obtain ⟨rfl, rfl⟩ := List.cons.inj ht
      obtain ⟨tags₁, tags₂, rfl, h₁, h₂⟩ := ih rfl
      exact ⟨tags₁, tags₂, rfl, .char hopen hclose hamp h₁, h₂⟩
  | @reference tags inside t hr hm ih =>
    have hu : '&' :: inside ++ ';' :: t = ('&' :: inside ++ [';']) ++ t := by simp
    have hmem : '>' ∉ '&' :: inside ++ [';'] := by
      simpa using hr.not_mem (c := '>') (by decide)
    rcases exists_of_append_eq_behind (hu ▸ ht.symm) fun h => hmem (List.dropLast_subset _ h) with
      ⟨hu, -⟩ | ⟨a', rfl, rfl⟩
    · rw [hu] at hmem
      exact absurd (List.mem_append_right a (List.mem_singleton_self _)) hmem
    · obtain ⟨tags₁, tags₂, rfl, h₁, h₂⟩ := ih rfl
      refine ⟨tags₁, tags₂, rfl, ?_, h₂⟩
      rw [List.append_assoc, List.append_assoc, List.singleton_append]
      exact .reference hr h₁
  | @tag tags tag t htag hm ih =>
    obtain ⟨inner, rfl, -, hgt⟩ := htag.shape
    have hmem : '>' ∉ ('<' :: inner ++ ['>']).dropLast := by
      rw [List.dropLast_concat]
      simpa using hgt
    rcases exists_of_append_eq_behind ht.symm hmem with ⟨hu, rfl⟩ | ⟨a', rfl, rfl⟩
    · exact ⟨[_], tags, rfl, hu ▸ single htag, hm⟩
    · obtain ⟨tags₁, tags₂, rfl, h₁, h₂⟩ := ih rfl
      refine ⟨_ :: tags₁, tags₂, rfl, ?_, h₂⟩
      rw [List.append_assoc]
      exact .tag htag h₁

/-! ### Taking apart -/

theorem of_char (h : Markup tags (c :: t)) (hopen : c ≠ '<') (hamp : c ≠ '&') :
    c ≠ '>' ∧ Markup tags t := by
  generalize ht : c :: t = u at h
  cases h with
  | nil => cases ht
  | char _ hclose _ h =>
    obtain ⟨rfl, rfl⟩ := List.cons.inj ht
    exact ⟨hclose, h⟩
  | reference => exact absurd (List.cons.inj ht).1 hamp
  | tag htag =>
    obtain ⟨inner, rfl, -⟩ := htag.shape
    exact absurd (List.cons.inj ht).1 hopen

theorem of_amp (h : Markup tags ('&' :: t)) :
    ∃ inside u, t = inside ++ ';' :: u ∧ Resolves inside ∧ Markup tags u := by
  generalize ht : '&' :: t = v at h
  cases h with
  | nil => cases ht
  | char _ _ hamp => exact absurd (List.cons.inj ht).1.symm hamp
  | reference hr h => exact ⟨_, _, (List.cons.inj ht).2, hr, h⟩
  | tag htag =>
    obtain ⟨inner, rfl, -⟩ := htag.shape
    exact absurd (List.cons.inj ht).1 (by decide)

theorem of_open (h : Markup tags ('<' :: t)) :
    ∃ tag u tags', '<' :: t = tag ++ u ∧ tags = tag :: tags' ∧ WholeTag tag ∧ Markup tags' u := by
  generalize ht : '<' :: t = v at h
  cases h with
  | nil => cases ht
  | char hopen => exact absurd (List.cons.inj ht).1.symm hopen
  | reference => exact absurd (List.cons.inj ht).1 (by decide)
  | tag htag h => exact ⟨_, _, _, rfl, rfl, htag, h⟩

/-- Character data begins with no bracket. -/
theorem ne_open_of_data (h : Markup [] (c :: t)) : c ≠ '<' := by
  rintro rfl
  obtain ⟨_, _, _, -, htags, -⟩ := h.of_open
  cases htags

/-- Two cuts at the first character of one kind are the same. -/
theorem eq_of_append_cons_eq {a b t u : Text} {c : Char} (h : a ++ c :: t = b ++ c :: u)
    (ha : c ∉ a) (hb : c ∉ b) : a = b ∧ t = u := by
  rcases exists_of_append_eq h fun hmem => ha (List.mem_of_mem_tail hmem) with rfl | ⟨b', rfl, ht⟩
  · cases a with
    | nil => exact ⟨rfl, (List.cons.inj h).2⟩
    | cons d a => exact absurd (List.cons.inj h).1 fun hd => ha (hd ▸ List.mem_cons_self ..)
  · cases b' with
    | nil => exact ⟨(List.append_nil a).symm, (List.cons.inj ht).2⟩
    | cons d b' =>
      obtain ⟨rfl, -⟩ := List.cons.inj ht
      exact absurd (List.mem_append_right a (List.mem_cons_self ..)) hb

/-- Two whole tags at the head of one text are the same. -/
theorem eq_of_tag_append_eq {tag tag' t u : Text} (h : tag ++ t = tag' ++ u) (htag : WholeTag tag)
    (htag' : WholeTag tag') : tag = tag' ∧ t = u := by
  obtain ⟨inner, rfl, -, hgt⟩ := htag.shape
  obtain ⟨inner', rfl, -, hgt'⟩ := htag'.shape
  simp only [List.append_assoc, List.cons_append, List.cons.injEq, true_and, List.nil_append] at h
  obtain ⟨rfl, rfl⟩ := eq_of_append_cons_eq h hgt hgt'
  exact ⟨rfl, rfl⟩

/-- **What follows a sound text** in a sound text is sound. -/
theorem cancel (h : Markup tags a) (h' : Markup tags' (a ++ b)) :
    ∃ tags₂, tags' = tags ++ tags₂ ∧ Markup tags₂ b := by
  -- both texts begin with the same items, which are taken off one by one
  induction h generalizing tags' with
  | nil => exact ⟨tags', rfl, h'⟩
  | char hopen _ hamp _ ih => exact ih (h'.of_char hopen hamp).2
  | @reference tags inside t hr _ ih =>
    obtain ⟨inside', u, heq, hr', h'⟩ := h'.of_amp
    have heq' : inside ++ ';' :: (t ++ b) = inside' ++ ';' :: u := by simpa using heq
    obtain ⟨rfl, rfl⟩ := eq_of_append_cons_eq heq' (hr.not_mem (by decide)) (hr'.not_mem (by decide))
    exact ih h'
  | @tag tags tag t htag _ ih =>
    obtain ⟨inner, hinner, -⟩ := htag.shape
    rw [hinner, List.append_assoc] at h'
    obtain ⟨tag', u, tags'', heq, rfl, htag', h'⟩ := h'.of_open
    obtain ⟨rfl, rfl⟩ := eq_of_tag_append_eq (t := t ++ b) (by rw [← heq, hinner]; simp) htag htag'
    obtain ⟨tags₂, rfl, h₂⟩ := ih h'
    exact ⟨tags₂, rfl, h₂⟩

/-- The tags of a sound text are determined. -/
theorem tags_unique (h : Markup tags t) (h' : Markup tags' t) : tags = tags' := by
  -- what is left of the text when it is taken off itself is empty, and so has no tags
  obtain ⟨tags₂, rfl, h₂⟩ := h.cancel (b := []) (by rwa [List.append_nil])
  generalize hnil : ([] : Text) = v at h₂
  cases h₂ with
  | nil => rw [List.append_nil]
  | char => cases hnil
  | reference => cases hnil
  | tag htag =>
    obtain ⟨inner, rfl, -⟩ := htag.shape
    cases hnil

/-- A character that ends neither a reference nor a tag can be taken from the end. -/
theorem of_concat (h : Markup tags (a ++ [c])) (hclose : c ≠ '>') (hsemi : c ≠ ';') :
    Markup tags a := by
  generalize ht : a ++ [c] = t at h
  induction h generalizing a with
  | nil => exact absurd ht (List.append_ne_nil_of_right_ne_nil _ (List.cons_ne_nil _ _))
  | char hopen hclose hamp h ih =>
    cases a with
    | nil =>
      obtain ⟨rfl, rfl⟩ := List.cons.inj ht
      exact h
    | cons d a =>
      obtain ⟨rfl, rfl⟩ := List.cons.inj ht
      exact .char hopen hclose hamp (ih rfl)
  | @reference tags inside t hr h ih =>
    -- the last character is the end of the reference, or it stands behind it
    cases List.eq_nil_or_concat' t with
    | inl hnil =>
      subst hnil
      have hends : a ++ [c] = ('&' :: inside) ++ [';'] := ht
      exact absurd (List.append_inj' hends rfl).2 fun h => hsemi (List.cons.inj h).1
    | inr hsnoc =>
      obtain ⟨u, d, rfl⟩ := hsnoc
      have heq : a ++ [c] = ('&' :: inside ++ ';' :: u) ++ [d] := by simpa using ht
      obtain ⟨rfl, hcd⟩ := List.append_inj' heq rfl
      exact .reference hr (ih (by rw [(List.cons.inj hcd).1]))
  | @tag tags tag t htag h ih =>
    cases List.eq_nil_or_concat' t with
    | inl hnil =>
      subst hnil
      obtain ⟨inner, rfl, -⟩ := htag.shape
      have hends : a ++ [c] = ('<' :: inner) ++ ['>'] := by rw [ht, List.append_nil]
      exact absurd (List.append_inj' hends rfl).2 fun h => hclose (List.cons.inj h).1
    | inr hsnoc =>
      obtain ⟨u, d, rfl⟩ := hsnoc
      rw [← List.append_assoc] at ht
      obtain ⟨rfl, hcd⟩ := List.append_inj' ht rfl
      exact .tag htag (ih (by rw [(List.cons.inj hcd).1]))

end Markup

end MailMerge
