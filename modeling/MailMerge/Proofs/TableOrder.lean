import Mathlib.Data.List.Sublists
import MailMerge.Placeholder.Substitute
import MailMerge.Proofs.Segments

/-!
# The order of a substitution table

Bare names are tried in an order of their own: longer ones first. Sorting is stable, so that of the
entries with one name the one that a lookup finds stays the first, and the longest form that begins
a text is found before all shorter ones, whatever other names compete with it.

* `find?_mergeSort` — sorting keeps the first entry of each kind;
* `Substitutions.lookup_ordered` — the ordered entries give each name the value that it has;
* `IsFormOf` says how a name is spelled in character data, and `IsFormOf.name_unique` that each
  spelling is of one name only;
* `Substitutions.LongestForm` is the longest form of a table at the head of a text;
* `Substitutions.find?_formsInOrder_eq_some_iff` — the form that is tried first is the longest one.
-/

namespace MailMerge

/-! ### Stable sorting -/

section Stable

variable {α : Type} {le : α → α → Bool} {p : α → Bool}

/-- Sorting **keeps the order** of entries none of which has to stand before another. -/
theorem filter_mergeSort (trans : ∀ a b c, le a b = true → le b c = true → le a c = true)
    (total : ∀ a b, (le a b || le b a) = true)
    (hle : ∀ a b, p a = true → p b = true → le a b = true)
    (l : List α) : (l.mergeSort le).filter p = l.filter p := by
  have hpairwise : (l.filter p).Pairwise fun a b => le a b = true :=
    List.pairwise_iff_forall_sublist.2 fun h =>
      have ha := h.subset (List.mem_cons_self ..)
      have hb := h.subset (List.mem_cons_of_mem _ (List.mem_singleton_self _))
      hle _ _ (List.mem_filter.1 ha).2 (List.mem_filter.1 hb).2
  have hsublist : (l.filter p).Sublist ((l.mergeSort le).filter p) := by
    have h := (List.sublist_mergeSort trans total hpairwise List.filter_sublist).filter p
    rwa [List.filter_eq_self.2 fun a ha => (List.mem_filter.1 ha).2] at h
  exact (hsublist.eq_of_length ((List.mergeSort_perm l le).filter p).length_eq.symm).symm

/-- Sorting **keeps the first** of them. -/
theorem find?_mergeSort (trans : ∀ a b c, le a b = true → le b c = true → le a c = true)
    (total : ∀ a b, (le a b || le b a) = true)
    (hle : ∀ a b, p a = true → p b = true → le a b = true)
    (l : List α) : (l.mergeSort le).find? p = l.find? p := by
  rw [← List.head?_filter, ← List.head?_filter, filter_mergeSort trans total hle]

end Stable

/-! ### The order of names -/

theorem Text.le_refl (t : Text) : Text.le t t = true := by
  induction t with
  | nil => rfl
  | cons c t ih => rw [Text.le, if_pos rfl, ih]

theorem Text.le_total (s t : Text) : (Text.le s t || Text.le t s) = true := by
  induction s generalizing t with
  | nil => cases t <;> rfl
  | cons a s ih =>
    cases t with
    | nil => rfl
    | cons b t =>
      by_cases hab : a = b
      · rw [hab, Text.le, Text.le, if_pos rfl, if_pos rfl, ih]
      · rw [Text.le, Text.le, if_neg hab, if_neg (Ne.symm hab), Bool.or_eq_true, decide_eq_true_eq,
          decide_eq_true_eq]
        refine Classical.or_iff_not_imp_left.2 fun h => Char.not_le.1 fun hle => ?_
        exact hab (Char.le_antisymm hle (Char.not_lt.1 h))

theorem Text.le_trans {r s t : Text} (hrs : Text.le r s = true) (hst : Text.le s t = true) :
    Text.le r t = true := by
  induction r generalizing s t with
  | nil => cases t <;> rfl
  | cons a r ih =>
    cases s with
    | nil => cases hrs
    | cons b s =>
      cases t with
      | nil => cases hst
      | cons c t =>
        rw [Text.le] at hrs hst ⊢
        -- the first characters decide, unless they are the same in all three texts
        by_cases hab : a = b
        · subst hab
          by_cases hac : a = c
          · rw [if_pos rfl] at hrs
            rw [if_pos hac] at hst ⊢
            exact ih hrs hst
          · rw [if_neg hac] at hst ⊢
            exact hst
        · rw [if_neg hab, decide_eq_true_eq] at hrs
          by_cases hbc : b = c
          · rw [← hbc, if_neg hab, decide_eq_true_eq]
            exact hrs
          · rw [if_neg hbc, decide_eq_true_eq] at hst
            have hac := Char.lt_trans hrs hst
            rw [if_neg (Char.ne_of_lt hac), decide_eq_true_eq]
            exact hac

namespace Substitutions

theorem nameOrder_total (a b : Text × Text) : (nameOrder a b || nameOrder b a) = true := by
  unfold nameOrder
  rcases Nat.lt_trichotomy (Text.utf8Size a.1) (Text.utf8Size b.1) with h | h | h
  · simp [Nat.ne_of_lt h, Nat.ne_of_gt h, h]
  · simpa [h] using Text.le_total a.1 b.1
  · simp [Nat.ne_of_lt h, Nat.ne_of_gt h, h]

theorem nameOrder_trans (a b c : Text × Text) (hab : nameOrder a b = true)
    (hbc : nameOrder b c = true) : nameOrder a c = true := by
  unfold nameOrder at *
  dsimp only at *
  by_cases h : Text.utf8Size a.1 = Text.utf8Size b.1
  · rw [if_pos h] at hab
    rw [h]
    split
    case isTrue hsame =>
      rw [if_pos hsame] at hbc
      exact Text.le_trans hab hbc
    case isFalse hdiffer =>
      rwa [if_neg hdiffer] at hbc
  · rw [if_neg h, decide_eq_true_eq] at hab
    have hle : Text.utf8Size c.1 ≤ Text.utf8Size b.1 := by
      split at hbc
      case isTrue hsame => exact Nat.le_of_eq hsame.symm
      case isFalse => exact Nat.le_of_lt (of_decide_eq_true hbc)
    have hlt := Nat.lt_of_le_of_lt hle hab
    rw [if_neg (Nat.ne_of_gt hlt), decide_eq_true_eq]
    exact hlt

/-! ### Lookups -/

theorem lookup_eq_find? {entries : List (Text × Text)} (name : Text) :
    entries.lookup name = (entries.find? fun e => name == e.1).map (·.2) := by
  induction entries with
  | nil => rfl
  | cons e entries ih =>
    rw [List.lookup_cons, List.find?_cons, ih]
    cases name == e.1 <;> rfl

/-- The ordered entries give a name **the value that it has**. -/
theorem lookup_ordered (s : Substitutions) (name : Text) :
    s.ordered.lookup name = s.lookup name := by
  rw [ordered, lookup, List.lookup_append, List.lookup_append]
  cases hstructural : s.structural.lookup name with
  | some value => rw [Option.some_or, Option.some_or]
  | none =>
    rw [Option.none_or, Option.none_or, lookup_eq_find?, lookup_eq_find?,
      find?_mergeSort nameOrder_trans nameOrder_total, List.find?_filter]
    · -- no entry of this name is hidden
      congr 2
      funext e
      rw [Bool.eq_iff_iff, decide_eq_true_eq, beq_iff_eq, and_iff_right_iff_imp]
      rintro rfl
      rw [hstructural]
      rfl
    · intro a b ha hb
      rw [nameOrder, ← beq_iff_eq.1 ha, ← beq_iff_eq.1 hb]
      simpa using Text.le_refl name

end Substitutions

/-! ### Escaped names -/

theorem escapeMarkup_cons (c : Char) (t : Text) :
    escapeMarkup (c :: t) = escapeMarkupChar c ++ escapeMarkup t := List.flatMap_cons

theorem escapeText_cons (c : Char) (t : Text) :
    escapeText (c :: t) = escapeTextChar c ++ escapeText t := List.flatMap_cons

theorem unescape?_cons {c : Char} (h : c ≠ '&') (t : Text) :
    unescape? (c :: t) = (unescape? t).map (c :: ·) := by
  rw [unescape?, if_neg h]
  all_goals exact fun _ hc _ => absurd hc h

theorem unescape?_escapeMarkupChar (c : Char) (t : Text) :
    unescape? (escapeMarkupChar c ++ t) = (unescape? t).map (c :: ·) := by
  unfold escapeMarkupChar
  split
  case h_6 hamp _ _ _ _ => exact unescape?_cons hamp t
  all_goals rfl

theorem unescape?_escapeTextChar (c : Char) (t : Text) :
    unescape? (escapeTextChar c ++ t) = (unescape? t).map (c :: ·) := by
  unfold escapeTextChar
  split
  case h_4 hamp _ _ => exact unescape?_cons hamp t
  all_goals rfl

/-- Resolving the references **takes escaping back**. -/
theorem unescape?_escapeMarkup (t : Text) : unescape? (escapeMarkup t) = some t := by
  induction t with
  | nil => rfl
  | cons c t ih =>
    rw [escapeMarkup_cons, unescape?_escapeMarkupChar, ih, Option.map_some]

theorem unescape?_escapeText (t : Text) : unescape? (escapeText t) = some t := by
  induction t with
  | nil => rfl
  | cons c t ih =>
    rw [escapeText_cons, unescape?_escapeTextChar, ih, Option.map_some]

/-! ### Forms in order -/

theorem longerForm_total (a b : Text × Text) : (longerForm a b || longerForm b a) = true := by
  rw [longerForm, longerForm, Bool.or_eq_true, decide_eq_true_eq, decide_eq_true_eq]
  exact Nat.le_total _ _

theorem longerForm_trans (a b c : Text × Text) (hab : longerForm a b = true)
    (hbc : longerForm b c = true) : longerForm a c = true := by
  rw [longerForm, decide_eq_true_eq] at *
  exact Nat.le_trans hbc hab

theorem utf8Size_pos {t : Text} (h : t ≠ []) : 0 < Text.utf8Size t := by
  obtain ⟨c, t, rfl⟩ := List.exists_cons_of_ne_nil h
  exact Nat.add_pos_left (Char.utf8Size_pos c) _

/-- Of two beginnings of one text, the one with more bytes **has more characters**. -/
theorem length_le_of_utf8Size_le {t u v : Text} (hu : u <+: t) (hv : v <+: t)
    (h : Text.utf8Size u ≤ Text.utf8Size v) : u.length ≤ v.length := by
  rcases List.prefix_or_prefix_of_prefix hu hv with hshort | ⟨w, rfl⟩
  · exact hshort.length_le
  · cases w with
    | nil => rw [List.append_nil]
    | cons c w =>
      have := utf8Size_pos (List.cons_ne_nil c w)
      rw [Text.utf8Size_append] at h
      omega

/-- The **forms of a name** in character data: `& < >` are escaped in them, and quotes are left as
they are or escaped all of them. An empty name has none. -/
def IsFormOf (name form : Text) : Prop :=
  name ≠ [] ∧ (form = escapeText name ∨ form = escapeMarkup name)

namespace IsFormOf

variable {name name' form : Text}

/-- A form **spells its name**. -/
theorem unescape?_eq (h : IsFormOf name form) : unescape? form = some name := by
  rcases h.2 with rfl | rfl
  · exact unescape?_escapeText name
  · exact unescape?_escapeMarkup name

theorem ne_nil (h : IsFormOf name form) : form ≠ [] := by
  rintro rfl
  exact h.1 (Option.some.inj h.unescape?_eq).symm

theorem name_unique (h : IsFormOf name form) (h' : IsFormOf name' form) : name = name' :=
  Option.some.inj (h.unescape?_eq.symm.trans h'.unescape?_eq)

end IsFormOf

namespace Substitutions

variable {s : Substitutions} {name form value t : Text}

/-- Whether a table **gives a name a value**: a structural entry does, or else an ordinary one. -/
def Gives (s : Substitutions) (name value : Text) : Prop :=
  s.structural.lookup name = some value ∨
    (s.structural.lookup name = none ∧ s.ordinary.lookup name = some value)

theorem lookup_eq_some_iff : s.lookup name = some value ↔ s.Gives name value := by
  rw [lookup, List.lookup_append, Option.or_eq_some_iff, Gives]

/-- Whether a table has a **form with a value**: that of the name which has the form. -/
def HasForm (s : Substitutions) (form value : Text) : Prop :=
  ∃ name, IsFormOf name form ∧ s.Gives name value

/-- The **longest form** of a table that begins a text. -/
structure LongestForm (s : Substitutions) (t form value : Text) : Prop where
  hasForm : s.HasForm form value
  begins : form <+: t
  longest : ∀ other value', s.HasForm other value' → other <+: t → other.length ≤ form.length

theorem HasForm.value_unique {value' : Text} (h : s.HasForm form value)
    (h' : s.HasForm form value') : value = value' := by
  obtain ⟨name, hname, hvalue⟩ := h
  obtain ⟨name', hname', hvalue'⟩ := h'
  obtain rfl := hname.name_unique hname'
  exact Option.some.inj ((lookup_eq_some_iff.2 hvalue).symm.trans (lookup_eq_some_iff.2 hvalue'))

/-- There is **one longest form** at most, with one value. -/
theorem LongestForm.unique {form' value' : Text} (h : s.LongestForm t form value)
    (h' : s.LongestForm t form' value') : form = form' ∧ value = value' := by
  have hlength := Nat.le_antisymm (h'.longest _ _ h.hasForm h.begins)
    (h.longest _ _ h'.hasForm h'.begins)
  obtain ⟨rest, rfl⟩ := h.begins
  obtain ⟨rest', hrest'⟩ := h'.begins
  obtain rfl := (List.append_inj hrest' hlength.symm).1.symm
  exact ⟨rfl, h.hasForm.value_unique h'.hasForm⟩

/-- The first entry **of a form** among the forms of a table has the value that its name has. -/
theorem find?_nameForms (h : IsFormOf name form) :
    (nameForms s).find? (fun entry => entry.1 == form) = (s.lookup name).map (form, ·) := by
  have hentry (e : Text × Text) : (if e.1.isEmpty then []
        else [(escapeText e.1, e.2), (escapeMarkup e.1, e.2)]).find?
        (fun entry => entry.1 == form) = if name == e.1 then some (form, e.2) else none := by
    by_cases heq : name = e.1
    · have hne : e.1.isEmpty = false := by rw [← heq, List.isEmpty_eq_false_iff]; exact h.1
      rw [hne, ← heq]
      rcases h.2 with hform | hform
      · simp [hform]
      · by_cases hsame : escapeText name = form
        · simp [hsame]
        · simp [hform, hform ▸ hsame]
    · rw [beq_eq_false_iff_ne.2 heq, if_neg Bool.false_ne_true]
      -- the forms of another name are others
      refine List.find?_eq_none.2 fun entry hmem hform => heq ?_
      rw [beq_iff_eq] at hform
      split at hmem
      case isTrue => cases hmem
      case isFalse hne =>
        refine h.name_unique ⟨fun hnil => hne (by rw [hnil]; rfl), ?_⟩
        rcases List.mem_cons.1 hmem with rfl | hmem
        · exact .inl hform.symm
        · rw [List.mem_singleton.1 hmem] at hform
          exact .inr hform.symm
  rw [← lookup_ordered, nameForms, List.find?_flatMap]
  simp only [hentry]
  induction s.ordered with
  | nil => rfl
  | cons e entries ih =>
    rw [List.lookup_cons, List.findSome?_cons]
    cases name == e.1 with
    | true => rfl
    | false => exact ih

theorem find?_formsInOrder_of_isFormOf (h : IsFormOf name form) :
    (formsInOrder s).find? (fun entry => entry.1 == form) = (s.lookup name).map (form, ·) := by
  rw [formsInOrder, find?_mergeSort longerForm_trans longerForm_total, find?_nameForms h]
  intro a b ha hb
  rw [longerForm, beq_iff_eq.1 ha, beq_iff_eq.1 hb, decide_eq_true_eq]

/-- The forms that are tried are **those of the table**. -/
theorem HasForm.mem_formsInOrder (h : s.HasForm form value) : (form, value) ∈ formsInOrder s := by
  obtain ⟨name, hname, hvalue⟩ := h
  refine List.mem_of_find?_eq_some (p := fun entry => entry.1 == form) ?_
  rw [find?_formsInOrder_of_isFormOf hname, lookup_eq_some_iff.2 hvalue, Option.map_some]

theorem exists_isFormOf_of_mem (h : (form, value) ∈ formsInOrder s) :
    ∃ name, IsFormOf name form ∧ (s.lookup name).isSome := by
  rw [formsInOrder, List.mem_mergeSort, nameForms, List.mem_flatMap] at h
  obtain ⟨⟨name, v⟩, hentry, hmem⟩ := h
  dsimp only at hmem
  split at hmem
  case isTrue => cases hmem
  case isFalse hne =>
    refine ⟨name, ⟨fun hnil => hne (by rw [hnil]; rfl), ?_⟩, ?_⟩
    · rcases List.mem_cons.1 hmem with heq | hmem
      · exact .inl (Prod.mk.inj heq).1
      · exact .inr (Prod.mk.inj (List.mem_singleton.1 hmem)).1
    · rw [← lookup_ordered, List.lookup_isSome_iff]
      exact ⟨_, hentry, beq_self_eq_true _⟩

theorem longestForm_of_find?
    (h : (formsInOrder s).find? (fun entry => Text.startsWith entry.1 t) = some (form, value)) :
    s.LongestForm t form value := by
  have hsorted : (formsInOrder s).Pairwise fun a b => longerForm a b = true :=
    List.pairwise_mergeSort longerForm_trans longerForm_total _
  obtain ⟨hstart, before, behind, hforms, hbefore⟩ := List.find?_eq_some_iff_append.1 h
  have hbegins : form <+: t := by
    obtain ⟨rest, hrest⟩ := Text.startsWith_iff.1 hstart
    exact ⟨rest, hrest.symm⟩
  have hnot {other v : Text} (hmem : (other, v) ∈ before) : ¬ other <+: t := by
    rintro ⟨rest, hrest⟩
    have hstarts := hbefore _ hmem
    rw [Text.startsWith_iff.2 ⟨rest, hrest.symm⟩] at hstarts
    cases hstarts
  refine ⟨?_, hbegins, fun other v hother hstarts => ?_⟩
  · -- no entry before it has the same form, for that would have been taken
    obtain ⟨name, hname, -⟩ := exists_isFormOf_of_mem (List.mem_of_find?_eq_some h)
    have hfound : (formsInOrder s).find? (fun entry => entry.1 == form) = some (form, value) := by
      refine List.find?_eq_some_iff_append.2 ⟨beq_self_eq_true _, before, behind, hforms, ?_⟩
      rintro ⟨other, v⟩ hmem
      rw [Bool.not_eq_true', beq_eq_false_iff_ne]
      rintro rfl
      exact hnot hmem hbegins
    rw [find?_formsInOrder_of_isFormOf hname] at hfound
    obtain ⟨v, hv, heq⟩ := Option.map_eq_some_iff.1 hfound
    obtain rfl := (Prod.mk.inj heq).2
    exact ⟨name, hname, lookup_eq_some_iff.1 hv⟩
  · -- another form that begins the text stands behind it, and so is not longer
    have hmem := hother.mem_formsInOrder
    rw [hforms] at hmem hsorted
    rcases List.mem_append.1 hmem with hmem | hmem
    · exact absurd hstarts (hnot hmem)
    · rcases List.mem_cons.1 hmem with heq | hmem
      · rw [(Prod.mk.inj heq).1]
      · have hle := (List.pairwise_cons.1 (List.pairwise_append.1 hsorted).2.1).1 _ hmem
        exact length_le_of_utf8Size_le hstarts hbegins (of_decide_eq_true hle)

/-- What is **tried first** at the head of a text is the longest form that begins it. -/
theorem find?_formsInOrder_eq_some_iff :
    (formsInOrder s).find? (fun entry => Text.startsWith entry.1 t) = some (form, value) ↔
      s.LongestForm t form value := by
  refine ⟨longestForm_of_find?, fun h => ?_⟩
  cases hfound : (formsInOrder s).find? (fun entry => Text.startsWith entry.1 t) with
  | none =>
    obtain ⟨rest, hrest⟩ := h.begins
    have hnot := List.find?_eq_none.1 hfound _ h.hasForm.mem_formsInOrder
    exact absurd (Text.startsWith_iff.2 ⟨rest, hrest.symm⟩) hnot
  | some entry =>
    -- what is found is the longest form, and there is only one
    obtain ⟨rfl, rfl⟩ := h.unique (longestForm_of_find? hfound)
    rfl

/-- Nothing is tried with success where **no form begins**. -/
theorem find?_formsInOrder_eq_none_iff :
    (formsInOrder s).find? (fun entry => Text.startsWith entry.1 t) = none ↔
      ∀ form value, s.HasForm form value → ¬ form <+: t := by
  rw [List.find?_eq_none]
  constructor
  · rintro h form value hform ⟨rest, hrest⟩
    exact h _ hform.mem_formsInOrder (Text.startsWith_iff.2 ⟨rest, hrest.symm⟩)
  · rintro h ⟨form, v⟩ hmem hstart
    obtain ⟨name, hname, hsome⟩ := exists_isFormOf_of_mem hmem
    obtain ⟨value, hvalue⟩ := Option.isSome_iff_exists.1 hsome
    obtain ⟨rest, hrest⟩ := Text.startsWith_iff.1 hstart
    exact h form value ⟨name, hname, lookup_eq_some_iff.1 hvalue⟩ ⟨rest, hrest.symm⟩

end Substitutions

end MailMerge
