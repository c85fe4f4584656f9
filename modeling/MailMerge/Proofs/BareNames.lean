import MailMerge.Proofs.FilledTemplate
import MailMerge.Proofs.TableOrder

/-!
# The scan for bare names

Bare names have no delimiters, so that what counts as a name is decided by a scan. At each place of
a text the longest form of a name wins over the shorter ones, a name wins over a reference, and a
reference over a single character. Names inside a reference are therefore never seen, unless the
name begins where the reference does; and what has been put in is behind the scan.

The scan is given as a relation with one rule for each of the three, none of which mentions an order
of trying. The forms are tried longest first, and the first that is found is the longest
(`Substitutions.find?_formsInOrder_eq_some_iff`); from this the two are equal, by the recursion of
the one and by induction on the other.

* `BareScan` is the scan;
* `substituteData_eq_of_bareScan` and `bareScan_substituteData` — the two directions;
* `substitute_bare_append_tag` — substituting goes from tag to tag;
* `substitute_bare_eq_iff_bareScan` — in character data, it is the scan;
* `substitute_congr` — substituting depends on the values that names have, and on nothing else.
-/

namespace MailMerge

/-! ### The specification -/

/-- The **scan for bare names**: what it makes of a text, from left to right.

* `name` — the longest form that begins here is replaced by the value of its name;
* `reference` — where no form begins, a reference is copied whole;
* `char` — where neither begins, a character is copied. -/
inductive BareScan (s : Substitutions) : Text → Text → Prop
  | nil : BareScan s [] []
  | name {form value rest out : Text} (h : s.LongestForm (form ++ rest) form value) :
      BareScan s rest out → BareScan s (form ++ rest) (value ++ out)
  | reference {u rest out : Text}
      (hforms : ∀ form value, s.HasForm form value → ¬ form <+: u ++ rest)
      (h : IsReference u) : BareScan s rest out → BareScan s (u ++ rest) (u ++ out)
  | char {c : Char} {rest out : Text}
      (hforms : ∀ form value, s.HasForm form value → ¬ form <+: c :: rest)
      (h : ∀ u, IsReference u → ¬ u <+: c :: rest) :
      BareScan s rest out → BareScan s (c :: rest) (c :: out)

variable {s s' : Substitutions} {form value t u out data tag : Text} {c : Char}

/-! ### The steps of substituting -/

theorem Substitutions.HasForm.ne_nil (h : s.HasForm form value) : form ≠ [] := by
  obtain ⟨name, hname, -⟩ := h
  exact hname.ne_nil

theorem substituteData_name (h : s.LongestForm (form ++ t) form value) :
    substituteData (formsInOrder s) (form ++ t) = value ++ substituteData (formsInOrder s) t := by
  have hfound := Substitutions.find?_formsInOrder_eq_some_iff.2 h
  obtain ⟨c, form, rfl⟩ := List.exists_cons_of_ne_nil h.hasForm.ne_nil
  rw [List.cons_append] at hfound ⊢
  rw [substituteData, hfound]
  dsimp only
  rw [List.length_cons, Nat.add_sub_cancel, List.drop_left]

theorem substituteData_reference (hforms : ∀ form value, s.HasForm form value → ¬ form <+: u ++ t)
    (h : IsReference u) :
    substituteData (formsInOrder s) (u ++ t) = u ++ substituteData (formsInOrder s) t := by
  have hfound := Substitutions.find?_formsInOrder_eq_none_iff.2 hforms
  have hmatch := h.reference_append t
  obtain ⟨c, u, rfl⟩ := List.exists_cons_of_ne_nil h.ne_nil
  rw [List.cons_append] at hfound hmatch ⊢
  rw [substituteData, hfound]
  dsimp only
  rw [hmatch, List.length_cons]
  dsimp only
  rw [List.take_left, List.drop_left]

theorem substituteData_char (hforms : ∀ form value, s.HasForm form value → ¬ form <+: c :: t)
    (h : ∀ u, IsReference u → ¬ u <+: c :: t) :
    substituteData (formsInOrder s) (c :: t) = c :: substituteData (formsInOrder s) t := by
  rw [substituteData, Substitutions.find?_formsInOrder_eq_none_iff.2 hforms,
    reference_eq_zero_iff.2 h]

/-! ### The two directions -/

/-- What the scan makes of a text **is what substituting makes of it**. -/
theorem substituteData_eq_of_bareScan (h : BareScan s t out) :
    substituteData (formsInOrder s) t = out := by
  induction h with
  | nil => rw [substituteData]
  | name h _ ih => rw [substituteData_name h, ih]
  | reference hforms h _ ih => rw [substituteData_reference hforms h, ih]
  | char hforms h _ ih => rw [substituteData_char hforms h, ih]

/-- What substituting makes of a text **the scan makes of it**. -/
theorem bareScan_substituteData (s : Substitutions) (t : Text) :
    BareScan s t (substituteData (formsInOrder s) t) := by
  -- each step takes a piece off the text, and leaves a shorter one
  induction hlen : t.length using Nat.strongRecOn generalizing t with
  | ind n ih =>
    cases t with
    | nil =>
      rw [substituteData]
      exact .nil
    | cons c t =>
      cases hfound : (formsInOrder s).find? fun entry => Text.startsWith entry.1 (c :: t) with
      | some entry =>
        have hform := Substitutions.find?_formsInOrder_eq_some_iff.1 hfound
        obtain ⟨rest, hrest⟩ := hform.begins
        rw [← hrest] at hform hlen ⊢
        have hpos := List.length_pos_of_ne_nil hform.hasForm.ne_nil
        rw [substituteData_name hform]
        exact .name hform (ih rest.length (by rw [← hlen, List.length_append]; omega) rest rfl)
      | none =>
        have hforms := Substitutions.find?_formsInOrder_eq_none_iff.1 hfound
        cases hmatch : reference (c :: t) with
        | succ k =>
          obtain ⟨u, rest, htext, hu, -⟩ := exists_of_reference hmatch
          rw [htext] at hforms hlen ⊢
          have hpos := List.length_pos_of_ne_nil hu.ne_nil
          rw [substituteData_reference hforms hu]
          exact .reference hforms hu
            (ih rest.length (by rw [← hlen, List.length_append]; omega) rest rfl)
        | zero =>
          have hreferences := reference_eq_zero_iff.1 hmatch
          rw [substituteData_char hforms hreferences]
          exact .char hforms hreferences
            (ih t.length (by rw [← hlen, List.length_cons]; omega) t rfl)

/-! ### Substituting in character data -/

theorem substitute_bare_of_data (h : '<' ∉ t) :
    substitute .bare s t = substituteData (formsInOrder s) t := by
  unfold substitute substituteBare
  dsimp only [PlaceholderConvention.delimiters?]
  rw [pieces_of_data h]
  exact flatMap_fill_dataPieces .bare s t

/-- The first run of a fragment is filled in, its first tag **stays as it is**, and so on. -/
theorem substitute_bare_append_tag (hdata : '<' ∉ data) (htag : IsTag tag) (rest : Text) :
    substitute .bare s (data ++ (tag ++ rest)) =
      substituteData (formsInOrder s) data ++ (tag ++ substitute .bare s rest) := by
  unfold substitute substituteBare
  dsimp only [PlaceholderConvention.delimiters?]
  rw [pieces_append_tag hdata htag, List.flatMap_append, List.flatMap_cons]
  congr 1
  exact flatMap_fill_dataPieces .bare s data

/-- Tables that give names the same values have **the same forms**. -/
theorem Substitutions.HasForm.congr (h : ∀ name, s.lookup name = s'.lookup name) :
    s.HasForm form value ↔ s'.HasForm form value := by
  refine exists_congr fun name => and_congr_right fun _ => ?_
  rw [← lookup_eq_some_iff, ← lookup_eq_some_iff, h]

theorem BareScan.congr (h : ∀ name, s.lookup name = s'.lookup name) (hscan : BareScan s t out) :
    BareScan s' t out := by
  have hforms {form value : Text} : s'.HasForm form value → s.HasForm form value :=
    (Substitutions.HasForm.congr h).2
  have hnone {t : Text} (hs : ∀ form value, s.HasForm form value → ¬ form <+: t) :
      ∀ form value, s'.HasForm form value → ¬ form <+: t :=
    fun form value hform => hs form value (hforms hform)
  induction hscan with
  | nil => exact .nil
  | name hform _ ih =>
    refine .name ⟨(Substitutions.HasForm.congr h).1 hform.hasForm, hform.begins, ?_⟩ ih
    exact fun other value' hother => hform.longest other value' (hforms hother)
  | reference hs hu _ ih => exact .reference (hnone hs) hu ih
  | char hs hu _ ih => exact .char (hnone hs) hu ih

/-- Substituting depends on **the values that names have** alone: not on the order of the entries,
and not on entries that others hide. -/
theorem substitute_congr (h : ∀ name, s.lookup name = s'.lookup name)
    (convention : PlaceholderConvention) (t : Text) :
    substitute convention s t = substitute convention s' t := by
  unfold substitute
  split
  case h_1 d _ => exact rewriteMatches_congr fun token _ => by rw [h]
  case h_2 =>
    refine List.flatMap_congr fun piece _ => ?_
    cases piece with
    | tag t => rfl
    | data run =>
      exact substituteData_eq_of_bareScan
        ((bareScan_substituteData s' run).congr fun name => (h name).symm)

end MailMerge
