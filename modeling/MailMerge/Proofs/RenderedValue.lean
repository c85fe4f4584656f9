import MailMerge.Placeholder.Substitute
import MailMerge.Proofs.SoundTemplate
import MailMerge.Proofs.Tables

/-!
# Rendered values

Whatever a record holds, what is put into a copy is character data: plain characters and references
that resolve. Where line feeds become line breaks, it is character data with the three tags of a
line break between its lines.

* `IsRendered` is the form of a rendered value: sound markup whose only tags are those of line
  breaks, and none if these are off;
* `isRendered_renderValue` — every value is rendered in that form;
* `Substitutions.AllValues` says that all values of a table are of some kind, and `allValues_resolve`
  that those of the table of a record are of the kind that fields are rendered to;
* `isRendered_resolve` — the values of the table of a record are rendered.
-/

namespace MailMerge

/-! ### The form of a rendered value -/

/-- The tags of a line break. -/
def breakTags : List Text := ["</w:t>", "<w:br/>", "<w:t xml:space=\"preserve\">"]

/-- Sound markup **with no tags but those of line breaks**, and with none if line breaks are off. -/
def IsRendered (lineBreaks : Bool) (t : Text) : Prop :=
  ∃ n, Markup (List.replicate n breakTags).flatten t ∧ (lineBreaks = false → n = 0)

variable {lineBreaks : Bool} {t u : Text}

theorem IsRendered.of_data (h : Markup [] t) : IsRendered lineBreaks t :=
  ⟨0, h, fun _ => rfl⟩

theorem IsRendered.append (ht : IsRendered lineBreaks t) (hu : IsRendered lineBreaks u) :
    IsRendered lineBreaks (t ++ u) := by
  obtain ⟨n, ht, hn⟩ := ht
  obtain ⟨k, hu, hk⟩ := hu
  refine ⟨n + k, ?_, fun h => by rw [hn h, hk h]⟩
  rw [← List.replicate_append_replicate, List.flatten_append]
  exact ht.append hu

theorem isRendered_nil : IsRendered lineBreaks [] := .of_data .nil

theorem isRendered_lineBreak : IsRendered true lineBreak := by
  have whole : ∀ tag ∈ breakTags, WholeTag tag := by
    have tag (inner : Text)
        (h : '>' ∉ inner ∧ (Segment.hit ('<' :: inner ++ ['>'])).isClean = true) :
        WholeTag ('<' :: inner ++ ['>']) := WholeTag.of_isClean h.2 h.1
    have hbreak : breakTags = ['<' :: "/w:t" ++ ['>'], '<' :: "w:br/" ++ ['>'],
        '<' :: "w:t xml:space=\"preserve\"" ++ ['>']] := by decide
    rw [hbreak]
    simp only [List.forall_mem_cons]
    exact ⟨tag _ (by decide), tag _ (by decide), tag _ (by decide), fun _ h => nomatch h⟩
  have htext : lineBreak = breakTags.flatten := by decide
  refine ⟨1, ?_, fun h => nomatch h⟩
  rw [List.replicate_one, List.flatten_singleton, htext]
  exact .flatten whole

/-! ### Escaping -/

theorem markup_entity (name : Text) (h : name ∈ entityNames) :
    Markup [] ('&' :: name ++ [';']) :=
  .reference (resolves_of_mem_entityNames h) .nil

/-- An escaped character is a plain character or a reference. -/
theorem markup_escapeMarkupChar (c : Char) : Markup [] (escapeMarkupChar c) := by
  unfold escapeMarkupChar
  split
  case h_1 => exact markup_entity "amp" (by decide)
  case h_2 => exact markup_entity "lt" (by decide)
  case h_3 => exact markup_entity "gt" (by decide)
  case h_4 => exact markup_entity "quot" (by decide)
  case h_5 => exact markup_entity "apos" (by decide)
  case h_6 hamp hopen hclose _ _ => exact .char hopen hclose hamp .nil

/-- An **escaped value** is character data. -/
theorem markup_escapeMarkup (t : Text) : Markup [] (escapeMarkup t) := by
  induction t with
  | nil => exact .nil
  | cons c t ih => exact (markup_escapeMarkupChar c).append ih

theorem markup_escapeText (t : Text) : Markup [] (escapeText t) := by
  induction t with
  | nil => exact .nil
  | cons c t ih =>
    refine (?_ : Markup [] (escapeTextChar c)).append ih
    unfold escapeTextChar
    split
    case h_1 => exact markup_entity "amp" (by decide)
    case h_2 => exact markup_entity "lt" (by decide)
    case h_3 => exact markup_entity "gt" (by decide)
    case h_4 hamp hopen hclose => exact .char hopen hclose hamp .nil

theorem escapeMarkup_ne_nil (h : t ≠ []) : escapeMarkup t ≠ [] := by
  obtain ⟨c, t, rfl⟩ := List.exists_cons_of_ne_nil h
  have hchar : escapeMarkupChar c ≠ [] := by
    unfold escapeMarkupChar
    split <;> exact List.cons_ne_nil _ _
  exact List.append_ne_nil_of_left_ne_nil hchar _

theorem escapeText_ne_nil (h : t ≠ []) : escapeText t ≠ [] := by
  obtain ⟨c, t, rfl⟩ := List.exists_cons_of_ne_nil h
  have hchar : escapeTextChar c ≠ [] := by
    unfold escapeTextChar
    split <;> exact List.cons_ne_nil _ _
  exact List.append_ne_nil_of_left_ne_nil hchar _

/-! ### Line breaks -/

theorem replace_cons_of_ne {first c : Char} {old new : Text} (h : c ≠ first) (t : Text) :
    Text.replace (first :: old) new (c :: t) = c :: Text.replace (first :: old) new t := by
  have hstart : Text.startsWith (first :: old) (c :: t) = false := by
    rw [Text.startsWith, Text.dropPrefix?, if_neg h.symm]
    rfl
  have hnone : ¬ (first :: old ≠ [] ∧ false = true) := by
    rintro ⟨-, h⟩
    cases h
  rw [Text.replace, hstart, if_neg hnone]

theorem replace_append_of_not_mem {first : Char} {old new v : Text} (h : first ∉ v) (t : Text) :
    Text.replace (first :: old) new (v ++ t) = v ++ Text.replace (first :: old) new t := by
  induction v with
  | nil => rfl
  | cons c v ih =>
    rw [List.cons_append, replace_cons_of_ne (List.ne_of_not_mem_cons h).symm,
      ih (List.not_mem_of_not_mem_cons h)]
    rfl

/-- Replacing a piece of character data, as an induction: the text is passed over in runs of
character data, or the piece is replaced. The piece begins with a character that no reference
holds. -/
theorem replace_induction (first : Char) (old : Text) {new : Text} (hold : Markup [] (first :: old))
    (hfirst : isReferenceChar first = false) (hamp : first ≠ '&') (hsemi : first ≠ ';')
    (P : Text → Prop) (nil : P []) (data : ∀ u t, Markup [] u → P t → P (u ++ t))
    (replaced : ∀ t, P t → P (new ++ t)) (h : Markup [] t) :
    P (Text.replace (first :: old) new t) := by
  induction hlen : t.length using Nat.strongRecOn generalizing t with
  | ind n ih =>
    cases t with
    | nil =>
      rw [Text.replace]
      exact nil
    | cons c t =>
      by_cases hstart : Text.startsWith (first :: old) (c :: t) = true
      · -- the piece is character data, so that what follows it is character data as well
        obtain ⟨rest, hrest⟩ := Option.isSome_iff_exists.1 hstart
        have ht := Text.dropPrefix?_eq_some_iff.1 hrest
        have ht' : t = old ++ rest := (List.cons.inj ht).2
        rw [Text.replace, if_pos ⟨List.cons_ne_nil _ _, hstart⟩, ht', List.length_cons,
          Nat.add_sub_cancel, List.drop_left]
        rw [ht] at h
        obtain ⟨tags, htags, hmarkup⟩ := hold.cancel h
        rw [List.nil_append] at htags
        have hlt : rest.length < n := by
          rw [← hlen, ht, List.length_append, List.length_cons]
          omega
        exact replaced _ (ih rest.length hlt (htags ▸ hmarkup) rfl)
      · by_cases hc : c = '&'
        · -- a reference is passed over whole, for the piece does not begin inside of it
          subst hc
          obtain ⟨inside, u, rfl, hr, hu⟩ := h.of_amp
          have htext : '&' :: (inside ++ ';' :: u) = ('&' :: inside ++ [';']) ++ u := by simp
          have hmem : first ∉ '&' :: inside ++ [';'] := by
            simp [hamp, hsemi, hr.not_mem hfirst]
          have hlt : u.length < n := by
            rw [← hlen, List.length_cons, List.length_append, List.length_cons]
            omega
          rw [htext, replace_append_of_not_mem hmem]
          exact data _ _ (.reference hr .nil) (ih u.length hlt hu rfl)
        · have hlt : t.length < n := by rw [← hlen]; exact Nat.lt_succ_self _
          obtain ⟨hclose, ht⟩ := h.of_char h.ne_open_of_data hc
          rw [Text.replace, if_neg fun h => hstart h.2]
          exact data [c] _ (.char h.ne_open_of_data hclose hc .nil) (ih t.length hlt ht rfl)

/-- Character data with **line breaks** in place of its line feeds. -/
theorem isRendered_withLineBreaks (h : Markup [] t) : IsRendered true (withLineBreaks t) := by
  have hreturn : Markup [] (Text.replace "\r\n" "\n" t) :=
    replace_induction '\r' "\n"
      (.char (by decide) (by decide) (by decide) (.char (by decide) (by decide) (by decide) .nil))
      (by decide) (by decide) (by decide) (Markup []) .nil (fun _ _ => .append)
      (fun _ => .append (.char (by decide) (by decide) (by decide) .nil)) h
  exact replace_induction '\n' [] (.char (by decide) (by decide) (by decide) .nil) (by decide)
    (by decide) (by decide) (IsRendered true) isRendered_nil (fun _ _ hu => (IsRendered.of_data hu).append)
    (fun _ => isRendered_lineBreak.append) hreturn

/-- **Every value** is rendered as character data with line breaks. -/
theorem isRendered_renderValue (rules : FormatRules) (value : FieldValue)
    (format : Option DateFormat) : IsRendered rules.lineBreaks (renderValue rules value format) := by
  have hescaped := markup_escapeMarkup (formatValue value format)
  unfold renderValue
  dsimp only
  cases hbreaks : rules.lineBreaks with
  | true => exact isRendered_withLineBreaks hescaped
  | false => exact .of_data hescaped

/-! ### Tables -/

/-- A table **all of whose values** are of some kind. -/
def Substitutions.AllValues (P : Text → Prop) (s : Substitutions) : Prop :=
  ∀ entry ∈ s.structural ++ s.ordinary, P entry.2

section Tables

variable {P : Text → Prop} {table : List (Text × Text)} {s : Substitutions} {name value : Text}

/-- What holds of every value that a record or the shared context renders to **holds of the table** of
the record. -/
theorem allValues_resolve {rules : FormatRules} {aliases : List Alias} {shared : SharedContext}
    {record : Record} (hnil : P [])
    (h : ∀ f ∈ shared.values.fields ++ record.fields, ∀ format, P (renderValue rules f.2 format)) :
    (Substitutions.resolve rules aliases shared record).AllValues P := by
  obtain ⟨hshared, hrecord⟩ := List.forall_mem_append.1 h
  refine List.forall_mem_append.2 ⟨?_, ?_⟩
  · intro entry hentry
    obtain ⟨a, -, rfl⟩ := List.mem_map.1 hentry
    change P (Substitutions.aliasValue rules record shared a)
    unfold Substitutions.aliasValue
    split
    case h_2 => exact hnil
    case h_1 value hvalue =>
      -- the value is that of a field of the record, or else of the shared context
      cases hget : record.get? a.source with
      | some own =>
        rw [hget] at hvalue
        cases hvalue
        exact hrecord _ (mem_of_lookup_eq_some hget) _
      | none =>
        rw [hget] at hvalue
        exact hshared _ (mem_of_lookup_eq_some hvalue) _
  · refine forall_foldl_upsert (forall_foldl_upsert (fun _ h => nomatch h) ?_) ?_
    · exact fun f hf => hshared f hf _
    · exact fun f hf => hrecord f (List.mem_filter.1 hf).1 _

/-- What is **looked up** in a table is one of its values. -/
theorem Substitutions.AllValues.of_lookup (h : s.AllValues P) (hlookup : s.lookup name = some value) :
    P value := h _ (mem_of_lookup_eq_some hlookup)

/-- The **forms** of names are not empty and character data, and stand for values of the table. -/
theorem Substitutions.AllValues.of_mem_formsInOrder (h : s.AllValues P) {form : Text × Text}
    (hmem : form ∈ formsInOrder s) : form.1 ≠ [] ∧ Markup [] form.1 ∧ P form.2 := by
  obtain ⟨hstructural, hordinary⟩ := List.forall_mem_append.1 h
  rw [formsInOrder, List.mem_mergeSort] at hmem
  obtain ⟨⟨name, value⟩, hentry, hform⟩ := List.mem_flatMap.1 hmem
  have hvalue : P value := by
    rcases List.mem_append.1 hentry with hentry | hentry
    · exact hstructural _ hentry
    · exact hordinary _ (List.mem_filter.1 (List.mem_mergeSort.1 hentry)).1
  dsimp only at hform
  split at hform
  case isTrue => cases hform
  case isFalse hname =>
    have hne : name ≠ [] := fun h => hname (by rw [h]; rfl)
    rcases List.mem_cons.1 hform with rfl | hform
    · exact ⟨escapeText_ne_nil hne, markup_escapeText name, hvalue⟩
    · rw [List.mem_singleton.1 hform]
      exact ⟨escapeMarkup_ne_nil hne, markup_escapeMarkup name, hvalue⟩

end Tables

end MailMerge
