import MailMerge.Proofs.BareNames
import MailMerge.Proofs.CharacterData
import MailMerge.Proofs.CheckedDocument

/-!
# Tags kept by substitution

Bare names are looked for in character data, and tags stay as they are. A tag is taken to end at
its first `>`, though, while in XML a `>` may stand in the value of an attribute. What follows such
a `>` is taken for character data, and the names in it are replaced.

So the tags of a fragment are kept by every table if no tag holds a `>` but its last character. And
only then: behind a `>` in a value there is the quote that closes the value, and a table that has
this quote for a name puts another character in its place. In the result no such quote stands
outside what is taken for a tag, but behind the `>` there had to be one if the tag were still there.

* `IsXmlTag` is a tag of XML, and `xmlTags` reads the tags of a text;
* `xmlTags_flatMap_text` — of a fragment it reads the tags that the fragment is made of;
* `BareScan.not_mem` — a character that no value holds is copied, or it is in no result;
* `substitute_bare_keeps_tags_iff` — the fragments whose tags every table keeps.
-/

namespace MailMerge

/-! ### The specification -/

/-- A **tag of XML**: between its brackets stand texts in quotes, and characters that are neither
quotes nor brackets. In quotes there may be any character but `<`. -/
def IsXmlTag (tag : Text) : Prop :=
  ∃ inner, tag = '<' :: inner ++ ['>'] ∧ TagText inner ∧ '<' ∉ inner

/-- A piece of a fragment **as XML has it**: a tag, or character data. -/
def Piece.IsXml : Piece → Prop
  | .tag t => IsXmlTag t
  | .data run => '<' ∉ run

/-- The tags among pieces. -/
def tagsOf : List Piece → List Text
  | [] => []
  | .tag tag :: parts => tag :: tagsOf parts
  | .data _ :: parts => tagsOf parts

/-- Matches a **tag of XML**, which ends at its first `>` outside quotes. -/
def xmlTag : Matcher := fun t =>
  match t with
  | '<' :: t =>
    match Event.splitTag none t with
    | some (inner, _) => if '<' ∈ inner then 0 else inner.length + 2
    | none => 0
  | _ => 0

/-- The **tags of a text**, as XML reads them. -/
def xmlTags (t : Text) : List Text := matchesIn xmlTag t

variable {s : Substitutions} {parts : List Piece} {data inner tag t u out : Text} {q : Char}

/-! ### Reading tags -/

theorem splitTag_quoted {p : Text × Text} (hu : q ∉ u)
    (h : Event.splitTag none t = some p) :
    Event.splitTag (some q) (u ++ q :: t) = some (u ++ q :: p.1, p.2) := by
  induction u with
  | nil => rw [List.nil_append, Event.splitTag, if_pos rfl, h]; rfl
  | cons c u ih =>
    rw [List.cons_append, Event.splitTag, if_neg (List.ne_of_not_mem_cons hu).symm,
      ih (List.not_mem_of_not_mem_cons hu)]
    rfl

/-- What stands between the brackets of a tag is split off **whole**. -/
theorem TagText.splitTag_append (h : TagText inner) (rest : Text) :
    Event.splitTag none (inner ++ '>' :: rest) = some (inner, rest) := by
  induction h with
  | nil => rw [List.nil_append, Event.splitTag, if_pos rfl]
  | char hclose hdouble hsingle _ ih =>
    rw [List.cons_append, Event.splitTag, if_neg hclose, if_neg (not_or.2 ⟨hdouble, hsingle⟩), ih]
    rfl
  | @quoted quote u t hquote hu _ ih =>
    have hclose : quote ≠ '>' := by rcases hquote with rfl | rfl <;> decide
    rw [List.append_assoc, List.cons_append, List.cons_append, Event.splitTag, if_neg hclose,
      if_pos hquote, splitTag_quoted hu ih]
    rfl

theorem xmlTag_opensWith : Matcher.OpensWith xmlTag '<' := fun c t hc => by
  unfold xmlTag
  split
  case h_1 heq => exact absurd (List.cons.inj heq).1 hc
  case h_2 => rfl

namespace IsXmlTag

theorem ne_nil (h : IsXmlTag tag) : tag ≠ [] := by
  obtain ⟨inner, rfl, -⟩ := h
  exact List.cons_ne_nil _ _

theorem xmlTag_append (h : IsXmlTag tag) (t : Text) : xmlTag (tag ++ t) = tag.length := by
  obtain ⟨inner, rfl, htext, hopen⟩ := h
  rw [List.append_assoc, List.singleton_append, List.cons_append, xmlTag, htext.splitTag_append]
  dsimp only
  rw [if_neg hopen]
  simp

/-- A text is a tag if a tag that begins with it **is read to its end**. -/
theorem of_splitTag (inner : Text) (h : Event.splitTag none (inner ++ ['>']) = some (inner, []))
    (hopen : '<' ∉ inner) : IsXmlTag ('<' :: inner ++ ['>']) :=
  ⟨inner, rfl, (Event.splitTag_spec (by simp) h).2, hopen⟩

/-- A tag without a `>` in it is a tag **that ends at its first** `>`. -/
theorem isTag (h : IsXmlTag tag) (hclose : '>' ∉ tag.dropLast) : IsTag tag := by
  obtain ⟨inner, rfl, -⟩ := h
  rw [List.dropLast_concat] at hclose
  exact ⟨inner, rfl, List.not_mem_of_not_mem_cons hclose⟩

/-- Any tag begins with one **that ends at its first** `>`. -/
theorem exists_head (h : IsXmlTag tag) :
    ∃ head rest, tag = head ++ rest ∧ IsTag head ∧ '<' ∉ rest := by
  obtain ⟨inner, rfl, -, hopen⟩ := h
  have hmem : '>' ∈ inner ++ ['>'] := List.mem_append_right _ (List.mem_singleton_self _)
  obtain ⟨u, rest, htext, hu⟩ := List.eq_append_cons_of_mem hmem
  refine ⟨'<' :: u ++ ['>'], rest, by simp [htext], ⟨u, rfl, hu⟩, fun hmem => ?_⟩
  have : '<' ∈ inner ++ ['>'] := by rw [htext]; simp [hmem]
  simp [hopen] at this

end IsXmlTag

/-- Of a fragment **the tags that it is made of** are read. -/
theorem xmlTags_flatMap_text (h : ∀ piece ∈ parts, piece.IsXml) :
    xmlTags (parts.flatMap Piece.text) = tagsOf parts := by
  induction parts with
  | nil => exact matchesIn_nil _
  | cons piece parts ih =>
    obtain ⟨hpiece, hparts⟩ := List.forall_mem_cons.1 h
    cases piece with
    | tag tag =>
      rw [List.flatMap_cons, Piece.text, xmlTags,
        matchesIn_append_of_match hpiece.ne_nil (hpiece.xmlTag_append _), ← xmlTags, ih hparts,
        tagsOf]
    | data run =>
      rw [List.flatMap_cons, Piece.text, xmlTags,
        matchesIn_append_of_not_mem xmlTag_opensWith hpiece, ← xmlTags, ih hparts, tagsOf]

/-! ### Characters of the result -/

theorem Substitutions.AllValues.of_hasForm {P : Text → Prop} {form value : Text} (h : s.AllValues P)
    (hform : s.HasForm form value) : P value := by
  obtain ⟨name, -, hvalue⟩ := hform
  exact h.of_lookup (lookup_eq_some_iff.2 hvalue)

/-- A character that no value holds **is only copied**. Where it is a name, and in no reference, it
is not even that. -/
theorem BareScan.not_mem (h : BareScan s t out) (hs : s.AllValues (q ∉ ·))
    (hname : q ∈ t → (∃ value, s.HasForm [q] value) ∧ ∀ u, IsReference u → q ∉ u) : q ∉ out := by
  induction h with
  | nil => exact List.not_mem_nil
  | name h _ ih =>
    refine List.not_mem_append (hs.of_hasForm h.hasForm) (ih fun hq => hname ?_)
    exact List.mem_append_right _ hq
  | reference _ h _ ih =>
    refine List.not_mem_append (fun hq => ?_) (ih fun hq => hname (List.mem_append_right _ hq))
    exact (hname (List.mem_append_left _ hq)).2 _ h hq
  | char hforms _ _ ih =>
    refine List.not_mem_cons_of_ne_of_not_mem ?_ (ih fun hq => hname (List.mem_cons_of_mem _ hq))
    rintro rfl
    obtain ⟨⟨value, hform⟩, -⟩ := hname (List.mem_cons_self ..)
    exact hforms _ _ hform (List.prefix_append [q] _)

theorem not_mem_substituteData (hs : s.AllValues (q ∉ ·)) (h : q ∉ data) :
    q ∉ substituteData (formsInOrder s) data :=
  (bareScan_substituteData s data).not_mem hs fun hq => absurd hq h

/-- Tags without a `>` in them **are kept**, and so are the places where they stand. -/
theorem xmlTags_substitute_bare (hs : s.AllValues ('<' ∉ ·)) (h : ∀ piece ∈ parts, piece.IsXml)
    (hclose : ∀ tag ∈ tagsOf parts, '>' ∉ tag.dropLast) (hdata : '<' ∉ data) :
    xmlTags (substitute .bare s (data ++ parts.flatMap Piece.text)) = tagsOf parts := by
  -- a run may be cut into several pieces, which are gathered in front of the next tag
  induction parts generalizing data with
  | nil =>
    have hnone := matchesIn_append_of_not_mem xmlTag_opensWith (not_mem_substituteData hs hdata) []
    rw [List.append_nil, matchesIn_nil] at hnone
    rw [List.flatMap_nil, List.append_nil, substitute_bare_of_data hdata, tagsOf]
    exact hnone
  | cons piece parts ih =>
    obtain ⟨hpiece, hparts⟩ := List.forall_mem_cons.1 h
    rw [List.flatMap_cons]
    cases piece with
    | tag tag =>
      obtain ⟨hlast, hclose⟩ := List.forall_mem_cons.1 hclose
      have hrest := ih hparts hclose List.not_mem_nil
      rw [List.nil_append] at hrest
      rw [Piece.text, substitute_bare_append_tag hdata (hpiece.isTag hlast), xmlTags,
        matchesIn_append_of_not_mem xmlTag_opensWith (not_mem_substituteData hs hdata),
        matchesIn_append_of_match hpiece.ne_nil (hpiece.xmlTag_append _), ← xmlTags, hrest, tagsOf]
    | data run =>
      rw [Piece.text, ← List.append_assoc, tagsOf]
      exact ih hparts hclose (List.not_mem_append hdata hpiece)

/-! ### A table that tears tags -/

/-- Behind a `>` in a tag there is **a quote**: the one that closes the value in which it stands. -/
theorem TagText.exists_quote (h : TagText inner) (hclose : '>' ∈ inner) :
    ∃ q x w y, (q = '"' ∨ q = '\'') ∧ inner = x ++ '>' :: (w ++ q :: y) := by
  induction h with
  | nil => cases hclose
  | @char c t hc _ _ _ ih =>
    obtain ⟨q, x, w, y, hq, rfl⟩ := ih ((List.mem_cons.1 hclose).resolve_left hc.symm)
    exact ⟨q, c :: x, w, y, hq, rfl⟩
  | @quoted q u t hq _ _ ih =>
    have hne : '>' ≠ q := by rcases hq with rfl | rfl <;> decide
    rcases List.mem_append.1 hclose with hmem | hmem
    · obtain ⟨x, w, rfl⟩ := List.append_of_mem ((List.mem_cons.1 hmem).resolve_left hne)
      exact ⟨q, q :: x, w, t, hq, by simp⟩
    · obtain ⟨q', x, w, y, hq', rfl⟩ := ih ((List.mem_cons.1 hmem).resolve_left hne)
      exact ⟨q', q :: u ++ q :: x, w, y, hq', by simp⟩

/-- What stands behind a `>` **is character data**, up to the next `<`. -/
theorem mem_characterDataFrom {w : Text} (hw : '<' ∉ w) (hq : q ≠ '<') (inTag : Bool) (x y : Text) :
    q ∈ characterDataFrom inTag (x ++ '>' :: (w ++ q :: y)) := by
  induction x generalizing inTag with
  | nil =>
    have hdata : q ∈ characterData (w ++ q :: y) := by
      rw [characterData_append hw, characterData, characterDataFrom, if_neg hq]
      simp
    cases inTag with
    | true => exact hdata
    | false => exact List.mem_cons_of_mem _ hdata
  | cons c x ih =>
    -- Outside a tag, a `<` begins one, and any other character is character data itself.
    cases inTag with
    | true => exact ih _
    | false =>
      rw [List.cons_append, characterDataFrom]
      split
      · exact ih true
      · exact List.mem_cons_of_mem _ (ih false)

/-- A character that is a name, and in no value and no reference, is **in no character data** of the
result. -/
theorem not_mem_characterData_substitute (hs : s.AllValues ('<' ∉ ·)) (hvalue : s.AllValues (q ∉ ·))
    (hname : (∃ value, s.HasForm [q] value) ∧ ∀ u, IsReference u → q ∉ u)
    (h : ∀ piece ∈ parts, piece.IsXml) (hdata : '<' ∉ data) :
    q ∉ characterData (substitute .bare s (data ++ parts.flatMap Piece.text)) := by
  have hout (data : Text) : q ∉ substituteData (formsInOrder s) data :=
    (bareScan_substituteData s data).not_mem hvalue fun _ => hname
  -- what is behind the first bracket of a tag goes to the run that follows
  induction parts generalizing data with
  | nil =>
    have hall := characterData_append (not_mem_substituteData hs hdata) []
    rw [List.append_nil] at hall
    rw [List.flatMap_nil, List.append_nil, substitute_bare_of_data hdata, hall]
    exact List.not_mem_append (hout data) List.not_mem_nil
  | cons piece parts ih =>
    obtain ⟨hpiece, hparts⟩ := List.forall_mem_cons.1 h
    rw [List.flatMap_cons]
    cases piece with
    | tag tag =>
      obtain ⟨head, rest, rfl, hhead, hrest⟩ := hpiece.exists_head
      rw [Piece.text, List.append_assoc, substitute_bare_append_tag hdata hhead,
        characterData_append (not_mem_substituteData hs hdata), characterData_tag hhead]
      exact List.not_mem_append (hout data) (ih hparts hrest)
    | data run =>
      rw [Piece.text, ← List.append_assoc]
      exact ih hparts (List.not_mem_append hdata hpiece)

/-- The table that has **a quote for a name**. -/
def quoteTable (q : Char) : Substitutions := ⟨[], [([q], ['x'])]⟩

theorem allValues_quoteTable {P : Text → Prop} (h : P ['x']) : (quoteTable q).AllValues P := by
  rintro entry hentry
  obtain rfl := List.mem_singleton.1 hentry
  exact h

/-- A table that has a quote for a name **leaves no such quote** in character data. -/
theorem not_mem_characterData_quoteTable (hq : q = '"' ∨ q = '\'')
    (h : ∀ piece ∈ parts, piece.IsXml) :
    q ∉ characterData (substitute .bare (quoteTable q) (parts.flatMap Piece.text)) := by
  have hform : (quoteTable q).HasForm [q] ['x'] := by
    refine ⟨[q], ⟨List.cons_ne_nil _ _, ?_⟩, .inr ⟨rfl, ?_⟩⟩
    · rcases hq with rfl | rfl <;> exact .inl (by decide)
    · simp [quoteTable]
  have hreference : ∀ u, IsReference u → q ∉ u := fun u hu => by
    rcases hq with rfl | rfl <;> exact hu.not_mem (by decide) (by decide) (by decide)
  have hvalue : q ∉ ['x'] := by rcases hq with rfl | rfl <;> decide
  have hdata : '<' ∉ ([] : Text) := List.not_mem_nil
  exact not_mem_characterData_substitute (allValues_quoteTable (by decide))
    (allValues_quoteTable hvalue) ⟨⟨_, hform⟩, hreference⟩ h hdata

/-! ### Kept tags -/

theorem isXmlTag_of_mem_tagsOf (h : ∀ piece ∈ parts, piece.IsXml) (htag : tag ∈ tagsOf parts) :
    IsXmlTag tag := by
  induction parts with
  | nil => cases htag
  | cons piece parts ih =>
    obtain ⟨hpiece, hparts⟩ := List.forall_mem_cons.1 h
    cases piece with
    | tag t =>
      rcases List.mem_cons.1 htag with rfl | htag
      · exact hpiece
      · exact ih hparts htag
    | data run => exact ih hparts htag

/-- **Substituting bare names keeps the tags of a fragment**, whatever the table, if and only if no
tag holds a `>` but at its end: if no attribute has a value with one. -/
theorem substitute_bare_keeps_tags_iff (h : ∀ piece ∈ parts, piece.IsXml) :
    (∀ s : Substitutions, s.AllValues ('<' ∉ ·) →
      xmlTags (substitute .bare s (parts.flatMap Piece.text)) = tagsOf parts) ↔
    ∀ tag ∈ tagsOf parts, '>' ∉ tag.dropLast := by
  constructor
  · intro hkeep tag htag hclose
    obtain ⟨inner, rfl, htext, hopen⟩ := isXmlTag_of_mem_tagsOf h htag
    rw [List.dropLast_concat] at hclose
    have hmem : '>' ∈ inner := (List.mem_cons.1 hclose).resolve_left (by decide)
    obtain ⟨q, x, w, y, hq, rfl⟩ := htext.exists_quote hmem
    have hw : '<' ∉ w := fun hmem => hopen (by simp [hmem])
    have hne : q ≠ '<' := by rcases hq with rfl | rfl <;> decide
    -- if the tag is in the result, then so is the quote behind the bracket, as character data
    rw [← hkeep (quoteTable q) (allValues_quoteTable (by decide))] at htag
    obtain ⟨before, behind, hout⟩ := infix_of_mem_matchesIn htag
    refine not_mem_characterData_quoteTable hq h ?_
    have hsplit := mem_characterDataFrom hw hne false (before ++ '<' :: x) (y ++ '>' :: behind)
    rw [← hout, characterData]
    simpa using hsplit
  · intro hclose s hs
    have hdata : '<' ∉ ([] : Text) := List.not_mem_nil
    exact xmlTags_substitute_bare hs h hclose hdata

theorem isXml_textElement (label : Text)
    (h : Event.splitTag none (label ++ ['>']) = some (label, [])) (hopen : '<' ∉ label) :
    ∀ piece ∈ [.tag ('<' :: label ++ ['>']), .data "Name", .tag "</w:t>"], Piece.IsXml piece := by
  have hdata : '<' ∉ ("Name" : Text) := by decide
  have hend : IsXmlTag "</w:t>" := .of_splitTag "/w:t" (by decide) (by decide)
  refine List.forall_mem_cons.2 ⟨.of_splitTag label h hopen, ?_⟩
  exact List.forall_mem_cons.2 ⟨hdata, List.forall_mem_singleton.2 hend⟩

/-- An attribute whose value is a name **stays**, whatever is put in place of names. -/
theorem substitute_bare_keeps_name_in_attribute :
    let parts : List Piece := [.tag "<w:t w:x=\"Name\">", .data "Name", .tag "</w:t>"]
    (∀ piece ∈ parts, piece.IsXml) ∧ (∀ tag ∈ tagsOf parts, '>' ∉ tag.dropLast) ∧
      ∀ s : Substitutions, s.AllValues ('<' ∉ ·) →
        xmlTags (substitute .bare s (parts.flatMap Piece.text)) = tagsOf parts := by
  intro parts
  have hparts : ∀ piece ∈ parts, piece.IsXml :=
    isXml_textElement "w:t w:x=\"Name\"" (by decide) (by decide)
  have hclose : ∀ tag ∈ tagsOf parts, '>' ∉ tag.dropLast := by decide
  exact ⟨hparts, hclose, (substitute_bare_keeps_tags_iff hparts).2 hclose⟩

/-- An attribute with a `>` before the name **does not**: the name is taken for character data. -/
theorem substitute_bare_tears_attribute :
    let parts : List Piece := [.tag "<w:t w:x=\"a>Name\">", .data "Name", .tag "</w:t>"]
    let s : Substitutions := ⟨[], [("Name", "Eva")]⟩
    (∀ piece ∈ parts, piece.IsXml) ∧ s.AllValues ('<' ∉ ·) ∧
      substitute .bare s (parts.flatMap Piece.text) = "<w:t w:x=\"a>Eva\">Eva</w:t>" ∧
      xmlTags (substitute .bare s (parts.flatMap Piece.text)) ≠ tagsOf parts := by
  intro parts s
  have hparts : ∀ piece ∈ parts, piece.IsXml :=
    isXml_textElement "w:t w:x=\"a>Name\"" (by decide) (by decide)
  have hvalues : s.AllValues ('<' ∉ ·) := List.forall_mem_singleton.2 (by decide)
  have hordered : s.ordered = s.ordinary := List.mergeSort_of_pairwise (by decide +kernel)
  have hforms : formsInOrder s = nameForms s := by
    refine List.mergeSort_of_pairwise ?_
    rw [nameForms, hordered]
    decide +kernel
  have hout : substitute .bare s (parts.flatMap Piece.text) = "<w:t w:x=\"a>Eva\">Eva</w:t>" := by
    unfold substitute substituteBare
    rw [hforms, nameForms, hordered]
    decide +kernel
  refine ⟨hparts, hvalues, hout, ?_⟩
  rw [hout]
  decide +kernel

end MailMerge
