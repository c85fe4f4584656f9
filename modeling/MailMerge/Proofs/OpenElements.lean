import MailMerge.Proofs.MarkerPairs
import MailMerge.Proofs.SectionSearch

/-!
# Open elements

Whether a place of a main part lies inside a paragraph is told by counting: the start tags of paragraphs
before the place, less their end tags. In the text of a tree this is the number of paragraphs among the
elements that are open there. For a tree opens as many paragraphs as it closes, so that what stands before
the place counts for nothing, save for the start tags of the elements around it; and a tag counts only if
the name of its element is that of paragraphs, and not if it merely begins so.

* `Content.openAt` are the elements that are open at a place of a tree, and `bracketedPieces` says which
  pieces a tree may have;
* `Label.openParagraphs_startTag`, `Label.openParagraphs_endTag` and `Label.openParagraphs_emptyTag` — what a
  tag counts;
* `Content.openParagraphs_eq_count` — what stands before a place counts the open paragraphs;
* `breakContext_eq_inline_iff` — a place lies inside a paragraph if and only if one is open.
-/

namespace MailMerge

/-! ### The specification -/

/-- The names of the elements that are **open at a byte offset** of the text of a tree, the outermost first. An
element is open from behind its start tag up to its end tag. -/
def Content.openAt : Content → Nat → List Text
  | nil, _ => []
  | data run rest, offset => rest.openAt (offset - Text.utf8Size run)
  | aside markup rest, offset => rest.openAt (offset - Text.utf8Size markup)
  | empty label rest, offset => rest.openAt (offset - Text.utf8Size label.emptyTag)
  | element label inside blanks rest, offset =>
    let start := Text.utf8Size label.startTag
    let stop := start + Text.utf8Size inside.text + Text.utf8Size (label.endTag blanks)
    if offset < start then []
    else if offset < stop then label.name :: inside.openAt (offset - start)
    else rest.openAt (offset - stop)

/-- The pieces of a tree in which `<` and `>` **only delimit tags**: comments, instructions and declarations
are whatever begins with `!` or `?`; a tag is a name, and a blank before what stands behind it, and a start tag
does not end in the slash of an empty element. -/
def bracketedPieces : PieceKinds where
  data run := '<' ∉ run ∧ '>' ∉ run
  aside markup := ∃ mark inner, markup = '<' :: mark :: inner ++ ['>'] ∧ mark ∈ ['!', '?'] ∧
    '<' ∉ inner ∧ '>' ∉ inner
  empty label := label.IsPlain ∧ '>' ∉ label.attributes
  start label := label.IsPlain ∧ '>' ∉ label.attributes ∧ label.text.getLast? ≠ some '/'
  blanks _ blanks := ∀ c ∈ blanks, isBlank c = true

instance Label.decidableIsPlain (label : Label) : Decidable label.IsPlain :=
  decidable_of_iff (label.name ≠ [] ∧ (∀ c ∈ label.name, endsTagName c = false) ∧ '<' ∉ label.text ∧
      label.attributes.head?.all isBlank = true)
    ⟨fun ⟨hne, hname, hopen, hblank⟩ => ⟨hne, hname, hopen, (Option.all_eq_true _ _).1 hblank⟩,
      fun ⟨hne, hname, hopen, hblank⟩ => ⟨hne, hname, hopen, (Option.all_eq_true _ _).2 hblank⟩⟩

instance (label : Label) : Decidable (bracketedPieces.empty label) :=
  inferInstanceAs (Decidable (label.IsPlain ∧ '>' ∉ label.attributes))

instance (label : Label) : Decidable (bracketedPieces.start label) :=
  inferInstanceAs (Decidable (label.IsPlain ∧ '>' ∉ label.attributes ∧ label.text.getLast? ≠ some '/'))

instance (run : Text) : Decidable (bracketedPieces.data run) :=
  inferInstanceAs (Decidable ('<' ∉ run ∧ '>' ∉ run))

instance (name blanks : Text) : Decidable (bracketedPieces.blanks name blanks) :=
  inferInstanceAs (Decidable (∀ c ∈ blanks, isBlank c = true))

variable {t u before after inner name word blanks : Text} {c : Char} {label : Label} {content : Content}

/-! ### Cuts between tags -/

/-- What follows a text in which brackets only delimit tags **is of that kind** if both together are. -/
theorem Bracketed.of_append (hu : Bracketed u) (h : Bracketed (u ++ t)) : Bracketed t := by
  rw [bracketed_iff] at hu h ⊢
  rwa [bracketScan_append, hu] at h

theorem Bracketed.of_not_mem (hopen : '<' ∉ u) (hclose : '>' ∉ u) : Bracketed u :=
  bracketed_iff.2 (bracketScan_of_not_mem hopen hclose false)

/-- A cut between tags lies **before a tag or behind it**. -/
theorem IsSingleTag.cut {tag : Text} (h : IsSingleTag tag) (hbefore : Bracketed before)
    (htext : tag ++ t = before ++ after) :
    before = [] ∨ ∃ behind, before = tag ++ behind ∧ Bracketed behind ∧ t = behind ++ after := by
  rcases List.append_eq_append_iff.1 htext with ⟨behind, rfl, rfl⟩ | ⟨cut, rfl, rfl⟩
  · exact .inr ⟨behind, rfl, h.bracketed.of_append hbefore, rfl⟩
  · obtain ⟨inner, htag, hopen, hclose⟩ := h
    rcases List.eq_nil_or_concat' cut with rfl | ⟨cut, d, rfl⟩
    · exact .inr ⟨[], by rw [List.append_nil, List.append_nil], .nil, rfl⟩
    · -- the cut would lie inside the tag, where the tag is open
      left
      cases before with
      | nil => rfl
      | cons a before =>
        obtain ⟨rfl, hinner⟩ := List.cons.inj htag
        have hinner : inner ++ ['>'] = (before ++ cut) ++ [d] := by
          rw [List.append_assoc]
          exact hinner.symm
        obtain ⟨rfl, -⟩ := List.append_inj' hinner rfl
        have hmem {b : Char} (hb : b ∉ before ++ cut) : b ∉ before := fun hmem =>
          hb (List.mem_append_left _ hmem)
        rw [bracketed_iff, bracketScan_cons] at hbefore
        change bracketScan true before = some false at hbefore
        rw [bracketScan_of_not_mem (hmem hopen) (hmem hclose)] at hbefore
        cases hbefore

/-! ### Counting tags -/

theorem paragraphChange_append (tags more : List Text) :
    paragraphChange (tags ++ more) = paragraphChange tags + paragraphChange more := by
  induction tags with
  | nil => exact (Int.zero_add _).symm
  | cons tag tags ih => rw [List.cons_append, paragraphChange, paragraphChange, ih, Int.add_assoc]

/-- Two texts leave as many paragraphs open **as both of them together**. -/
theorem Bracketed.openParagraphs_append (hu : Bracketed u) (t : Text) :
    openParagraphs (u ++ t) = openParagraphs u + openParagraphs t := by
  rw [openParagraphs, paragraphTag_takesTags.matchesIn_append hu, paragraphChange_append]
  rfl

theorem openParagraphs_of_not_mem (h : '<' ∉ u) : openParagraphs u = 0 := by
  have hmatches := matchesIn_append_of_not_mem paragraphTag_takesTags.opens h []
  rw [List.append_nil, matchesIn_nil] at hmatches
  rw [openParagraphs, hmatches]
  rfl

/-- A tag that is none of a paragraph **does not count**. -/
theorem openParagraphs_of_passes (hopen : '<' ∉ inner) (h : paragraphTag.Passes inner) :
    openParagraphs ('<' :: inner ++ ['>']) = 0 := by
  rw [openParagraphs, h.matchesIn_eq_nil paragraphTag_takesTags.opens hopen]
  rfl

/-- A tag of a paragraph **counts as what it is**. -/
theorem openParagraphs_of_match (hne : u ≠ []) (h : paragraphTag u = u.length) :
    openParagraphs u = paragraphStep u := by
  have hmatches : matchesIn paragraphTag (u ++ []) = u :: matchesIn paragraphTag [] :=
    matchesIn_append_of_match hne (by rw [List.append_nil, h])
  rw [List.append_nil, matchesIn_nil] at hmatches
  rw [openParagraphs, hmatches, paragraphChange, paragraphChange, Int.add_zero]

/-- A tag that opens as those of paragraphs do, with a blank before what stands behind the name, **is one
match**. -/
theorem paragraphTag_of_opening {opening : Text} (hopening : opening ∈ (["<w:p", "</w:p"] : List Text))
    (hblank : ∀ c ∈ u.head?, isBlank c = true) (hclose : '>' ∉ u) :
    paragraphTag (opening ++ u ++ ['>']) = (opening ++ u ++ ['>']).length := by
  have hends (c : Char) (hc : isBlank c = true) : endsAtBlank c = true := by rw [endsAtBlank, hc]; rfl
  have hlength : tagLength opening endsAtBlank (opening ++ u ++ ['>']) = (opening ++ u ++ ['>']).length := by
    cases u with
    | nil =>
      rcases List.mem_pair.1 hopening with rfl | rfl
      · rfl
      · rfl
    | cons c u =>
      rw [tagLength_tag (hends c (hblank c rfl)) hclose, List.length_append, List.length_append,
        List.length_append]
      rfl
  -- The matcher tries a start tag first, and an end tag is none.
  rcases List.mem_pair.1 hopening with rfl | rfl
  · rw [paragraphTag, hlength]
    simp
  · exact hlength

/-- A tag with another word at its head **is passed over**. The word ends at a character that does not
occur in the name looked for. -/
theorem tagLength_eq_zero_of_ne {endsName : Char → Bool} (hne : word ≠ name) (hc : c ∉ name)
    (hword : ∀ a ∈ word, endsName a = false) (t : Text) :
    tagLength ('<' :: name) endsName ('<' :: (word ++ c :: t)) = 0 := by
  have hprefix : Text.dropPrefix? ('<' :: name) ('<' :: (word ++ c :: t)) =
      (Text.dropPrefix? name word).map (· ++ c :: t) := by
    rw [Text.dropPrefix?, if_pos rfl, Text.dropPrefix?_append_cons hc]
  rw [tagLength, hprefix]
  cases hname : Text.dropPrefix? name word with
  | none => rfl
  | some rest =>
    obtain rfl := Text.dropPrefix?_eq_some_iff.1 hname
    -- The name is a proper prefix of the word, so a character of the word stands where it should end.
    cases rest with
    | nil => exact absurd (List.append_nil name) hne
    | cons a rest =>
      have ha : endsName a = false := hword a (by simp)
      rw [Option.map_some, List.cons_append]
      dsimp only
      rw [ha]
      rfl

/-! ### Tags of elements -/

theorem Label.emptyTag_eq (label : Label) : label.emptyTag = '<' :: (label.text ++ ['/']) ++ ['>'] := by
  simp [Label.emptyTag]

theorem Label.endTag_eq (label : Label) (blanks : Text) :
    label.endTag blanks = '<' :: ('/' :: label.name ++ blanks) ++ ['>'] := by
  simp [Label.endTag]

theorem endsAtBlank_of_endsTagName (h : endsTagName c = false) : endsAtBlank c = false := by
  rw [endsTagName, Bool.or_eq_false_iff] at h
  exact h.1

namespace Label.IsPlain

variable (h : label.IsPlain)
include h

theorem slash_not_mem_name : '/' ∉ label.name := fun hmem =>
  absurd (h.not_endsTagName _ hmem) (by decide)

theorem close_not_mem_name : '>' ∉ label.name := fun hmem =>
  absurd (h.not_endsTagName _ hmem) (by decide)

theorem close_not_mem_text (hclose : '>' ∉ label.attributes) : '>' ∉ label.text := by
  rw [Label.text, List.mem_append, not_or]
  exact ⟨h.close_not_mem_name, hclose⟩

/-- No start tag is **taken for an end tag** of a paragraph. -/
theorem tagLength_end_eq_zero (t : Text) :
    tagLength "</w:p" endsAtBlank ('<' :: (label.text ++ t)) = 0 := by
  obtain ⟨a, name, hname⟩ := List.exists_cons_of_ne_nil h.name_ne_nil
  have ha : '/' ≠ a := by
    rintro rfl
    exact h.slash_not_mem_name (by rw [hname]; exact List.mem_cons_self ..)
  have hprefix : Text.dropPrefix? "</w:p" ('<' :: (label.text ++ t)) = none := by
    rw [Label.text, hname]
    change Text.dropPrefix? ('<' :: '/' :: "w:p".toList) _ = none
    rw [Text.dropPrefix?, if_pos rfl, List.cons_append, List.cons_append, Text.dropPrefix?, if_neg ha]
  rw [tagLength, hprefix]

/-- A tag of another element **is none of a paragraph**. -/
theorem paragraphTag_eq_zero (hname : label.name ≠ "w:p") (hc : endsTagName c = true) (t : Text) :
    paragraphTag ('<' :: (label.text ++ c :: t)) = 0 := by
  obtain ⟨d, s, htext, hd⟩ := h.exists_end hc t
  have hmem : d ∉ "w:p".toList := by
    have hnone : ∀ a ∈ "w:p".toList, endsTagName a = false := by decide
    intro hmem
    exact absurd (hnone d hmem) (by rw [hd]; decide)
  have hstart : tagLength "<w:p" endsAtBlank ('<' :: (label.text ++ c :: t)) = 0 := by
    rw [htext]
    exact tagLength_eq_zero_of_ne hname hmem (fun a ha => endsAtBlank_of_endsTagName (h.not_endsTagName a ha)) s
  rw [paragraphTag, hstart]
  exact h.tagLength_end_eq_zero _

/-- An end tag of another element **is none of a paragraph**. -/
theorem paragraphTag_end_eq_zero (hname : label.name ≠ "w:p") (hblanks : ∀ c ∈ blanks, isBlank c = true)
    (t : Text) : paragraphTag ('<' :: ('/' :: label.name ++ blanks) ++ '>' :: t) = 0 := by
  -- behind the name there is a blank, or the bracket at the end of the tag
  obtain ⟨c, rest, hrest, hc⟩ : ∃ c rest, blanks ++ '>' :: t = c :: rest ∧ endsAtBlank c = true := by
    cases blanks with
    | nil => exact ⟨'>', t, rfl, by decide⟩
    | cons c rest =>
      refine ⟨c, rest ++ '>' :: t, rfl, ?_⟩
      rw [endsAtBlank, hblanks c (List.mem_cons_self ..)]
      rfl
  have hmem : c ∉ "/w:p".toList := by
    have hnone : ∀ a ∈ "/w:p".toList, endsAtBlank a = false := by decide
    intro hmem
    exact absurd (hnone c hmem) (by rw [hc]; decide)
  have hword : ∀ a ∈ '/' :: label.name, endsAtBlank a = false :=
    List.forall_mem_cons.2 ⟨by decide, fun a ha => endsAtBlank_of_endsTagName (h.not_endsTagName a ha)⟩
  have hne : '/' :: label.name ≠ "/w:p".toList := fun heq => hname (List.cons.inj heq).2
  have htext : '<' :: ('/' :: label.name ++ blanks) ++ '>' :: t = '<' :: ('/' :: label.name ++ c :: rest) := by
    rw [← hrest]
    simp
  rw [htext]
  exact tagLength_eq_zero_of_ne hne hmem hword rest

end Label.IsPlain

/-- A tag is that of an empty element **if a slash stands before its end**. -/
theorem endsWith_slash_iff : Text.endsWith "/>" ('<' :: (u ++ ['>'])) = true ↔ ('<' :: u).getLast? = some '/' := by
  rw [Text.endsWith_iff, List.getLast?_eq_some_iff]
  constructor
  · rintro ⟨front, hfront⟩
    have htext : ('<' :: u) ++ ['>'] = (front ++ ['/']) ++ ['>'] := by
      rw [List.append_assoc]
      exact hfront
    exact ⟨front, (List.append_inj' htext rfl).1⟩
  · rintro ⟨front, hfront⟩
    refine ⟨front, ?_⟩
    rw [← List.cons_append, hfront, List.append_assoc]
    rfl

/-- A start tag counts **one if it is that of a paragraph**. -/
theorem Label.openParagraphs_startTag (h : bracketedPieces.start label) :
    openParagraphs label.startTag = if label.name = "w:p" then 1 else 0 := by
  obtain ⟨hplain, hclose, hlast⟩ := h
  split
  case isFalse hname =>
    exact openParagraphs_of_passes hplain.open_not_mem fun t => hplain.paragraphTag_eq_zero hname (by decide) t
  case isTrue hname =>
    have htag : label.startTag = "<w:p" ++ label.attributes ++ ['>'] := by
      rw [Label.startTag, Label.text, hname]
      rfl
    have hempty : ¬ Text.endsWith "/>" label.startTag = true := by
      have htext : label.text ≠ [] := by
        rw [Label.text, hname]
        exact List.cons_ne_nil _ _
      rw [Label.startTag, endsWith_slash_iff, List.getLast?_cons_of_ne_nil htext]
      exact hlast
    rw [htag, openParagraphs_of_match (by simp) (paragraphTag_of_opening (by decide) hplain.blank hclose),
      ← htag, paragraphStep, if_neg hempty, htag]
    rfl

/-- The tag of an empty element **does not count**, be it a paragraph or not. -/
theorem Label.openParagraphs_emptyTag (h : bracketedPieces.empty label) : openParagraphs label.emptyTag = 0 := by
  obtain ⟨hplain, hclose⟩ := h
  have hpasses (hzero : ∀ t, paragraphTag ('<' :: (label.text ++ '/' :: t)) = 0) :
      openParagraphs label.emptyTag = 0 := by
    rw [label.emptyTag_eq]
    refine openParagraphs_of_passes (hplain.open_not_mem_append (by decide)) fun t => ?_
    have h := hzero ('>' :: t)
    simpa using h
  by_cases hname : label.name = "w:p"
  · cases hattributes : label.attributes with
    | nil =>
      -- right behind the name the slash does not end it
      refine hpasses fun t => ?_
      rw [Label.text, hname, hattributes]
      rfl
    | cons c rest =>
      have htag : label.emptyTag = "<w:p" ++ (label.attributes ++ ['/']) ++ ['>'] := by
        rw [label.emptyTag_eq, Label.text, hname]
        simp
      have hempty : Text.endsWith "/>" label.emptyTag = true := by
        rw [Text.endsWith_iff]
        exact ⟨'<' :: label.text, by simp [Label.emptyTag]⟩
      have hblank : ∀ c ∈ (label.attributes ++ ['/']).head?, isBlank c = true := by
        rw [hattributes]
        exact fun c hc => hplain.blank c (by rw [hattributes]; exact hc)
      rw [htag, openParagraphs_of_match (by simp)
        (paragraphTag_of_opening (by decide) hblank (by simpa using hclose)), ← htag, paragraphStep,
        if_pos hempty, htag]
      rfl
  · exact hpasses fun t => hplain.paragraphTag_eq_zero hname (by decide) t

/-- An end tag counts **minus one if it is that of a paragraph**. -/
theorem Label.openParagraphs_endTag (hplain : label.IsPlain) (hblanks : ∀ c ∈ blanks, isBlank c = true) :
    openParagraphs (label.endTag blanks) = if label.name = "w:p" then -1 else 0 := by
  split
  case isTrue hname =>
    have htag : label.endTag blanks = "</w:p" ++ blanks ++ ['>'] := by
      rw [label.endTag_eq, hname]
      rfl
    have hclose : '>' ∉ blanks := fun hmem => absurd (hblanks _ hmem) (by decide)
    have hhead : ∀ c ∈ blanks.head?, isBlank c = true := fun c hc => hblanks c (List.mem_of_mem_head? hc)
    rw [htag, openParagraphs_of_match (by simp) (paragraphTag_of_opening (by decide) hhead hclose)]
    rfl
  case isFalse hname =>
    rw [label.endTag_eq]
    exact openParagraphs_of_passes (hplain.open_not_mem_endTag hblanks) fun t =>
      hplain.paragraphTag_end_eq_zero hname hblanks t

/-! ### Trees -/

/-- A comment, an instruction or a declaration **does not count**. -/
theorem openParagraphs_aside {markup : Text} (h : bracketedPieces.aside markup) : openParagraphs markup = 0 := by
  obtain ⟨mark, inner, rfl, hmark, hopen, -⟩ := h
  have hpasses : paragraphTag.Passes (mark :: inner) := by
    rcases List.mem_pair.1 hmark with rfl | rfl
    · exact fun t => rfl
    · exact fun t => rfl
  have hmark' : '<' ≠ mark := by
    rintro rfl
    revert hmark
    decide
  exact openParagraphs_of_passes (by simpa using ⟨hmark', hopen⟩) hpasses

namespace bracketedPieces

theorem isSingleTag_aside {markup : Text} (h : bracketedPieces.aside markup) : IsSingleTag markup := by
  obtain ⟨mark, inner, rfl, hmark, hopen, hclose⟩ := h
  have hne {bracket : Char} (hbracket : bracket ∉ (['!', '?'] : Text)) : bracket ≠ mark := by
    rintro rfl
    exact hbracket hmark
  exact ⟨mark :: inner, rfl, by simpa using ⟨hne (by decide), hopen⟩, by simpa using ⟨hne (by decide), hclose⟩⟩

theorem isSingleTag_emptyTag (h : bracketedPieces.empty label) : IsSingleTag label.emptyTag := by
  have hclose := h.1.close_not_mem_text h.2
  exact ⟨label.text ++ ['/'], label.emptyTag_eq, h.1.open_not_mem_append (by decide),
    by simpa using hclose⟩

theorem isSingleTag_startTag (h : bracketedPieces.start label) : IsSingleTag label.startTag :=
  ⟨label.text, rfl, h.1.open_not_mem, h.1.close_not_mem_text h.2.1⟩

theorem isSingleTag_endTag (h : label.IsPlain) (hblanks : bracketedPieces.blanks name blanks) :
    IsSingleTag (label.endTag blanks) := by
  have hclose : '>' ∉ blanks := fun hmem => absurd (hblanks _ hmem) (by decide)
  exact ⟨'/' :: label.name ++ blanks, label.endTag_eq blanks, h.open_not_mem_endTag hblanks,
    by simpa using ⟨h.close_not_mem_name, hclose⟩⟩

end bracketedPieces

namespace Content

/-- In the text of a tree, **brackets only delimit tags**. -/
theorem bracketed_text (h : content.MadeOf bracketedPieces) : Bracketed content.text := by
  have append {a b : Text} : Bracketed a → Bracketed b → Bracketed (a ++ b) := Bracketed.cutsAtBrackets.append
  induction content with
  | nil => exact .nil
  | data run rest ih => exact append (.of_not_mem h.1.1 h.1.2) (ih h.2)
  | aside markup rest ih => exact append (bracketedPieces.isSingleTag_aside h.1).bracketed (ih h.2)
  | empty label rest ih => exact append (bracketedPieces.isSingleTag_emptyTag h.1).bracketed (ih h.2)
  | element label inside blanks rest ihInside ih =>
    obtain ⟨hlabel, hinside, hblanks, hrest⟩ := h
    have hstart := (bracketedPieces.isSingleTag_startTag hlabel).bracketed
    have hend := (bracketedPieces.isSingleTag_endTag hlabel.1 hblanks).bracketed
    exact append hstart (append (ihInside hinside) (append hend (ih hrest)))

/-- An element whose inside leaves no paragraphs open **leaves none open** either. -/
theorem openParagraphs_element {inside : Content} (hlabel : bracketedPieces.start label)
    (hinside : inside.MadeOf bracketedPieces) (hzero : openParagraphs inside.text = 0)
    (hblanks : bracketedPieces.blanks label.name blanks) (t : Text) :
    openParagraphs (label.startTag ++ (inside.text ++ (label.endTag blanks ++ t))) = openParagraphs t := by
  have hstart := (bracketedPieces.isSingleTag_startTag hlabel).bracketed
  have hend := (bracketedPieces.isSingleTag_endTag hlabel.1 hblanks).bracketed
  rw [hstart.openParagraphs_append, (bracketed_text hinside).openParagraphs_append, hend.openParagraphs_append,
    Label.openParagraphs_startTag hlabel, hzero, Label.openParagraphs_endTag hlabel.1 hblanks]
  split <;> omega

/-- A tree **closes the paragraphs that it opens**. -/
theorem openParagraphs_text (h : content.MadeOf bracketedPieces) : openParagraphs content.text = 0 := by
  induction content with
  | nil => exact openParagraphs_of_not_mem List.not_mem_nil
  | data run rest ih =>
    rw [text, (Bracketed.of_not_mem h.1.1 h.1.2).openParagraphs_append, openParagraphs_of_not_mem h.1.1,
      ih h.2, Int.add_zero]
  | aside markup rest ih =>
    rw [text, (bracketedPieces.isSingleTag_aside h.1).bracketed.openParagraphs_append,
      openParagraphs_aside h.1, ih h.2, Int.add_zero]
  | empty label rest ih =>
    rw [text, (bracketedPieces.isSingleTag_emptyTag h.1).bracketed.openParagraphs_append,
      Label.openParagraphs_emptyTag h.1, ih h.2, Int.add_zero]
  | element label inside blanks rest ihInside ih =>
    obtain ⟨hlabel, hinside, hblanks, hrest⟩ := h
    rw [text, openParagraphs_element hlabel hinside (ihInside hinside) hblanks, ih hrest]

theorem openAt_zero (content : Content) : content.openAt 0 = [] := by
  induction content with
  | nil => rfl
  | data run rest ih => rw [openAt, Nat.zero_sub, ih]
  | aside markup rest ih => rw [openAt, Nat.zero_sub, ih]
  | empty label rest ih => rw [openAt, Nat.zero_sub, ih]
  | element label inside blanks rest _ _ =>
    have hpos : 0 < Text.utf8Size label.startTag := Nat.add_pos_left (Char.utf8Size_pos _) _
    rw [openAt, if_pos hpos]

/-- Up to its end tag an element **is open**. -/
theorem openAt_element_inside (label : Label) (inside rest : Content) (blanks : Text) {offset : Nat}
    (h : offset ≤ Text.utf8Size inside.text) :
    (element label inside blanks rest).openAt (Text.utf8Size label.startTag + offset) =
      label.name :: inside.openAt offset := by
  have hend : 0 < Text.utf8Size (label.endTag blanks) := Nat.add_pos_left (Char.utf8Size_pos _) _
  have hstart : ¬ Text.utf8Size label.startTag + offset < Text.utf8Size label.startTag := by omega
  have hstop : Text.utf8Size label.startTag + offset <
      Text.utf8Size label.startTag + Text.utf8Size inside.text + Text.utf8Size (label.endTag blanks) := by
    omega
  rw [openAt, if_neg hstart, if_pos hstop, Nat.add_sub_cancel_left]

/-- Behind its end tag an element **is open no longer**. -/
theorem openAt_element_behind (label : Label) (inside rest : Content) (blanks : Text) (offset : Nat) :
    (element label inside blanks rest).openAt (Text.utf8Size label.startTag +
      (Text.utf8Size inside.text + (Text.utf8Size (label.endTag blanks) + offset))) = rest.openAt offset := by
  rw [← Nat.add_assoc, ← Nat.add_assoc]
  have hstart : ¬ Text.utf8Size label.startTag + Text.utf8Size inside.text +
      Text.utf8Size (label.endTag blanks) + offset < Text.utf8Size label.startTag := by omega
  have hstop : ¬ Text.utf8Size label.startTag + Text.utf8Size inside.text +
      Text.utf8Size (label.endTag blanks) + offset <
      Text.utf8Size label.startTag + Text.utf8Size inside.text + Text.utf8Size (label.endTag blanks) := by
    omega
  rw [openAt, if_neg hstart, if_neg hstop, Nat.add_sub_cancel_left]

/-- Up to its end tag **an element counts if it is a paragraph**. -/
theorem openParagraphs_eq_count_inside {inside rest : Content} (hlabel : bracketedPieces.start label)
    (hle : Text.utf8Size inner ≤ Text.utf8Size inside.text)
    (hcount : openParagraphs inner = (inside.openAt (Text.utf8Size inner)).count "w:p".toList) :
    openParagraphs (label.startTag ++ inner) = ((element label inside blanks rest).openAt
      (Text.utf8Size (label.startTag ++ inner))).count "w:p".toList := by
  rw [(bracketedPieces.isSingleTag_startTag hlabel).bracketed.openParagraphs_append,
    Label.openParagraphs_startTag hlabel, hcount, Text.utf8Size_append,
    openAt_element_inside label inside rest blanks hle, List.count_cons, Int.natCast_add, Int.add_comm]
  by_cases hname : label.name = "w:p".toList
  · rw [if_pos hname, if_pos (beq_iff_eq.2 hname)]
    rfl
  · rw [if_neg hname, if_neg (mt beq_iff_eq.1 hname)]
    rfl

/-- What stands before a place **leaves as many paragraphs open** as are open there in the tree. -/
theorem openParagraphs_eq_count (h : content.MadeOf bracketedPieces) (htext : content.text = before ++ after)
    (hbefore : Bracketed before) :
    openParagraphs before = (content.openAt (Text.utf8Size before)).count "w:p".toList := by
  -- at the head of a tree nothing has been opened
  have hhead (content : Content) :
      openParagraphs [] = (content.openAt (Text.utf8Size [])).count "w:p".toList := by
    rw [openParagraphs_of_not_mem List.not_mem_nil, Text.utf8Size_nil, openAt_zero]
    rfl
  induction content generalizing before after with
  | nil =>
    obtain ⟨rfl, -⟩ := List.append_eq_nil_iff.1 htext.symm
    exact hhead nil
  | data run rest ih =>
    -- the place is behind the run, or inside of it
    rcases List.append_eq_append_iff.1 htext with ⟨behind, rfl, hrest⟩ | ⟨cut, rfl, -⟩
    · have hrun := Bracketed.of_not_mem h.1.1 h.1.2
      rw [hrun.openParagraphs_append, openParagraphs_of_not_mem h.1.1, Int.zero_add,
        ih h.2 hrest (hrun.of_append hbefore), openAt, Text.utf8Size_append, Nat.add_sub_cancel_left]
    · have hopen : '<' ∉ before := fun hmem => h.1.1 (List.mem_append_left _ hmem)
      have hsize : Text.utf8Size before - Text.utf8Size (before ++ cut) = 0 := by
        rw [Text.utf8Size_append]
        omega
      rw [openParagraphs_of_not_mem hopen, openAt, hsize, openAt_zero]
      rfl
  | aside markup rest ih =>
    have htag := bracketedPieces.isSingleTag_aside h.1
    rcases htag.cut hbefore htext with rfl | ⟨behind, rfl, hbehind, hrest⟩
    · exact hhead _
    · rw [htag.bracketed.openParagraphs_append, openParagraphs_aside h.1, Int.zero_add, ih h.2 hrest hbehind,
        openAt, Text.utf8Size_append, Nat.add_sub_cancel_left]
  | empty label rest ih =>
    have htag := bracketedPieces.isSingleTag_emptyTag h.1
    rcases htag.cut hbefore htext with rfl | ⟨behind, rfl, hbehind, hrest⟩
    · exact hhead _
    · rw [htag.bracketed.openParagraphs_append, Label.openParagraphs_emptyTag h.1, Int.zero_add,
        ih h.2 hrest hbehind, openAt, Text.utf8Size_append, Nat.add_sub_cancel_left]
  | element label inside blanks rest ihInside ih =>
    obtain ⟨hlabel, hinside, hblanks, hrest⟩ := h
    have hstart := bracketedPieces.isSingleTag_startTag hlabel
    have hend := bracketedPieces.isSingleTag_endTag hlabel.1 hblanks
    -- the place is before the element, inside of it, or behind it
    rcases hstart.cut hbefore htext with rfl | ⟨inner, rfl, hinner, htext⟩
    · exact hhead _
    rcases List.append_eq_append_iff.1 htext with ⟨behind, rfl, hafter⟩ | ⟨cut, hcut, -⟩
    · rcases hend.cut ((bracketed_text hinside).of_append hinner) hafter with rfl | ⟨behind, rfl, hbehind, hafter⟩
      · have hcut : inside.text = (inside.text ++ []) ++ [] := by rw [List.append_nil, List.append_nil]
        exact openParagraphs_eq_count_inside hlabel (by rw [List.append_nil]) (ihInside hinside hcut hinner)
      · rw [openParagraphs_element hlabel hinside (openParagraphs_text hinside) hblanks, ih hrest hafter hbehind,
          Text.utf8Size_append, Text.utf8Size_append, Text.utf8Size_append, openAt_element_behind]
    · refine openParagraphs_eq_count_inside hlabel ?_ (ihInside hinside hcut hinner)
      rw [hcut, Text.utf8Size_append]
      exact Nat.le_add_right _ _

end Content

theorem breakContext_eq (h : content.MadeOf bracketedPieces) (htext : content.text = before ++ after)
    (hbefore : Bracketed before) : breakContext before =
      if "w:p".toList ∈ content.openAt (Text.utf8Size before) then .inline else .block := by
  rw [breakContext, content.openParagraphs_eq_count h htext hbefore]
  refine if_congr ?_ rfl rfl
  rw [Int.natCast_pos, List.count_pos_iff]

/-- **The context of breaks is the tree's answer**: at a place between two tokens of a tree it is the inside
of a paragraph if and only if a paragraph is open there. -/
theorem breakContext_eq_inline_iff (h : content.MadeOf bracketedPieces) (htext : content.text = before ++ after)
    (hbefore : Bracketed before) :
    breakContext before = .inline ↔ "w:p".toList ∈ content.openAt (Text.utf8Size before) := by
  rw [breakContext_eq h htext hbefore]
  split
  case isTrue hmem => exact iff_of_true rfl hmem
  case isFalse hmem => exact iff_of_false nofun hmem

/-! ### A text box -/

/-- A paragraph around a text box, which holds two empty paragraphs and one with a text. -/
def textBox : Content :=
  .element ⟨"w:p", " w:x=\"1\""⟩ (.element ⟨"w:pPr", []⟩ .nil []
    (.element ⟨"w:txbxContent", []⟩ (.empty ⟨"w:p", " w:x=\"2\""⟩ (.empty ⟨"w:p", []⟩
      (.element ⟨"w:p", []⟩ (.data "a" .nil) " " .nil))) [] .nil)) [] .nil

theorem textBox_madeOf : textBox.MadeOf bracketedPieces :=
  ⟨by decide, ⟨by decide, trivial, by decide, by decide, ⟨by decide, by decide, by decide,
    ⟨by decide, trivial⟩, by decide, trivial⟩, by decide, trivial⟩, by decide, trivial⟩

/-- Behind the paragraphs of a text box, the paragraph around it **is still open**. -/
theorem breakContext_in_textBox :
    breakContext "<w:p w:x=\"1\"><w:pPr></w:pPr><w:txbxContent><w:p w:x=\"2\"/><w:p/><w:p>a</w:p >" = .inline := by
  have htext : textBox.text =
      "<w:p w:x=\"1\"><w:pPr></w:pPr><w:txbxContent><w:p w:x=\"2\"/><w:p/><w:p>a</w:p >".toList ++
        "</w:txbxContent></w:p>".toList := by decide +kernel
  exact (breakContext_eq_inline_iff textBox_madeOf htext (by decide +kernel)).2 (by decide +kernel)

end MailMerge
