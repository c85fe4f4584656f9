import MailMerge.Proofs.AbsentMarkers
import MailMerge.Proofs.ContentTree

/-!
# Searching a tree for section properties

Section properties are split off a body by a search in its text: the cut is made before the first
tag of such that no end of paragraph properties follows. In the text of a tree, a tag is found where
the tree has one, since names go up to a blank or a bracket. So section properties that stand inside
paragraph properties are passed over, for the end of these is behind them.

A search goes on behind a piece if nothing that is looked for begins in the piece (`Clears`). That is
said of a piece together with what follows it, since an occurrence may end in what follows.

* `Content.SectionsInParagraphs` says where the section properties of a tree stand, and `plainPieces`
  which trees can be told from their text;
* `Text.contains_append_of_clears` and `cutBeforeSection?_append` — the search behind such a piece;
* `cutBeforeSection?_content` — section properties inside paragraph properties are passed over.
-/

namespace MailMerge

/-! ### The specification -/

namespace Content

/-- Whether an **element of a name** stands somewhere in a tree. -/
def Holds (name : Text) : Content → Prop
  | nil => False
  | data _ rest => rest.Holds name
  | aside _ rest => rest.Holds name
  | empty label rest => label.name = name ∨ rest.Holds name
  | element label inside _ rest => label.name = name ∨ inside.Holds name ∨ rest.Holds name

/-- Whether all section properties of a tree stand **inside paragraph properties**, given whether
the tree itself does. -/
def SectionsInParagraphs (inParagraph : Bool) : Content → Prop
  | nil => True
  | data _ rest => rest.SectionsInParagraphs inParagraph
  | aside _ rest => rest.SectionsInParagraphs inParagraph
  | empty label rest =>
    (label.name = "w:sectPr" → inParagraph = true) ∧ rest.SectionsInParagraphs inParagraph
  | element label inside _ rest =>
    (label.name = "w:sectPr" → inParagraph = true) ∧
      inside.SectionsInParagraphs (inParagraph || label.name == "w:pPr") ∧
      rest.SectionsInParagraphs inParagraph

end Content

/-- Whether a character **ends a name** in a tag. -/
def endsTagName (c : Char) : Bool := isBlank c || c == '>' || c == '/'

/-- A **plain label**: a name, and a blank before what stands behind it. -/
structure Label.IsPlain (label : Label) : Prop where
  name_ne_nil : label.name ≠ []
  not_endsTagName : ∀ c ∈ label.name, endsTagName c = false
  open_not_mem : '<' ∉ label.text
  blank : ∀ c ∈ label.attributes.head?, isBlank c = true

/-- The pieces of a tree whose markup can be told from its text: character data without `<`, asides
that mention neither section properties nor the end of paragraph properties, plain labels, and end
tags with blanks at most, those of paragraph properties without. -/
def plainPieces : PieceKinds where
  data run := '<' ∉ run
  aside markup := (∃ u, markup = u ++ ['>']) ∧ Text.contains "<w:sectPr" markup = false ∧
    Text.contains "</w:pPr>" markup = false
  empty label := label.IsPlain
  start label := label.IsPlain
  blanks name blanks := (∀ c ∈ blanks, isBlank c = true) ∧ (name = "w:pPr" → blanks = [])

variable {t u v needle : Text} {c : Char} {label : Label}

/-! ### Occurrences -/

/-- What begins in a text with another one behind it. **Nothing begins** in it if nothing begins at
any of its characters. -/
def Clears (starts : Text → Bool) (u t : Text) : Prop :=
  ∀ c s, c :: s <:+ u → starts (c :: s ++ t) = false

namespace Clears

variable {starts : Text → Bool}

theorem tail (h : Clears starts (c :: u) t) : Clears starts u t := fun d s hs =>
  h d s (hs.trans (List.suffix_cons c u))

/-- A piece of markup is cleared if nothing begins at its head, and `<` does not stand behind
that. -/
theorem of_head (hopen : ∀ c s, starts (c :: s) = true → c = '<')
    (hhead : starts (c :: u ++ t) = false)
    (hu : '<' ∉ u) : Clears starts (c :: u) t := by
  intro d s hs
  rcases List.suffix_cons_iff.1 hs with heq | hs
  · rw [heq]
    exact hhead
  · rw [Bool.eq_false_iff]
    intro hstart
    exact hu (hopen _ _ hstart ▸ hs.subset (List.mem_cons_self ..))

theorem of_not_mem (hopen : ∀ c s, starts (c :: s) = true → c = '<') (hu : '<' ∉ u) :
    Clears starts u t := by
  intro d s hs
  rw [Bool.eq_false_iff]
  intro hstart
  exact hu (hopen _ _ hstart ▸ hs.subset (List.mem_cons_self ..))

end Clears

theorem Text.contains_append_of_clears (h : Clears (startsWith needle) u t) :
    contains needle (u ++ t) = contains needle t := by
  induction u with
  | nil => rfl
  | cons c u ih =>
    have hhead := h c u (List.suffix_refl _)
    rw [List.cons_append] at hhead ⊢
    rw [contains_cons, hhead, ih h.tail, Bool.false_or]

/-- Markup that ends in `>` **stays without an occurrence** whatever follows it, if `>` stands at
most at the end of what is looked for. -/
theorem clears_of_not_contains (hneedle : '>' ∉ needle.dropLast) (hclose : ∃ w, u = w ++ ['>'])
    (h : Text.contains needle u = false) : Clears (Text.startsWith needle) u t := by
  rintro c s ⟨w, hw⟩
  rw [Bool.eq_false_iff]
  intro hstart
  obtain ⟨rest, hrest⟩ := Text.startsWith_iff.1 hstart
  have hmem : Text.startsWith needle (c :: s) = false := by
    rw [Bool.eq_false_iff]
    intro hwhole
    have hcontains : Text.contains needle (c :: s) = true := by
      rw [Text.contains_cons, hwhole, Bool.true_or]
    rw [← hw, Text.contains_append_left hcontains] at h
    cases h
  rw [Bool.eq_false_iff, Ne, Text.startsWith_iff] at hmem
  rcases List.append_eq_append_iff.1 hrest with ⟨a, hneedle', -⟩ | ⟨a, hs, -⟩
  · -- the end of the markup would stand inside of what is looked for
    obtain ⟨w', hw'⟩ := hclose
    obtain ⟨s', hs'⟩ : ∃ s', c :: s = s' ++ ['>'] := by
      rw [hw'] at hw
      rcases List.eq_nil_or_concat' (c :: s) with hnil | ⟨s', d, hs'⟩
      · cases hnil
      · rw [hs', ← List.append_assoc] at hw
        exact ⟨s', by rw [hs', (List.append_inj' hw rfl).2]⟩
    cases a with
    | nil => exact hmem ⟨[], by rw [hneedle', List.append_nil, List.append_nil]⟩
    | cons d a =>
      rw [hneedle', hs', List.append_assoc, List.dropLast_append_of_ne_nil (by simp)] at hneedle
      exact hneedle (by simp)
  · exact hmem ⟨a, hs⟩

/-! ### Cuts before section properties -/

/-- A cut with **more before** it. -/
def putBefore (u : Text) (p : Text × Text) : Text × Text := (u ++ p.1, p.2)

theorem map_putBefore_append (u v : Text) (p : Option (Text × Text)) :
    (p.map (putBefore v)).map (putBefore u) = p.map (putBefore (u ++ v)) := by
  rw [Option.map_map]
  congr 1
  funext q
  exact congrArg (·, q.2) (List.append_assoc ..).symm

theorem startsWith_of_startsSection (h : startsSection t = true) :
    Text.startsWith "<w:sectPr" t = true := by
  unfold startsSection at h
  split at h
  case h_1 hprefix => rw [Text.startsWith, hprefix]; rfl
  case h_2 => cases h

theorem open_of_startsWith {needle : Text} (c : Char) (s : Text)
    (h : Text.startsWith ('<' :: needle) (c :: s) = true) : c = '<' := by
  obtain ⟨rest, hrest⟩ := Text.startsWith_iff.1 h
  exact (List.cons.inj hrest).1

theorem open_of_startsSection (c : Char) (s : Text) (h : startsSection (c :: s) = true) : c = '<' :=
  open_of_startsWith c s (startsWith_of_startsSection h)

/-- A character is **passed over** if no section properties begin at it, or an end of paragraph
properties follows. -/
theorem cutBeforeSection?_cons
    (h : startsSection (c :: t) = true → Text.contains "</w:pPr>" (c :: t) = true) :
    cutBeforeSection? (c :: t) = (cutBeforeSection? t).map (putBefore [c]) := by
  have hpassed : (startsSection (c :: t) && !Text.contains "</w:pPr>" (c :: t)) = false := by
    cases hstart : startsSection (c :: t) with
    | false => rfl
    | true => rw [h hstart]; rfl
  rw [cutBeforeSection?, hpassed]
  rfl

theorem cutBeforeSection?_append (h : Clears startsSection u t) :
    cutBeforeSection? (u ++ t) = (cutBeforeSection? t).map (putBefore u) := by
  induction u with
  | nil => exact Option.map_id'.symm
  | cons c u ih =>
    have hhead := h c u (List.suffix_refl _)
    rw [List.cons_append] at hhead ⊢
    rw [cutBeforeSection?_cons fun hstart => absurd (hhead.symm.trans hstart) Bool.false_ne_true,
      ih h.tail, map_putBefore_append, List.singleton_append]

/-! ### Tags -/

namespace Label.IsPlain

/-- Behind its name a tag **goes on** with a character that ends it. -/
theorem exists_end (h : label.IsPlain) {c : Char} (hc : endsTagName c = true) (t : Text) :
    ∃ d s, label.text ++ c :: t = label.name ++ d :: s ∧ endsTagName d = true := by
  have hblank := h.blank
  rw [Label.text, List.append_assoc]
  cases hattributes : label.attributes with
  | nil => exact ⟨c, t, rfl, hc⟩
  | cons d attributes =>
    rw [hattributes] at hblank
    exact ⟨d, attributes ++ c :: t, rfl, by rw [endsTagName, hblank d rfl]; rfl⟩

/-- A tag begins section properties **if they are its name**. -/
theorem startsSection_eq (h : label.IsPlain) {c : Char} (hc : endsTagName c = true) (t : Text) :
    startsSection ('<' :: (label.text ++ c :: t)) = (label.name == "w:sectPr") := by
  obtain ⟨d, s, htext, hd⟩ := h.exists_end hc t
  have hnone : ∀ a ∈ "w:sectPr".toList, endsTagName a = false := by decide
  have hmem : d ∉ "w:sectPr".toList := fun hmem => absurd (hnone d hmem) (by rw [hd]; decide)
  have hprefix : Text.dropPrefix? "<w:sectPr" ('<' :: (label.name ++ d :: s)) =
      (Text.dropPrefix? "w:sectPr" label.name).map (· ++ d :: s) := by
    change Text.dropPrefix? ('<' :: "w:sectPr".toList) _ = _
    rw [Text.dropPrefix?, if_pos rfl, Text.dropPrefix?_append_cons hmem]
  rw [htext, startsSection, hprefix]
  cases hname : Text.dropPrefix? "w:sectPr" label.name with
  | none =>
    symm
    rw [Option.map_none, beq_eq_false_iff_ne]
    intro heq
    rw [heq, Text.dropPrefix?_eq_some_iff.2 (List.append_nil _).symm] at hname
    cases hname
  | some w =>
    have heq := Text.dropPrefix?_eq_some_iff.1 hname
    cases w with
    | nil =>
      rw [heq, List.append_nil, beq_self_eq_true]
      exact hd
    | cons a w =>
      have ha := h.not_endsTagName a (by rw [heq]; simp)
      rw [Option.map_some]
      refine Eq.trans ha (beq_eq_false_iff_ne.2 fun hname => ?_).symm
      rw [hname] at heq
      simpa using congrArg List.length heq

/-- No start tag is the end tag of paragraph properties. -/
theorem not_startsWith_end (h : label.IsPlain) (t : Text) :
    Text.startsWith "</w:pPr>" ('<' :: (label.text ++ t)) = false := by
  rw [Bool.eq_false_iff]
  intro hstart
  obtain ⟨rest, hrest⟩ := Text.startsWith_iff.1 hstart
  obtain ⟨a, name, hname⟩ := List.exists_cons_of_ne_nil h.name_ne_nil
  have ha := h.not_endsTagName a (by rw [hname]; exact List.mem_cons_self ..)
  rw [Label.text, hname] at hrest
  rw [(List.cons.inj (List.cons.inj hrest).2).1] at ha
  exact absurd ha (by decide)

end Label.IsPlain

/-- Only an end tag of paragraph properties **is one**. -/
theorem not_startsWith_endTag (hlabel : label.IsPlain) (hname : label.name ≠ "w:pPr")
    {blanks : Text} (hblanks : ∀ c ∈ blanks, isBlank c = true) (t : Text) :
    Text.startsWith "</w:pPr>" ("</" ++ (label.name ++ blanks ++ '>' :: t)) = false := by
  rw [Bool.eq_false_iff]
  intro hstart
  obtain ⟨rest, hrest⟩ := Text.startsWith_iff.1 hstart
  have htext : label.name ++ blanks ++ '>' :: t = "w:pPr".toList ++ '>' :: rest :=
    (List.cons.inj (List.cons.inj hrest).2).2
  have hclose : '>' ∉ label.name ++ blanks := by
    rw [List.mem_append, not_or]
    exact ⟨fun hmem => absurd (hlabel.not_endsTagName _ hmem) (by decide),
      fun hmem => absurd (hblanks _ hmem) (by decide)⟩
  obtain ⟨heq, -⟩ := Markup.eq_of_append_cons_eq htext hclose (by decide)
  cases blanks with
  | nil => exact hname (by rw [← heq, List.append_nil])
  | cons b blanks =>
    have hmem : b ∈ "w:pPr".toList := by rw [← heq]; simp
    have hnone : ∀ a ∈ "w:pPr".toList, isBlank a = false := by decide
    exact absurd (hblanks b (List.mem_cons_self ..)) (by rw [hnone b hmem]; decide)

/-- No tag begins **inside a tag** of a plain label, behind its own bracket. -/
theorem Label.IsPlain.open_not_mem_append (h : label.IsPlain) (hu : '<' ∉ u) :
    '<' ∉ label.text ++ u := by
  rw [List.mem_append, not_or]
  exact ⟨h.open_not_mem, hu⟩

theorem Label.IsPlain.open_not_mem_endTag (h : label.IsPlain) {blanks : Text}
    (hblanks : ∀ c ∈ blanks, isBlank c = true) : '<' ∉ '/' :: label.name ++ blanks := by
  have hname : '<' ∉ label.name := fun hmem => h.open_not_mem (List.mem_append_left _ hmem)
  have hblank : '<' ∉ blanks := fun hmem => absurd (hblanks _ hmem) (by decide)
  simpa using ⟨hname, hblank⟩

/-- The end tag of **paragraph properties** is the one that is looked for. -/
theorem Label.contains_endTag {blanks : Text} (h : plainPieces.blanks label.name blanks)
    (hname : label.name = "w:pPr") (t : Text) :
    Text.contains "</w:pPr>" (label.endTag blanks ++ t) = true := by
  have htag : label.endTag blanks = "</w:pPr>".toList := by
    rw [Label.endTag, h.2 hname, hname]
    rfl
  rw [htag]
  exact contains_append _ [] _

/-- A tag without `<` inside is **passed over** if it does not begin section properties, or an end
of paragraph properties follows. -/
theorem cutBeforeSection?_tag (hu : '<' ∉ u)
    (h : startsSection ('<' :: u ++ t) = true → Text.contains "</w:pPr>" t = true) :
    cutBeforeSection? ('<' :: u ++ t) = (cutBeforeSection? t).map (putBefore ('<' :: u)) := by
  have hfollows (hstart : startsSection ('<' :: (u ++ t)) = true) :
      Text.contains "</w:pPr>" ('<' :: (u ++ t)) = true :=
        Text.contains_append_left (h hstart) ('<' :: u)
  rw [List.cons_append, cutBeforeSection?_cons hfollows,
    cutBeforeSection?_append (.of_not_mem open_of_startsSection hu), map_putBefore_append,
    List.singleton_append]

/-! ### Trees -/

namespace Content

variable {content : Content}

/-- A tree without paragraph properties holds **no end of such**. -/
theorem contains_text_append (h : content.MadeOf plainPieces) (hholds : ¬ content.Holds "w:pPr")
    (t : Text) :
    Text.contains "</w:pPr>" (content.text ++ t) = Text.contains "</w:pPr>" t := by
  have tag {u : Text} (hu : '<' ∉ u) (t : Text)
      (hhead : Text.startsWith "</w:pPr>" ('<' :: u ++ t) = false) :
      Text.contains "</w:pPr>" ('<' :: u ++ t) = Text.contains "</w:pPr>" t :=
    Text.contains_append_of_clears (.of_head open_of_startsWith hhead hu)
  induction content generalizing t with
  | nil => rfl
  | data run rest ih =>
    have hclear : Clears (Text.startsWith "</w:pPr>") run (rest.text ++ t) :=
      .of_not_mem open_of_startsWith h.1
    rw [text, List.append_assoc, Text.contains_append_of_clears hclear, ih h.2 hholds]
  | aside markup rest ih =>
    rw [text, List.append_assoc,
      Text.contains_append_of_clears (clears_of_not_contains (by decide) h.1.1 h.1.2.2),
      ih h.2 hholds]
  | empty label rest ih =>
    have hlabel := h.1
    rw [text, List.append_assoc, Label.emptyTag, tag (hlabel.open_not_mem_append (by decide)) _ ?_,
      ih h.2 fun hrest => hholds (.inr hrest)]
    rw [List.cons_append, List.append_assoc]
    exact hlabel.not_startsWith_end _
  | element label inside blanks rest ihInside ih =>
    obtain ⟨hlabel, hinside, hblanks, hrest⟩ := h
    obtain ⟨hname, hholdsInside, hholdsRest⟩ : label.name ≠ "w:pPr" ∧ ¬ inside.Holds "w:pPr" ∧
        ¬ rest.Holds "w:pPr" := by simpa [Holds, not_or] using hholds
    rw [text, List.append_assoc, List.append_assoc, List.append_assoc, Label.startTag,
      tag (hlabel.open_not_mem_append (by decide)) _ ?_, ihInside hinside hholdsInside,
      Label.endTag, tag (by simpa using hlabel.open_not_mem_endTag hblanks.1) _ ?_,
      ih hrest hholdsRest]
    · have hstart := not_startsWith_endTag hlabel hname hblanks.1 (rest.text ++ t)
      simpa using hstart
    · rw [List.cons_append, List.append_assoc]
      exact hlabel.not_startsWith_end _

/-- Section properties inside paragraph properties are **passed over**, for the end of these
follows. -/
theorem cutBeforeSection?_content {inParagraph : Bool} (h : content.MadeOf plainPieces)
    (hsections : content.SectionsInParagraphs inParagraph)
    (hfollows : inParagraph = true → Text.contains "</w:pPr>" t = true) :
    cutBeforeSection? (content.text ++ t) = (cutBeforeSection? t).map (putBefore content.text) := by
  induction content generalizing t inParagraph with
  | nil => exact Option.map_id'.symm
  | data run rest ih =>
    rw [text, List.append_assoc, cutBeforeSection?_append (.of_not_mem open_of_startsSection h.1),
      ih h.2 hsections hfollows, map_putBefore_append]
  | aside markup rest ih =>
    have hclear : Clears startsSection markup (rest.text ++ t) := fun c s hs => by
      rw [Bool.eq_false_iff]
      intro hstart
      have hnone := clears_of_not_contains (t := rest.text ++ t) (by decide) h.1.1 h.1.2.1 c s hs
      rw [startsWith_of_startsSection hstart] at hnone
      cases hnone
    rw [text, List.append_assoc, cutBeforeSection?_append hclear, ih h.2 hsections hfollows,
      map_putBefore_append]
  | empty label rest ih =>
    obtain ⟨hlabel, hrest⟩ := h
    rw [text, List.append_assoc, Label.emptyTag,
      cutBeforeSection?_tag (hlabel.open_not_mem_append (by decide)) ?_,
      ih hrest hsections.2 hfollows, map_putBefore_append]
    intro hstart
    rw [List.cons_append, List.append_assoc, List.cons_append, hlabel.startsSection_eq (by decide),
      beq_iff_eq] at hstart
    exact Text.contains_append_left (hfollows (hsections.1 hstart)) _
  | element label inside blanks rest ihInside ih =>
    obtain ⟨hlabel, hinside, hblanks, hrest⟩ := h
    obtain ⟨hsection, hsectionsInside, hsectionsRest⟩ := hsections
    -- what follows the content of the element holds an end of paragraph properties if it should
    have hfollowsInside (hin : (inParagraph || label.name == "w:pPr") = true) :
        Text.contains "</w:pPr>" (label.endTag blanks ++ (rest.text ++ t)) = true := by
      rcases Bool.or_eq_true_iff.1 hin with hin | hname
      · rw [← List.append_assoc]
        exact Text.contains_append_left (hfollows hin) _
      · exact Label.contains_endTag hblanks (beq_iff_eq.1 hname) _
    rw [text, List.append_assoc, List.append_assoc, List.append_assoc, Label.startTag,
      cutBeforeSection?_tag (hlabel.open_not_mem_append (by decide)) ?_,
      ihInside hinside hsectionsInside hfollowsInside, Label.endTag,
      cutBeforeSection?_tag (by simpa using hlabel.open_not_mem_endTag hblanks.1) ?_,
      ih hrest hsectionsRest hfollows, map_putBefore_append,
      map_putBefore_append, map_putBefore_append]
    · congr 2
      simp [List.append_assoc]
    · intro hstart
      cases hstart
    · intro hstart
      rw [List.cons_append, List.append_assoc, List.singleton_append,
        hlabel.startsSection_eq (by decide), beq_iff_eq] at hstart
      rw [← List.append_assoc, ← List.append_assoc]
      exact Text.contains_append_left (hfollows (hsection hstart)) _

theorem isClosed_text (h : content.MadeOf plainPieces) : IsClosed content.text := by
  induction content with
  | nil => exact .of_not_mem List.not_mem_nil
  | data run rest ih => exact (IsClosed.of_not_mem h.1).append (ih h.2)
  | aside markup rest ih =>
    obtain ⟨⟨u, rfl⟩, -⟩ := h.1
    exact (IsClosed.of_close u).append (ih h.2)
  | empty label rest ih =>
    have htag : label.emptyTag = ('<' :: (label.text ++ ['/'])) ++ ['>'] := by simp [Label.emptyTag]
    rw [text, htag]
    exact (IsClosed.of_close _).append (ih h.2)
  | element label inside blanks rest ihInside ih =>
    have hend : label.endTag blanks = ('<' :: '/' :: (label.name ++ blanks)) ++ ['>'] := rfl
    have hstart : label.startTag = ('<' :: label.text) ++ ['>'] := rfl
    rw [text, hstart, hend]
    exact (IsClosed.of_close _).append
      ((ihInside h.2.1).append ((IsClosed.of_close _).append (ih h.2.2.2)))

end Content

end MailMerge
