import MailMerge.Proofs.Segments
import MailMerge.Proofs.SoundMarkup

/-!
# Reading attributes

An attribute is looked for as text: its name behind a blank, and behind the name an equals sign and a
double quote. What is looked for ends in its only quote, so that a tag can be read from quote to quote: the
text up to the next quote either opens the value of the attribute or is passed over, and the texts between
quotes are in turns what stands before a value and a value. A value is passed over unless it ends as if the
attribute were to follow, for the quote at its end is one like the others.

* `Attribute` is an attribute as it is written, and `Attribute.IsProper` says that its parts can be told
  apart;
* `attributeAfter_of_opens` and `attributeAfter_of_not_opens` — reading up to the next quote;
* `attribute?_written` — of the attributes of a tag the first of a name is read;
* `EmptyTag` is an empty tag as it is written, `EmptyTag.IsProper.tagLength_text` and
  `EmptyTag.IsProper.attribute?_text` — it is found by its name, and read as its attributes say.
-/

namespace MailMerge

/-! ### The specification -/

/-- An **attribute as it is written**: what stands before it, its name, and its value, which stands between
double quotes behind an equals sign. -/
structure Attribute where
  gap : Text
  name : Text
  value : Text
  deriving DecidableEq, Repr

namespace Attribute

/-- The text of an attribute. -/
def text (a : Attribute) : Text := a.gap ++ a.name ++ "=\"" ++ a.value ++ "\""

/-- An attribute whose parts **can be told apart**: there are blanks before it and none in its name, and its
value ends at the first quote. -/
structure IsProper (a : Attribute) : Prop where
  gap_ne_nil : a.gap ≠ []
  gap : ∀ c ∈ a.gap, isBlank c = true
  name : ∀ c ∈ a.name, isBlank c = false ∧ c ≠ '"'
  value : '"' ∉ a.value

/-- Whether the value of an attribute **seems to open one** of a name: it ends in the name behind a blank, and
an equals sign. -/
def SeemsToOpen (a : Attribute) (name : Text) : Prop :=
  ∃ front blank, a.value = front ++ blank :: (name ++ ['=']) ∧ isBlank blank = true

/-- Whether a list of attributes **gives a value** to a name: the first attribute of that name has the
value, and no value before it seems to open one. -/
def Give (attributes : List Attribute) (name value : Text) : Prop :=
  (attributes.find? (·.name = name)).map (·.value) = some value ∧
    ∀ a ∈ attributes.takeWhile (·.name ≠ name), ¬ a.SeemsToOpen name

end Attribute

/-- An **empty tag as it is written**: its attributes, and the blanks before its end. -/
structure EmptyTag where
  attributes : List Attribute
  blanks : Text
  deriving DecidableEq, Repr

namespace EmptyTag

/-- What stands between the brackets of an empty tag of a name. -/
def inner (name : Text) (tag : EmptyTag) : Text :=
  name ++ tag.attributes.flatMap Attribute.text ++ (tag.blanks ++ "/")

/-- The text of an empty tag of a name. -/
def text (name : Text) (tag : EmptyTag) : Text := '<' :: tag.inner name ++ ['>']

/-- What is asked of an empty tag: its attributes can be told apart and hold no brackets, and there are
nothing but blanks behind them. -/
structure IsProper (tag : EmptyTag) : Prop where
  attributes : ∀ a ∈ tag.attributes, a.IsProper
  brackets : ∀ a ∈ tag.attributes, '<' ∉ a.text ∧ '>' ∉ a.text
  blanks : ∀ c ∈ tag.blanks, isBlank c = true

end EmptyTag

variable {name u t front ending : Text} {previous : Char} {tag : EmptyTag}

/-! ### From quote to quote -/

/-- Whether the value of an attribute begins at the quote behind a text: the text ends in the name behind a
blank, and an equals sign. -/
def OpensValue (name : Text) (previous : Char) (u : Text) : Prop :=
  ∃ front blank, previous :: u = front ++ blank :: (name ++ ['=']) ∧ isBlank blank = true

/-- The name with its equals sign and quote begins where **it is all there is up to the quote**. -/
theorem startsWith_quoted_iff (hname : '"' ∉ name) (hu : '"' ∉ u) (t : Text) :
    Text.startsWith (name ++ "=\"") (u ++ '"' :: t) = true ↔ u = name ++ ['='] := by
  have hquote : '"' ∉ name ++ ['='] := by simpa using hname
  rw [Text.startsWith_iff]
  constructor
  · rintro ⟨rest, hrest⟩
    have htext : u ++ '"' :: t = (name ++ ['=']) ++ '"' :: rest := by
      rw [hrest]
      simp
    exact (Markup.eq_of_append_cons_eq htext hu hquote).1
  · rintro rfl
    exact ⟨t, by simp⟩

theorem attributeAfter_nil (name : Text) (previous : Char) : attributeAfter name previous [] = none := by
  rw [attributeAfter]

/-- Where no quote follows there is **no attribute**. -/
theorem attributeAfter_of_not_mem (name : Text) (previous : Char) (h : '"' ∉ u) :
    attributeAfter name previous u = none := by
  induction u generalizing previous with
  | nil => exact attributeAfter_nil name previous
  | cons c u ih =>
    have hstarts : ¬ Text.startsWith (name ++ "=\"") (c :: u) = true := by
      rw [Text.startsWith_iff]
      rintro ⟨rest, hrest⟩
      exact h (by rw [hrest]; simp)
    rw [attributeAfter, if_neg hstarts, ih c (List.not_mem_of_not_mem_cons h)]

theorem not_opensValue_nil (name : Text) (previous : Char) : ¬ OpensValue name previous [] := by
  rintro ⟨front, blank, htext, -⟩
  have hlength := congrArg List.length htext
  simp only [List.length_cons, List.length_nil, List.length_append] at hlength
  omega

/-- One character further, an attribute opens **if it does not begin right here**. -/
theorem opensValue_cons_iff {c : Char} (h : c :: u ≠ name ++ ['=']) :
    OpensValue name previous (c :: u) ↔ OpensValue name c u := by
  constructor
  · rintro ⟨front, blank, htext, hblank⟩
    cases front with
    | nil => exact absurd (List.cons.inj htext).2 h
    | cons d front => exact ⟨front, blank, (List.cons.inj htext).2, hblank⟩
  · rintro ⟨front, blank, htext, hblank⟩
    exact ⟨previous :: front, blank, congrArg (previous :: ·) htext, hblank⟩

/-- Up to the next quote: the **value is read** if it begins there, and else reading goes on behind the
quote. -/
theorem attributeAfter_quote (hname : '"' ∉ name) (hu : '"' ∉ u) (previous : Char) (t : Text) :
    (OpensValue name previous u →
      attributeAfter name previous (u ++ '"' :: t) = (Text.cut? "\"" t).map (·.1)) ∧
    (¬ OpensValue name previous u →
      attributeAfter name previous (u ++ '"' :: t) = attributeAfter name '"' t) := by
  -- by induction on the text up to the quote, the first character of which comes before the rest
  induction u generalizing previous with
  | nil =>
    have hstarts : ¬ Text.startsWith (name ++ "=\"") ('"' :: t) = true := by
      rw [← List.nil_append ('"' :: t), startsWith_quoted_iff hname hu]
      simp
    refine ⟨fun hopens => absurd hopens (not_opensValue_nil name previous), fun _ => ?_⟩
    rw [List.nil_append, attributeAfter, if_neg hstarts]
  | cons c u ih =>
    have hrest := ih (List.not_mem_of_not_mem_cons hu) c
    have hstarts := startsWith_quoted_iff hname hu t
    rw [List.cons_append] at hstarts ⊢
    by_cases hhere : c :: u = name ++ ['=']
    · -- the name begins here, so that it depends on the character before whether it counts
      have hdrop : (u ++ '"' :: t).drop (name.length + 1) = t := by
        have hlength : name.length + 1 = (u ++ ['"']).length := by
          have h := congrArg List.length hhere
          simp at h ⊢
          omega
        rw [show u ++ '"' :: t = (u ++ ['"']) ++ t by simp, hlength, List.drop_left]
      have hopens : OpensValue name previous (c :: u) ↔ isBlank previous = true := by
        constructor
        · rintro ⟨front, blank, htext, hblank⟩
          rw [hhere] at htext
          have hlength := congrArg List.length htext
          simp only [List.length_cons, List.length_nil, List.length_append] at hlength
          obtain rfl : front = [] := List.eq_nil_of_length_eq_zero (by omega)
          rwa [(List.cons.inj htext).1]
        · exact fun hblank => ⟨[], previous, by rw [hhere]; rfl, hblank⟩
      rw [attributeAfter, if_pos (hstarts.2 hhere)]
      dsimp only
      rw [hdrop, hopens]
      exact ⟨fun hblank => if_pos hblank, fun hblank => if_neg hblank⟩
    · rw [attributeAfter, if_neg (mt hstarts.1 hhere), opensValue_cons_iff hhere]
      exact hrest

theorem attributeAfter_of_opens (hname : '"' ∉ name) (hu : '"' ∉ u) (h : OpensValue name previous u)
    {value : Text} (hvalue : '"' ∉ value) (t : Text) :
    attributeAfter name previous (u ++ '"' :: (value ++ '"' :: t)) = some value := by
  have hcut : Text.cut? ['"'] (value ++ ['"'] ++ t) = some (value, t) := cut?_append hvalue t
  rw [List.append_assoc] at hcut
  change Text.cut? "\"" (value ++ '"' :: t) = _ at hcut
  rw [(attributeAfter_quote hname hu previous _).1 h, hcut]
  rfl

theorem attributeAfter_of_not_opens (hname : '"' ∉ name) (hu : '"' ∉ u)
    (h : ¬ OpensValue name previous u) (t : Text) :
    attributeAfter name previous (u ++ '"' :: t) = attributeAfter name '"' t :=
  (attributeAfter_quote hname hu previous t).2 h

/-! ### Names and values -/

/-- An attribute behind a space **can be told apart** if its name and its value can be written. -/
theorem Attribute.IsProper.spaced {value : Text} (hname : ∀ c ∈ name, isBlank c = false ∧ c ≠ '"')
    (hvalue : '"' ∉ value) : Attribute.IsProper ⟨" ", name, value⟩ :=
  ⟨List.cons_ne_nil _ _, (by decide : ∀ c ∈ " ".toList, isBlank c = true), hname, hvalue⟩

/-- Two texts that end in words are cut alike **before their last words**. -/
theorem eq_of_append_blank_eq {a b v w : Text} {c d : Char} (h : a ++ c :: v = b ++ d :: w)
    (hc : isBlank c = true) (hd : isBlank d = true) (hv : ∀ x ∈ v, isBlank x = false)
    (hw : ∀ x ∈ w, isBlank x = false) : v = w := by
  have hword {a v : Text} {c : Char} (hc : isBlank c = true) (hv : ∀ x ∈ v, isBlank x = false) :
      (a ++ c :: v).reverse.takeWhile (fun x => !isBlank x) = v.reverse := by
    rw [List.reverse_append, List.reverse_cons, List.append_assoc]
    exact takeWhile_append_cons (fun x hx => by rw [hv x (List.mem_reverse.1 hx)]; rfl) (by rw [hc]; rfl)
  have hreverse := congrArg (fun t => t.reverse.takeWhile fun x => !isBlank x) h
  rw [hword hc hv, hword hd hw] at hreverse
  exact List.reverse_injective hreverse

/-- What stands before a value opens it **for the name of the attribute** and no other. -/
theorem Attribute.IsProper.opensValue_iff {a : Attribute} (ha : a.IsProper)
    (hname : ∀ c ∈ name, isBlank c = false) (previous : Char) (front : Text) :
    OpensValue name previous (front ++ a.gap ++ a.name ++ ['=']) ↔ a.name = name := by
  obtain ⟨gap, blank, hgap⟩ := List.eq_nil_or_concat' a.gap |>.resolve_left ha.gap_ne_nil
  have hblank : isBlank blank = true := ha.gap blank (by rw [hgap]; simp)
  have hword (front word : Text) (blank : Char) :
      front ++ blank :: (word ++ ['=']) = (front ++ blank :: word) ++ ['='] := by simp
  have htext : previous :: (front ++ a.gap ++ a.name ++ ['=']) =
      (previous :: (front ++ gap)) ++ blank :: (a.name ++ ['=']) := by
    rw [hgap]
    simp
  rw [OpensValue, htext]
  constructor
  · rintro ⟨front', blank', hfront, hblank'⟩
    rw [hword, hword] at hfront
    exact eq_of_append_blank_eq (List.append_inj' hfront rfl).1 hblank hblank'
      (fun c hc => (ha.name c hc).1) hname
  · rintro rfl
    exact ⟨_, blank, rfl, hblank⟩

/-- A value is followed by a quote, and **opens what it seems to open**. -/
theorem Attribute.opensValue_value_iff {a : Attribute} : OpensValue name '"' a.value ↔ a.SeemsToOpen name := by
  constructor
  · rintro ⟨front, blank, htext, hblank⟩
    cases front with
    | nil =>
      -- the quote before the value is no blank
      obtain rfl := (List.cons.inj htext).1
      exact absurd hblank (by decide)
    | cons c front => exact ⟨front, blank, (List.cons.inj htext).2, hblank⟩
  · rintro ⟨front, blank, htext, hblank⟩
    exact ⟨'"' :: front, blank, congrArg ('"' :: ·) htext, hblank⟩

theorem Attribute.not_seemsToOpen {a : Attribute} (h : a.value.getLast? ≠ some '=') (name : Text) :
    ¬ a.SeemsToOpen name := by
  rintro ⟨front, blank, htext, -⟩
  refine h ?_
  rw [htext, show front ++ blank :: (name ++ ['=']) = (front ++ blank :: name) ++ ['='] by simp,
    List.getLast?_concat]

/-! ### Tags -/

/-- Of the attributes of a tag **the first of a name is read**, if no value before it seems to open one. -/
theorem attributeAfter_written {attributes : List Attribute}
    (hname : ∀ c ∈ name, isBlank c = false ∧ c ≠ '"') (hproper : ∀ a ∈ attributes, a.IsProper)
    (hfront : '"' ∉ front) (hending : '"' ∉ ending)
    (hvalues : ∀ a ∈ attributes.takeWhile (·.name ≠ name), ¬ a.SeemsToOpen name)
    (previous : Char) :
    attributeAfter name previous (front ++ attributes.flatMap Attribute.text ++ ending) =
      (attributes.find? (·.name = name)).map (·.value) := by
  have hquote : '"' ∉ name := fun hmem => (hname _ hmem).2 rfl
  induction attributes generalizing previous front with
  | nil =>
    rw [List.flatMap_nil, List.append_nil]
    exact attributeAfter_of_not_mem name previous (by simp [hfront, hending])
  | cons a attributes ih =>
    obtain ⟨ha, hothers⟩ := List.forall_mem_cons.1 hproper
    have hbefore : '"' ∉ front ++ a.gap ++ a.name ++ ['='] := by
      have hgap : '"' ∉ a.gap := fun hmem => absurd (ha.gap _ hmem) (by decide)
      have hname' : '"' ∉ a.name := fun hmem => (ha.name _ hmem).2 rfl
      simp [hfront, hgap, hname']
    have htext : front ++ (a :: attributes).flatMap Attribute.text ++ ending =
        (front ++ a.gap ++ a.name ++ ['=']) ++
          '"' :: (a.value ++ '"' :: ([] ++ attributes.flatMap Attribute.text ++ ending)) := by
      simp [Attribute.text]
    have hopens := ha.opensValue_iff (fun c hc => (hname c hc).1) previous front
    rw [htext]
    by_cases hfound : a.name = name
    · rw [attributeAfter_of_opens hquote hbefore (hopens.2 hfound) ha.value,
        List.find?_cons_of_pos (by simpa using hfound)]
      rfl
    · rw [List.takeWhile_cons_of_pos (by simpa using hfound)] at hvalues
      obtain ⟨hvalue, hvalues⟩ := List.forall_mem_cons.1 hvalues
      -- another name is passed over, and then its value
      rw [attributeAfter_of_not_opens hquote hbefore (mt hopens.1 hfound),
        attributeAfter_of_not_opens hquote ha.value (mt Attribute.opensValue_value_iff.1 hvalue),
        ih hothers List.not_mem_nil hvalues, List.find?_cons_of_neg (by simpa using hfound)]

/-- A tag **is read as its attributes say**. -/
theorem attribute?_written {attributes : List Attribute} {value : Text}
    (hname : ∀ c ∈ name, isBlank c = false ∧ c ≠ '"') (hproper : ∀ a ∈ attributes, a.IsProper)
    (hfront : '"' ∉ front) (hending : '"' ∉ ending) (hgive : Attribute.Give attributes name value) :
    attribute? name (front ++ attributes.flatMap Attribute.text ++ ending) = some value := by
  rw [attribute?, attributeAfter_written hname hproper hfront hending hgive.2, hgive.1]

/-! ### Empty tags -/

/-- The characters of the Unicode property `White_Space`, by their codes. -/
def blankCodes : List Nat :=
  [9, 10, 11, 12, 13, 32, 0x85, 0xA0, 0x1680, 0x2000, 0x2001, 0x2002, 0x2003, 0x2004, 0x2005, 0x2006, 0x2007,
    0x2008, 0x2009, 0x200A, 0x2028, 0x2029, 0x202F, 0x205F, 0x3000]

theorem mem_blankCodes {c : Char} (h : isBlank c = true) : c.toNat ∈ blankCodes := by
  simp only [isBlank, Bool.or_eq_true, Bool.and_eq_true, decide_eq_true_eq, beq_iff_eq] at h
  simp only [blankCodes, List.mem_cons]
  omega

/-- A blank **ends a word**. -/
theorem endsWord_of_isBlank {c : Char} (h : isBlank c = true) : endsWord c = true := by
  have hcodes : ∀ n ∈ blankCodes, endsWord (Char.ofNat n) = true := by decide +kernel
  have hc := hcodes c.toNat (mem_blankCodes h)
  rwa [Char.ofNat_toNat] at hc

/-- A tag that opens with a name **is one match**, if the character behind the name ends it. -/
theorem tagLength_tag {opening : Text} {endsName : Char → Bool} {c : Char} (hc : endsName c = true)
    (hclose : '>' ∉ c :: u) (t : Text) :
    tagLength opening endsName (opening ++ c :: u ++ '>' :: t) = (opening ++ c :: u).length + 1 := by
  have hname : Text.dropPrefix? opening (opening ++ c :: u ++ '>' :: t) = some (c :: (u ++ '>' :: t)) :=
    Text.dropPrefix?_eq_some_iff.2 (by simp)
  have hlength := lengthThroughClose_append hclose t
  rw [List.cons_append] at hlength
  rw [tagLength, hname]
  dsimp only
  rw [if_pos hc, hlength]
  simp
  omega

namespace EmptyTag

theorem text_ne_nil (name : Text) (tag : EmptyTag) : tag.text name ≠ [] := List.cons_ne_nil _ _

theorem IsProper.not_mem_inner {bracket : Char} (h : tag.IsProper)
    (hbracket : bracket = '<' ∨ bracket = '>') (hname : bracket ∉ name) : bracket ∉ tag.inner name := by
  have hattributes : bracket ∉ tag.attributes.flatMap Attribute.text := by
    rw [List.mem_flatMap]
    rintro ⟨a, ha, hmem⟩
    rcases hbracket with rfl | rfl
    · exact (h.brackets a ha).1 hmem
    · exact (h.brackets a ha).2 hmem
  have hblanks : bracket ∉ tag.blanks := by
    intro hmem
    have hblank := h.blanks bracket hmem
    rcases hbracket with rfl | rfl <;> exact absurd hblank (by decide)
  have hslash : bracket ≠ '/' := by rcases hbracket with rfl | rfl <;> decide
  simp [inner, hname, hattributes, hblanks, hslash]

/-- Behind the name of an empty tag is a character that **ends the name**. -/
theorem IsProper.exists_endsWord (h : tag.IsProper) :
    ∃ c u, tag.attributes.flatMap Attribute.text ++ (tag.blanks ++ "/".toList) = c :: u ∧
      endsWord c = true := by
  obtain ⟨attributes, blanks⟩ := tag
  cases attributes with
  | nil =>
    cases blanks with
    | nil => exact ⟨'/', [], rfl, by decide +kernel⟩
    | cons c blanks => exact ⟨c, _, rfl, endsWord_of_isBlank (h.blanks c (List.mem_cons_self ..))⟩
  | cons a attributes =>
    -- an attribute begins with blanks
    have ha := h.attributes a (List.mem_cons_self ..)
    obtain ⟨c, gap, hgap⟩ := List.exists_cons_of_ne_nil ha.gap_ne_nil
    refine ⟨c, gap ++ (a.name ++ "=\"" ++ a.value ++ "\"" ++ attributes.flatMap Attribute.text ++
      (blanks ++ "/".toList)), ?_, endsWord_of_isBlank (ha.gap c (by rw [hgap]; simp))⟩
    simp [Attribute.text, hgap]

/-- An empty tag is **one match** of the tags of its name. -/
theorem IsProper.tagLength_text (h : tag.IsProper) (hname : '>' ∉ name) (t : Text) :
    tagLength ('<' :: name) endsWord (tag.text name ++ t) = (tag.text name).length := by
  obtain ⟨c, u, hu, hc⟩ := h.exists_endsWord
  have hclose : '>' ∉ c :: u := by
    have := h.not_mem_inner (.inr rfl) hname
    rw [inner, List.append_assoc, hu] at this
    exact fun hmem => this (List.mem_append_right _ hmem)
  have htext : tag.text name = ('<' :: name) ++ c :: u ++ ['>'] := by
    rw [text, inner, List.append_assoc, hu]
    simp
  rw [htext, List.append_assoc _ ['>'], List.singleton_append, tagLength_tag hc hclose]
  simp [Nat.add_assoc]

/-- An empty tag **is read as its attributes say**. -/
theorem IsProper.attribute?_text {key value : Text} (h : tag.IsProper) (hname : '"' ∉ name)
    (hkey : ∀ c ∈ key, isBlank c = false ∧ c ≠ '"') (hgive : Attribute.Give tag.attributes key value) :
    attribute? key (tag.text name) = some value := by
  have hblanks : '"' ∉ tag.blanks := fun hmem => absurd (h.blanks _ hmem) (by decide)
  have hread : attribute? key (('<' :: name) ++ tag.attributes.flatMap Attribute.text ++
      (tag.blanks ++ "/>")) = some value :=
    attribute?_written hkey h.attributes (by simpa using hname) (by simpa using hblanks) hgive
  rw [← hread, text, inner]
  simp

end EmptyTag

end MailMerge
