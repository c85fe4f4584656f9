import MailMerge.Proofs.CheckedDocument
import MailMerge.Proofs.Digits
import MailMerge.Proofs.KeptByMerging

/-!
# Validated documents

With validation on, a document that comes out has a main part whose tags nest and match, with one
root and no element left open, and all references in its character data stand for characters,
whatever the records hold: this is what the check sees. It sees neither the attributes of an element
nor which characters a text has. What is there is what the template and the values bring in: values
are escaped, so that references in attributes stand for characters if they do in the main part of
the template; but a character that XML does not allow stays one when it is escaped.

* `IsXmlChar` says which characters XML allows;
* `isXmlText_renderValue` — a rendered value has the characters of its text, and some that XML
  allows;
* `referenced_renderValue` — all ampersands of a rendered value begin references;
* `validated_isDocument` — what a validated document is;
* `validated_corrupt` — a document that passes validation although an attribute of the template has
  a reference that stands for nothing and the record a character that XML does not allow.
-/

namespace MailMerge

/-! ### The specification -/

/-- Whether XML 1.0 **allows a character** in a document. -/
def IsXmlChar (c : Char) : Prop :=
  c.toNat = 0x9 ∨ c.toNat = 0xA ∨ c.toNat = 0xD ∨ (0x20 ≤ c.toNat ∧ c.toNat ≤ 0xD7FF) ∨
    (0xE000 ≤ c.toNat ∧ c.toNat ≤ 0xFFFD) ∨ (0x10000 ≤ c.toNat ∧ c.toNat ≤ 0x10FFFF)

instance (c : Char) : Decidable (IsXmlChar c) := inferInstanceAs (Decidable (_ ∨ _))

/-- Whether XML allows **all characters** of a text. -/
def IsXmlText (t : Text) : Prop := ∀ c ∈ t, IsXmlChar c

instance (t : Text) : Decidable (IsXmlText t) := Text.decidableForallMem IsXmlChar t

variable {c : Char} {t u old new : Text}

/-! ### Texts of allowed characters -/

theorem isXmlChar_of_isPlain (h : isPlain c = true) : IsXmlChar c := by
  simp only [isPlain, Bool.and_eq_true, decide_eq_true_eq] at h
  unfold IsXmlChar
  omega

namespace IsXmlText

theorem append (ht : IsXmlText t) (hu : IsXmlText u) : IsXmlText (t ++ u) :=
  List.forall_mem_append.2 ⟨ht, hu⟩

theorem take (ht : IsXmlText t) (n : Nat) : IsXmlText (t.take n) :=
  fun c hc => ht c (List.mem_of_mem_take hc)

theorem drop (ht : IsXmlText t) (n : Nat) : IsXmlText (t.drop n) :=
  fun c hc => ht c (List.mem_of_mem_drop hc)

theorem of_digits (h : ∀ c ∈ t, c.isDigit = true) : IsXmlText t := by
  intro c hc
  have hdigit := h c hc
  rw [Char.isDigit, Bool.and_eq_true, decide_eq_true_eq, decide_eq_true_eq] at hdigit
  have hlow : 48 ≤ c.toNat := hdigit.1
  have hhigh : c.toNat ≤ 57 := hdigit.2
  unfold IsXmlChar
  omega

/-- **Merging keeps** texts of allowed characters. -/
theorem keptByMerging : KeptByMerging IsXmlText where
  plain h := fun c hc => isXmlChar_of_isPlain (h c hc)
  append := append
  behind h := (List.forall_mem_append.1 h).2
  before h _ _ := (List.forall_mem_append.1 h).1
  head h :=
    List.forall_mem_cons.2 ⟨(List.forall_mem_cons.1 h).1, take (List.forall_mem_cons.1 h).2 _⟩

end IsXmlText

/-! ### Rendered values -/

/-- Replacing **brings in** only what is put in. -/
theorem IsXmlText.replace (hnew : IsXmlText new) (ht : IsXmlText t) :
    IsXmlText (Text.replace old new t) := by
  fun_induction Text.replace old new t with
  | case1 => exact ht
  | case2 c t _ ih => exact hnew.append (ih (drop (List.forall_mem_cons.1 ht).2 _))
  | case3 c t _ ih =>
    obtain ⟨hc, ht⟩ := List.forall_mem_cons.1 ht
    exact List.forall_mem_cons.2 ⟨hc, ih ht⟩

theorem IsXmlText.escapeMarkup (ht : IsXmlText t) : IsXmlText (escapeMarkup t) := by
  intro c hc
  obtain ⟨d, hd, hc⟩ := List.mem_flatMap.1 hc
  have hescaped : IsXmlText (escapeMarkupChar d) := by
    unfold escapeMarkupChar
    split
    case h_6 => exact List.forall_mem_singleton.2 (ht d hd)
    -- the five references
    all_goals decide
  exact hescaped c hc

theorem IsXmlText.withLineBreaks (ht : IsXmlText t) : IsXmlText (withLineBreaks t) :=
  replace (show IsXmlText lineBreak by decide) (replace (show IsXmlText "\n" by decide) ht)

theorem isXmlText_ofNat (n : Nat) : IsXmlText (Text.ofNat n) :=
  .of_digits fun _ => Text.isDigit_of_mem_ofNat

theorem isXmlText_padded (width n : Nat) : IsXmlText (Text.padded width n) :=
  .of_digits fun _ => Text.isDigit_of_mem_padded

theorem isXmlText_zeros (n : Nat) : IsXmlText (List.replicate n '0') := by
  intro c hc
  rw [List.eq_of_mem_replicate hc]
  decide

/-- A **date** is written in digits, with signs between and before them. -/
theorem isXmlText_dotted (date : Date) : IsXmlText date.dotted := by
  have hpoint : IsXmlText "." := by decide
  have hyear : IsXmlText (Date.yearText date.year) := by
    unfold Date.yearText
    split
    · exact isXmlText_padded _ _
    · refine List.forall_mem_cons.2 ⟨?_, isXmlText_padded _ _⟩
      split <;> decide
  exact ((((isXmlText_padded 2 date.day).append hpoint).append
    (isXmlText_padded 2 date.month)).append hpoint).append hyear

theorem isXmlText_ofInt (n : Int) : IsXmlText (Text.ofInt n) := by
  cases n with
  | ofNat n => exact isXmlText_ofNat n
  | negSucc n => exact List.forall_mem_cons.2 ⟨by decide, isXmlText_ofNat _⟩

theorem isXmlText_positional (d : Decimal) : IsXmlText d.positional := by
  have hdigits := isXmlText_ofNat d.digits
  unfold Decimal.positional
  dsimp only
  split
  · exact hdigits.append (isXmlText_zeros _)
  · -- the point stands inside the digits, or before them
    split
    · exact ((hdigits.take _).append (show IsXmlText "." by decide)).append (hdigits.drop _)
    · exact ((show IsXmlText "0." by decide).append (isXmlText_zeros _)).append hdigits

/-- A **number** is written in digits, with a sign and a point, or by its name. -/
theorem isXmlText_toText (x : Binary64) : IsXmlText x.toText := by
  have hsign ( negative : Bool) : IsXmlText (Binary64.signText negative) := by
    cases negative <;> decide
  unfold Binary64.toText
  split
  case h_1 => decide
  case h_2 negative => exact (hsign negative).append (by decide)
  case h_3 negative m e =>
    refine (hsign negative).append ?_
    split
    · decide
    · exact isXmlText_positional _

theorem isXmlText_formatted (x : Binary64) : IsXmlText x.formatted := by
  unfold Binary64.formatted
  split
  · split
    · exact isXmlText_ofInt _
    · exact isXmlText_toText x
  · exact isXmlText_toText x

/-- Every value is **rendered** with characters that are allowed, if those of a text are. -/
theorem isXmlText_renderValue {value : FieldValue}
    (h : ∀ content, value = .text content → IsXmlText content) (rules : FormatRules)
    (format : Option DateFormat) : IsXmlText (renderValue rules value format) := by
  have htext : IsXmlText value.toText := by
    cases value with
    | text content => exact h content rfl
    | number x => exact isXmlText_formatted x
    | empty => exact fun _ hc => nomatch hc
  have hformat : IsXmlText (formatValue value format) := by
    -- a date is written anew, and what is no date stays, becomes empty or is called invalid
    unfold formatValue
    split
    · unfold formatSerialDate
      dsimp only
      split
      · exact isXmlText_dotted _
      · exact htext
    · unfold formatIsoDate
      dsimp only
      split
      · exact fun _ hc => nomatch hc
      · split
        · exact isXmlText_dotted _
        · decide
    · exact htext
  unfold renderValue
  dsimp only
  split
  · exact hformat.escapeMarkup.withLineBreaks
  · exact hformat.escapeMarkup

/-! ### References -/

/-- **Merging keeps** texts all of whose ampersands begin references. -/
theorem Referenced.keptByMerging : KeptByMerging Referenced where
  plain h := referenced_of_not_mem fun hmem => absurd (h '&' hmem) (by decide)
  append := Referenced.append
  behind := Referenced.behind
  before := Referenced.before
  head := Referenced.head

/-- All ampersands of a **rendered value** begin references. -/
theorem referenced_renderValue (rules : FormatRules) (value : FieldValue)
    (format : Option DateFormat) :
    Referenced (renderValue rules value format) := by
  obtain ⟨n, hmarkup, -⟩ := isRendered_renderValue rules value format
  refine hmarkup.referenced fun tag htag => ?_
  -- the tags are those of line breaks
  obtain ⟨tags, htags, hmem⟩ := List.mem_flatten.1 htag
  rw [List.eq_of_mem_replicate htags] at hmem
  exact (by decide : ∀ tag ∈ breakTags, '&' ∉ tag) tag hmem

/-! ### Generating -/

/-- Whether XML allows all characters of **the texts that are put in**, from records and the shared
context. -/
def IsXmlData (shared : SharedContext) (records : List Record) : Prop :=
  ∀ record ∈ shared.values :: records, ∀ field ∈ record.fields, ∀ content, field.2 = .text content →
    IsXmlText content

/-- With **validation** on, the main part of a document that comes out is a tree with one root,
whose tags nest and match, and the references in its character data stand for characters. Those in
its attributes do as well if all ampersands in the main part of the template begin such references;
and XML allows all its characters if it allows those of the main part of the template and of the
texts that are put in. -/
theorem validated_isDocument (options : MergeOptions) (template : Bytes) (records : List Record)
    (shared : SharedContext) (document : Document) (hvalidates : options.validates = true)
    (h : (generate options template records shared).result = .ok document) :
    ∃ (t : OpenedTemplate options.markers template) (mainPart : Text),
      (document.archive.part? t.package.mainName).map Part.text = some (.ok mainPart) ∧
      IsDocument mainPart ∧
      (Referenced t.package.mainText → Referenced mainPart) ∧
      (IsXmlText t.package.mainText → IsXmlData shared records → IsXmlText mainPart) := by
  obtain ⟨t, hcheck, rfl⟩ := result_generate_eq_ok_iff.1 h
  refine ⟨t, t.merged options shared records, part?_repackage t.package_eq _, ?_, ?_, ?_⟩
  · exact isDocument_of_checkWellFormed (hcheck hvalidates)
  · intro hmain
    exact Referenced.keptByMerging.merged t shared records hmain
      fun _ _ _ _ _ => referenced_renderValue _ _ _
  · intro hmain hdata
    exact IsXmlText.keptByMerging.merged t shared records hmain
      fun record hrecord field hfield format =>
        isXmlText_renderValue (hdata record hrecord field hfield) _ _

/-- The document of one record is **well-formed** with all its references and characters. -/
theorem paragraph_isDocument : ∃ document,
    (generate lineBreakOptions (templateOf paragraphText) [recordOf "A & B"] .empty).result =
      .ok document ∧
    ∃ (t : OpenedTemplate lineBreakOptions.markers (templateOf paragraphText)) (mainPart : Text),
      (document.archive.part? t.package.mainName).map Part.text = some (.ok mainPart) ∧
      IsDocument mainPart ∧ Referenced mainPart ∧ IsXmlText mainPart := by
  obtain ⟨document, hdocument⟩ : ∃ document, (generate lineBreakOptions (templateOf paragraphText)
      [recordOf "A & B"] .empty).result = .ok document :=
    paragraphTemplate.generate_succeeds_iff_check.2 fun _ => eq_ok_of_toOption (by decide +kernel)
  obtain ⟨t, mainPart, hpart, hmain, hreferenced, hcharacters⟩ :=
    validated_isDocument lineBreakOptions _ _ _ document rfl hdocument
  refine ⟨document, hdocument, t, mainPart, hpart, hmain, hreferenced ?_, hcharacters ?_ ?_⟩
  · rw [t.eq paragraphTemplate]
    exact referenced_of_not_mem (by decide)
  · rw [t.eq paragraphTemplate]
    decide
  · intro record hrecord field hfield content hcontent
    rcases List.mem_cons.1 hrecord with rfl | hrecord
    · cases hfield
    · obtain rfl := List.mem_singleton.1 hrecord
      obtain rfl := List.mem_singleton.1 hfield
      cases hcontent
      decide

/-! ### What validation does not see -/

/-- A main part in which an attribute holds a reference that stands for nothing. -/
def carelessText : Text :=
  "<w:p w:x=\"&bogus;\"><w:t><!--SectionStart-->\x7b\x7bx\x7d\x7d<!--SectionEnd--></w:t></w:p>"

set_option maxRecDepth 10000 in
/-- The template of such a main part, opened. -/
def carelessTemplate : OpenedTemplate MergeOptions.standard.markers (templateOf carelessText) where
  package := packageOf carelessText
  location := ⟨.comment, 43, 48, "\x7b\x7bx\x7d\x7d", [], [], .inline⟩
  region := ⟨"<w:p w:x=\"&bogus;\"><w:t><!--SectionStart-->", "\x7b\x7bx\x7d\x7d",
    "<!--SectionEnd--></w:t></w:p>"⟩
  package_eq := ofBytes?_templateOf (by decide +kernel)
  location_eq := eq_ok_of_toOption (by decide +kernel)
  text_region := by decide
  start_eq := by decide
  stop_eq := by decide

/-- The main part of the document of a record with a control character. -/
def corruptText : Text :=
  "<w:p w:x=\"&bogus;\"><w:t><!--SectionStart-->\x01<!--SectionEnd--></w:t></w:p>"

/-- Validation passes a **corrupt document**: a reference in an attribute stands for nothing, and
one character is none that XML allows. -/
theorem validated_corrupt : MergeOptions.standard.validates = true ∧ ∃ document,
    (generate .standard (templateOf carelessText) [recordOf "\x01"] .empty).result = .ok document ∧
    (document.archive.part? usualMainPart).map Part.text = some (.ok corruptText) ∧
    ¬ Referenced corruptText ∧ ¬ IsXmlText corruptText := by
  have hmerged : carelessTemplate.merged .standard .empty [recordOf "\x01"] = corruptText := by
    decide +kernel
  have hcheck : checkWellFormed corruptText = .ok () := eq_ok_of_toOption (by decide +kernel)
  refine ⟨rfl, _, result_generate_eq_ok_iff.2 ⟨carelessTemplate, fun _ => ?_, rfl⟩, ?_, ?_, ?_⟩
  · rw [hmerged]
    exact hcheck
  · rw [hmerged]
    exact part?_repackage carelessTemplate.package_eq corruptText
  · intro hreferenced
    -- the first semicolon behind the ampersand is that of the attribute
    obtain ⟨inside, rest, htext, hinside⟩ := hreferenced "<w:p w:x=\""
      "bogus;\"><w:t><!--SectionStart-->\x01<!--SectionEnd--></w:t></w:p>" (by decide)
    have hmem : ';' ∉ inside := hinside.not_mem (by decide)
    obtain ⟨rfl, -⟩ :=
      Markup.eq_of_append_cons_eq (a := "bogus".toList) (c := ';') htext (by decide) hmem
    have hresolves : checkReference 0 "bogus" = .ok () := resolves_iff.2 hinside
    exact absurd (congrArg Except.toOption hresolves) (by decide)
  · decide

end MailMerge
