import MailMerge.Proofs.MarkerPairs
import MailMerge.Proofs.MarkerTags

/-!
# Stripping markers

A fragment is a row of pieces: tags, comments, and character data between them. Markers are stripped in
three passes over the text, for the start tags of bookmarks, their end tags, and comments; and each of
them takes pieces whole and looks at nothing else, since a tag opens where a piece begins and ends where
the piece ends. So what is left are the other pieces, in their order and as they were. No pass makes a
marker for another one to find, because pieces stay pieces whatever is taken out between them.

* `MarkupPiece` is a piece as it is written, and `MarkupPiece.IsProper` says that its parts can be told apart;
* `MarkupPiece.kept` are the pieces that are no markers, by what the tags say;
* `Matcher.Reads` says that a matcher takes pieces of a kind and passes over the others, and
  `Matcher.Reads.erase_textOf` is one pass;
* `stripMarkers_textOf` — the pieces that are no markers are left, and no markers are found in them.
-/

namespace MailMerge

/-! ### The specification -/

/-- A **tag as it is written**: a label, attributes, and the blanks and the slash that may stand behind
those. The label of an end tag begins with a slash. -/
structure WrittenTag where
  label : Text
  attributes : List Attribute
  blanks : Text
  isEmpty : Bool
  deriving DecidableEq, Repr

instance (a : Attribute) : Decidable a.IsProper :=
  decidable_of_iff (_ ∧ _ ∧ _ ∧ _)
    ⟨fun ⟨h₁, h₂, h₃, h₄⟩ => ⟨h₁, h₂, h₃, h₄⟩, fun h => ⟨h.gap_ne_nil, h.gap, h.name, h.value⟩⟩

namespace WrittenTag

/-- What stands behind the attributes of a tag. -/
def ending (tag : WrittenTag) : Text := tag.blanks ++ if tag.isEmpty then ['/'] else []

/-- What stands between the brackets of a tag. -/
def inner (tag : WrittenTag) : Text := tag.label ++ tag.attributes.flatMap Attribute.text ++ tag.ending

/-- The value that a tag gives to a name. -/
def value? (key : Text) (tag : WrittenTag) : Option Text :=
  (tag.attributes.find? (·.name = key)).map (·.value)

/-- What is asked of a tag: the label is a word, and no other one than those of the tags of bookmarks
begins like them; and the attributes can be told apart, and no value ends in an equals sign. `<` and `>`
only delimit the tag. -/
structure IsProper (tag : WrittenTag) : Prop where
  word : ∀ c ∈ tag.label, isBlank c = false ∧ c ≠ '"'
  element : tag.label.head? ≠ some '!'
  whole : ∀ name ∈ (["w:bookmarkStart", "w:bookmarkEnd"] : List Text), name <+: tag.label → tag.label = name
  attributes : ∀ a ∈ tag.attributes, a.IsProper ∧ a.value.getLast? ≠ some '='
  blanks : ∀ c ∈ tag.blanks, isBlank c = true
  not_mem_open : '<' ∉ tag.inner
  not_mem_close : '>' ∉ tag.inner

instance (tag : WrittenTag) : Decidable tag.IsProper :=
  decidable_of_iff (_ ∧ _ ∧ _ ∧ _ ∧ _ ∧ _ ∧ _)
    ⟨fun ⟨h₁, h₂, h₃, h₄, h₅, h₆, h₇⟩ => ⟨h₁, h₂, h₃, h₄, h₅, h₆, h₇⟩,
      fun h => ⟨h.word, h.element, h.whole, h.attributes, h.blanks, h.not_mem_open, h.not_mem_close⟩⟩

end WrittenTag

/-- A **piece of a fragment**: a tag, a comment, or character data. -/
inductive MarkupPiece where
  | tag (written : WrittenTag)
  | comment (content : Text)
  | data (run : Text)
  deriving DecidableEq, Repr

namespace MarkupPiece

/-- The text of a piece. -/
def text : MarkupPiece → Text
  | .tag written => '<' :: written.inner ++ ['>']
  | .comment content => Comment.text content
  | .data run => run

/-- The text of a row of pieces. -/
def textOf (pieces : List MarkupPiece) : Text := pieces.flatMap text

/-- What is asked of a piece. `<` and `>` only delimit tags and comments. -/
inductive IsProper : MarkupPiece → Prop
  | tag {written : WrittenTag} (h : written.IsProper) : IsProper (.tag written)
  | comment {content : Text} (hopen : '<' ∉ content) (hclose : '>' ∉ content) : IsProper (.comment content)
  | data {run : Text} (hopen : '<' ∉ run) (hclose : '>' ∉ run) : IsProper (.data run)

instance : DecidablePred IsProper
  | .tag written => decidable_of_iff written.IsProper ⟨.tag, fun | .tag h => h⟩
  | .comment content =>
    decidable_of_iff ('<' ∉ content ∧ '>' ∉ content)
      ⟨fun h => .comment h.1 h.2, fun | .comment h h' => ⟨h, h'⟩⟩
  | .data run =>
    decidable_of_iff ('<' ∉ run ∧ '>' ∉ run) ⟨fun h => .data h.1 h.2, fun | .data h h' => ⟨h, h'⟩⟩

/-- Whether a piece is a tag of a label. -/
def hasLabel (label : Text) : MarkupPiece → Bool
  | .tag written => written.label = label
  | _ => false

/-- The value that a piece gives to a name. -/
def value? (key : Text) : MarkupPiece → Option Text
  | .tag written => written.value? key
  | _ => none

/-- Whether a piece is the **start tag** of one of the two bookmarks. -/
def isStart (names : MarkerNames) (piece : MarkupPiece) : Bool :=
  piece.hasLabel "w:bookmarkStart" &&
    (piece.value? "w:name" == some names.start || piece.value? "w:name" == some names.stop)

/-- Whether a piece is the **end tag** of a bookmark with one of some identifiers. -/
def isEnd (ids : List Text) (piece : MarkupPiece) : Bool :=
  piece.hasLabel "w:bookmarkEnd" && ids.any (piece.value? "w:id" == some ·)

/-- Whether a piece is the **comment** of a name: it holds the name, and blanks around it. -/
def isComment (name : Text) : MarkupPiece → Bool
  | .comment content => Text.trim content = name
  | _ => false

/-- The identifiers of the two bookmarks. -/
def markerIds (names : MarkerNames) (pieces : List MarkupPiece) : List Text :=
  (pieces.filter (isStart names)).filterMap (value? "w:id")

/-- Whether a piece is a **marker**, if the bookmarks have some identifiers. -/
def isMarker (names : MarkerNames) (ids : List Text) (piece : MarkupPiece) : Bool :=
  piece.isStart names || piece.isEnd ids || piece.isComment names.start || piece.isComment names.stop

/-- The pieces that are **no markers**. -/
def kept (names : MarkerNames) (pieces : List MarkupPiece) : List MarkupPiece :=
  pieces.filter fun piece => !piece.isMarker names (markerIds names pieces)

end MarkupPiece

/-- What is asked of the name of a marker: no blanks stand around it, and it does not end the tag it
stands in. -/
structure IsMarkerName (name : Text) : Prop where
  trim_eq : Text.trim name = name
  not_mem : '>' ∉ name

variable {m : Matcher} {IsPiece : Text → Prop} {isKind : MarkupPiece → Bool} {name t u : Text}
  {tag : WrittenTag} {piece : MarkupPiece} {pieces : List MarkupPiece} {names : MarkerNames}

/-! ### Reading pieces -/

/-- A matcher **reads pieces of a kind**: it takes each of them whole, and finds nothing in another one,
whatever follows. -/
structure Matcher.Reads (m : Matcher) (isKind : MarkupPiece → Bool) : Prop where
  ne_nil : ∀ {piece}, isKind piece = true → piece.text ≠ []
  taken : ∀ {piece}, piece.IsProper → isKind piece = true → ∀ t, m (piece.text ++ t) = piece.text.length
  passed : ∀ {piece}, piece.IsProper → isKind piece = false →
    ∀ t v, v ≠ [] → v <:+ piece.text → m (v ++ t) = 0

namespace Matcher.Reads

variable (hm : m.Reads isKind) (h : ∀ piece ∈ pieces, piece.IsProper)
include hm h

theorem segments_textOf : segments m (MarkupPiece.textOf pieces) =
    pieces.flatMap fun piece => if isKind piece then [.hit piece.text] else piece.text.map .plain := by
  induction pieces with
  | nil => exact segments_nil m
  | cons piece pieces ih =>
    obtain ⟨hpiece, hrest⟩ := List.forall_mem_cons.1 h
    rw [MarkupPiece.textOf, List.flatMap_cons, List.flatMap_cons, ← ih hrest]
    cases hkind : isKind piece with
    | true => exact segments_append_of_match (hm.ne_nil hkind) (hm.taken hpiece hkind _)
    | false => exact segments_append_of_passed (hm.passed hpiece hkind _)

/-- The **matches** in a row of pieces are the pieces of the kind. -/
theorem matchesIn_textOf :
    matchesIn m (MarkupPiece.textOf pieces) = (pieces.filter isKind).map MarkupPiece.text := by
  rw [matchesIn, hm.segments_textOf h]
  clear h
  induction pieces with
  | nil => rfl
  | cons piece pieces ih =>
    rw [List.flatMap_cons, List.filterMap_append, ih]
    cases hkind : isKind piece with
    | true => rw [List.filter_cons_of_pos hkind]; rfl
    | false =>
      rw [List.filter_cons_of_neg (by rw [hkind]; exact Bool.false_ne_true), if_neg Bool.false_ne_true,
        List.filterMap_map]
      simp

/-- Where matches with a property are dropped, **the other pieces are left**. -/
theorem erase_textOf (p : Text → Bool) :
    rewriteMatches m (fun piece => if p piece then [] else piece) (MarkupPiece.textOf pieces) =
      MarkupPiece.textOf (pieces.filter fun piece => !(isKind piece && p piece.text)) := by
  rw [rewriteMatches, hm.segments_textOf h]
  clear h
  induction pieces with
  | nil => rfl
  | cons piece pieces ih =>
    rw [List.flatMap_cons, List.flatMap_append, ih, List.filter_cons]
    cases hkind : isKind piece with
    | false => simp [MarkupPiece.textOf, List.flatMap_map]
    | true =>
      cases hp : p piece.text with
      | true => simp [hp]
      | false => simp [MarkupPiece.textOf, hp]

end Matcher.Reads

/-! ### Tags and comments -/

theorem WrittenTag.IsProper.exists_boundary (h : tag.IsProper) (t : Text) :
    ∃ c u, tag.attributes.flatMap Attribute.text ++ tag.ending ++ '>' :: t = c :: u ∧
      (isBlank c = true ∨ c = '/' ∨ c = '>') := by
  cases hattributes : tag.attributes with
  | cons a attributes =>
    -- an attribute begins with blanks
    have ha := (h.attributes a (by rw [hattributes]; exact List.mem_cons_self ..)).1
    obtain ⟨c, gap, hgap⟩ := List.exists_cons_of_ne_nil ha.gap_ne_nil
    refine ⟨c, gap ++ (a.name ++ "=\"" ++ a.value ++ "\"" ++ attributes.flatMap Attribute.text ++
      tag.ending ++ '>' :: t), ?_, .inl (ha.gap c (by rw [hgap]; exact List.mem_cons_self ..))⟩
    simp [Attribute.text, hgap]
  | nil =>
    have hblanks := h.blanks
    rw [ending]
    cases hempty : tag.blanks with
    | cons c blanks =>
      rw [hempty] at hblanks
      exact ⟨c, blanks ++ (if tag.isEmpty then ['/'] else []) ++ '>' :: t, rfl,
        .inl (hblanks c (List.mem_cons_self ..))⟩
    | nil =>
      cases tag.isEmpty with
      | false => exact ⟨'>', t, rfl, .inr (.inr rfl)⟩
      | true => exact ⟨'/', '>' :: t, rfl, .inr (.inl rfl)⟩

/-- A tag is **a tag of its label**. -/
theorem WrittenTag.IsProper.isTagOf (h : tag.IsProper) : IsTagOf tag.label (MarkupPiece.tag tag).text := by
  refine ⟨tag.attributes.flatMap Attribute.text ++ tag.ending, ?_, ?_, ?_⟩
  · simp [MarkupPiece.text, inner]
  · have hclose := h.not_mem_close
    rw [inner, List.append_assoc] at hclose
    exact fun hmem => hclose (List.mem_append_right _ hmem)
  · intro c hc
    obtain ⟨d, u, hu, hd⟩ := h.exists_boundary []
    obtain ⟨rest, hrest⟩ := List.head?_eq_some_iff.1 hc
    rw [hrest] at hu
    obtain ⟨rfl, -⟩ := List.cons.inj hu
    have hends : endsWord c = true := by
      rcases hd with hd | rfl | rfl
      exacts [endsWord_of_isBlank hd, by decide +kernel, endsWord_close]
    simpa [endsWord] using hends

/-- Where a label ends, **a name that begins with it ends too**. -/
theorem prefix_of_append_eq {label a b : Text} {c : Char} (hc : c ∉ name)
    (h : name ++ a = label ++ c :: b) : name <+: label := by
  rcases List.append_eq_append_iff.1 h with ⟨d, rfl, -⟩ | ⟨d, rfl, hd⟩
  · exact List.prefix_append ..
  · cases d with
    | nil => exact ⟨[], by simp⟩
    | cons x d =>
      obtain ⟨rfl, -⟩ := List.cons.inj hd
      exact absurd (List.mem_append_right _ (List.mem_cons_self ..)) hc

/-- A name that a tag begins with **is part of the label**, if no character ends a label in it. -/
theorem WrittenTag.IsProper.prefix_label (h : tag.IsProper)
    (hname : ∀ c ∈ name, isBlank c = false ∧ c ≠ '/' ∧ c ≠ '>')
    (hbegins : '<' :: name <+: (MarkupPiece.tag tag).text ++ t) : name <+: tag.label := by
  obtain ⟨rest, hrest⟩ := hbegins
  obtain ⟨c, w, hw, hc⟩ := h.exists_boundary t
  have hboundary : c ∉ name := by
    intro hmem
    obtain ⟨hblank, hslash, hclose⟩ := hname c hmem
    rcases hc with hc | hc | hc
    exacts [absurd hc (by rw [hblank]; exact Bool.false_ne_true), hslash hc, hclose hc]
  refine prefix_of_append_eq (a := rest) (b := w) hboundary ?_
  rw [← hw]
  have := (List.cons.inj hrest).2
  simpa [inner] using this

/-- A tag **is read as its attributes say**. -/
theorem WrittenTag.IsProper.attribute?_text {key : Text} (h : tag.IsProper)
    (hkey : ∀ c ∈ key, isBlank c = false ∧ c ≠ '"') :
    attribute? key (MarkupPiece.tag tag).text = tag.value? key := by
  have hquote : '"' ∉ tag.blanks := fun hmem => absurd (h.blanks _ hmem) (by decide)
  have hend : '"' ∉ tag.ending ++ ['>'] := by
    rw [ending]
    cases tag.isEmpty <;> simp [hquote]
  have hfront : '"' ∉ '<' :: tag.label := by
    simpa using fun hmem => (h.word _ hmem).2 rfl
  have htext : (MarkupPiece.tag tag).text =
      ('<' :: tag.label) ++ tag.attributes.flatMap Attribute.text ++ (tag.ending ++ ['>']) := by
    simp [MarkupPiece.text, inner]
  rw [htext, attribute?, attributeAfter_written hkey (fun a ha => (h.attributes a ha).1) hfront hend
    fun a ha => Attribute.not_seemsToOpen (h.attributes a ((List.takeWhile_subset _) ha)).2 _]
  rfl

namespace MarkupPiece

/-- A piece is **from bracket to bracket**, or holds none. -/
theorem IsProper.exists_inner (h : piece.IsProper) :
    (∃ inner, piece.text = '<' :: inner ++ ['>'] ∧ '<' ∉ inner ∧ '>' ∉ inner) ∨ '<' ∉ piece.text := by
  cases h with
  | @tag written h => exact .inl ⟨written.inner, rfl, h.not_mem_open, h.not_mem_close⟩
  | @comment content hopen hclose =>
    exact .inl ⟨Comment.inner content, rfl, Comment.not_mem_inner (by decide) hopen,
      Comment.not_mem_inner (by decide) hclose⟩
  | data hopen => exact .inr hopen

end MarkupPiece

/-- A matcher that takes pieces of a kind **reads them**, if no text of its kind begins where another
piece does. -/
theorem Matcher.Takes.reads (hm : m.Takes IsPiece) (hopens : m.OpensWith '<')
    (hkind : ∀ piece, isKind piece = true → piece.IsProper → IsPiece piece.text)
    (hne : ∀ piece, isKind piece = true → piece.text ≠ [])
    (hother : ∀ piece, isKind piece = false → piece.IsProper → '<' ∈ piece.text →
      ∀ t u v, piece.text ++ t = u ++ v → ¬ IsPiece u) : m.Reads isKind where
  ne_nil := hne _
  taken := fun hpiece h t => hm.append (hkind _ h hpiece) t
  passed := by
    intro piece hpiece h t v hne hv
    have hskip {w : Text} (hw : '<' ∉ w) (hv : v <:+ w) : m (v ++ t) = 0 := by
      obtain ⟨c, v, rfl⟩ := List.exists_cons_of_ne_nil hne
      refine hopens c (v ++ t) ?_
      rintro rfl
      exact hw (hv.subset (List.mem_cons_self ..))
    -- A piece has at most one `<`, its first character, so only there could a match begin.
    rcases hpiece.exists_inner with ⟨inner, htext, hopen, -⟩ | hopen
    · rw [htext, List.cons_append, List.suffix_cons_iff] at hv
      rcases hv with rfl | hv
      · rw [← List.cons_append, ← htext]
        exact hm.eq_zero (hother piece h hpiece (by rw [htext]; exact List.mem_cons_self ..) t)
      · exact hskip (by simpa using hopen) hv
    · exact hskip hopen hv

/-- Tags of bookmarks **are read** by their label. -/
theorem tagLength_reads (hname : name ∈ (["w:bookmarkStart", "w:bookmarkEnd"] : List Text)) :
    (tagLength ('<' :: name) endsWord).Reads (MarkupPiece.hasLabel name) := by
  have hword : ∀ c ∈ name, isBlank c = false ∧ c ≠ '/' ∧ c ≠ '>' := by
    revert name
    decide
  refine (tagLength_takes _).reads (tagLength_takesBrackets _ _).opens ?_ ?_ ?_
  · rintro _ hlabel (@⟨tag, h⟩ | _ | _)
    · have hlabel : tag.label = name := of_decide_eq_true hlabel
      exact hlabel ▸ h.isTagOf
    · cases hlabel
    · cases hlabel
  · rintro (tag | content | data) hlabel
    · exact List.cons_ne_nil _ _
    · cases hlabel
    · cases hlabel
  · rintro _ hlabel hproper hmem t u v htext ⟨rest, rfl, -⟩
    have hbegins : '<' :: name <+: '<' :: (name ++ rest) ++ ['>'] ++ v := ⟨rest ++ ['>'] ++ v, by simp⟩
    rw [← htext] at hbegins
    cases hproper with
    | @tag tag h =>
      have hlabel' : tag.label = name := h.whole _ hname (h.prefix_label hword hbegins)
      simp [MarkupPiece.hasLabel, hlabel'] at hlabel
    | comment =>
      -- a comment goes on with an exclamation mark, and a name with a letter
      obtain ⟨rest, hrest⟩ := hbegins
      rw [List.mem_pair] at hname
      rcases hname with rfl | rfl
      all_goals cases hrest
    | data hopen => exact hopen hmem

/-- Blanks at the two ends of a text **are trimmed**. -/
theorem trim_blanks {before after : Text} (hbefore : ∀ c ∈ before, isBlank c = true)
    (hafter : ∀ c ∈ after, isBlank c = true) : Text.trim (before ++ t ++ after) = Text.trim t := by
  rw [Text.trim, Text.trim, Text.trimStart, Text.trimStart, List.append_assoc,
    List.dropWhile_append_of_pos hbefore, List.dropWhile_append]
  split
  case isTrue hblank =>
    -- the text is blank as a whole
    rw [List.isEmpty_iff.1 hblank, List.dropWhile_eq_nil_iff.2 hafter]
  case isFalse =>
    rw [Text.trimEnd, Text.trimEnd, List.reverse_append,
      List.dropWhile_append_of_pos fun c hc => hafter c (List.mem_reverse.1 hc)]

theorem exists_blanks_trim (t : Text) : ∃ before after, t = before ++ Text.trim t ++ after ∧
    (∀ c ∈ before, isBlank c = true) ∧ ∀ c ∈ after, isBlank c = true := by
  refine ⟨t.takeWhile isBlank, ((t.dropWhile isBlank).reverse.takeWhile isBlank).reverse, ?_,
    fun c hc => List.mem_takeWhile_imp hc, fun c hc => List.mem_takeWhile_imp (List.mem_reverse.1 hc)⟩
  rw [Text.trim, Text.trimEnd, Text.trimStart, List.append_assoc, ← List.reverse_append,
    List.takeWhile_append_dropWhile, List.reverse_reverse, List.takeWhile_append_dropWhile]

namespace Comment

/-- A comment is **a comment of what it holds**. -/
theorem isCommentOf_text (content : Text) : IsCommentOf (Text.trim content) (text content) := by
  obtain ⟨before, after, hcontent, hbefore, hafter⟩ := exists_blanks_trim content
  refine ⟨before, after, ?_, hbefore, hafter⟩
  conv_lhs => rw [hcontent]
  simp [text, inner]

/-- A comment of a name that begins where a comment does **is that comment**, since both end at the same
`>`. -/
theorem trim_eq_of_isCommentOf {content v : Text} (hname : IsMarkerName name) (hclose : '>' ∉ content)
    (hu : IsCommentOf name u) (h : text content ++ t = u ++ v) : Text.trim content = name := by
  obtain ⟨before, after, rfl, hbefore, hafter⟩ := hu
  have hmarker : '>' ∉ before ++ name ++ after ++ "--" := by
    have hblank {x : Text} (hx : ∀ c ∈ x, isBlank c = true) : '>' ∉ x := fun hmem =>
      absurd (hx _ hmem) (by decide)
    simp [hblank hbefore, hblank hafter, hname.not_mem]
  have hcontent : (content ++ "--") ++ '>' :: t = (before ++ name ++ after ++ "--") ++ '>' :: v := by
    simpa [text, inner] using h
  obtain ⟨hsame, -⟩ := Markup.eq_of_append_cons_eq hcontent (by simpa using hclose) hmarker
  obtain rfl := List.append_cancel_right hsame
  rw [trim_blanks hbefore hafter, hname.trim_eq]

/-- Comments **are read** by what they hold. -/
theorem marker_reads (hname : IsMarkerName name) :
    (marker name).Reads (MarkupPiece.isComment name) := by
  refine (marker_takes name).reads (marker_takesBrackets name).opens ?_ ?_ ?_
  · rintro _ hholds (_ | @⟨content, -, -⟩ | _)
    · cases hholds
    · have htrim : Text.trim content = name := of_decide_eq_true hholds
      exact htrim ▸ isCommentOf_text content
    · cases hholds
  · rintro (tag | content | data) hholds
    · cases hholds
    · exact List.cons_ne_nil _ _
    · cases hholds
  · rintro _ hholds hproper hmem t u v htext hu
    cases hproper with
    | tag h =>
      -- the label of the tag would begin with an exclamation mark
      obtain ⟨before, after, rfl, -, -⟩ := hu
      have hbegins : '<' :: "!--".toList <+: "<!--" ++ before ++ name ++ after ++ "-->" ++ v :=
        ⟨before ++ name ++ after ++ "-->" ++ v, by simp⟩
      rw [← htext] at hbegins
      obtain ⟨rest, hlabel⟩ := h.prefix_label (by decide) hbegins
      exact h.element (by rw [← hlabel]; rfl)
    | @comment content hopen hclose =>
      have htrim : Text.trim content = name := trim_eq_of_isCommentOf hname hclose hu htext
      simp [MarkupPiece.isComment, htrim] at hholds
    | data hopen => exact hopen hmem

end Comment

/-! ### Stripping -/

namespace MarkupPiece

/-- A piece with a label is a tag, and **is read as its attributes say**. -/
theorem IsProper.attribute?_text {label key : Text} (h : piece.IsProper)
    (hlabel : piece.hasLabel label = true) (hkey : ∀ c ∈ key, isBlank c = false ∧ c ≠ '"') :
    attribute? key piece.text = piece.value? key := by
  cases h with
  | tag h => exact h.attribute?_text hkey
  | comment => cases hlabel
  | data => cases hlabel

theorem IsProper.isMarker_text (h : piece.IsProper) :
    (piece.hasLabel "w:bookmarkStart" && Bookmark.isMarker names piece.text) = piece.isStart names := by
  cases hlabel : piece.hasLabel "w:bookmarkStart" with
  | false => rw [isStart, hlabel, Bool.false_and, Bool.false_and]
  | true =>
    rw [isStart, hlabel, Bookmark.isMarker, Bookmark.isNamed, Bookmark.isNamed,
      h.attribute?_text hlabel (by decide +kernel)]

theorem IsProper.isPairedWith_text (h : piece.IsProper) (ids : List Text) :
    (piece.hasLabel "w:bookmarkEnd" && ids.any (Bookmark.isPairedWith · piece.text)) = piece.isEnd ids := by
  cases hlabel : piece.hasLabel "w:bookmarkEnd" with
  | false => rw [isEnd, hlabel, Bool.false_and, Bool.false_and]
  | true =>
    have hread : attribute? "w:id" piece.text = piece.value? "w:id" :=
      h.attribute?_text hlabel (by decide +kernel)
    simp only [isEnd, hlabel, Bookmark.isPairedWith, hread]

end MarkupPiece

theorem Bookmark.startTag_reads : Bookmark.startTag.Reads (MarkupPiece.hasLabel "w:bookmarkStart") :=
  tagLength_reads (List.mem_cons_self ..)

theorem Bookmark.endTag_reads : Bookmark.endTag.Reads (MarkupPiece.hasLabel "w:bookmarkEnd") :=
  tagLength_reads (List.mem_cons_of_mem _ (List.mem_singleton_self _))

section Passes

variable (h : ∀ piece ∈ pieces, piece.IsProper)
include h

/-- The identifiers of the bookmarks in a text **are those of the tags** it is made of. -/
theorem Bookmark.markerIds_textOf :
    Bookmark.markerIds names (MarkupPiece.textOf pieces) = MarkupPiece.markerIds names pieces := by
  have hstart : ∀ piece ∈ pieces, (Bookmark.isMarker names piece.text && piece.hasLabel "w:bookmarkStart") =
      piece.isStart names := fun piece hpiece => by rw [Bool.and_comm, (h piece hpiece).isMarker_text]
  rw [Bookmark.markerIds, Bookmark.startTag_reads.matchesIn_textOf h, List.filter_map, List.filterMap_map,
    List.filter_filter]
  simp only [Function.comp_apply]
  rw [List.filter_congr hstart, MarkupPiece.markerIds]
  refine List.filterMap_congr fun piece hpiece => ?_
  obtain ⟨hmem, hmarker⟩ := List.mem_filter.1 hpiece
  exact (h piece hmem).attribute?_text (Bool.and_eq_true _ _ ▸ hmarker).1 (by decide +kernel)

/-- Stripping bookmarks **leaves the other pieces**. -/
theorem Bookmark.strip_textOf :
    Bookmark.strip names (MarkupPiece.textOf pieces) =
      MarkupPiece.textOf (pieces.filter fun piece =>
        !(piece.isStart names || piece.isEnd (MarkupPiece.markerIds names pieces))) := by
  have hrest : ∀ piece ∈ pieces.filter fun piece => !piece.isStart names, piece.IsProper :=
    fun piece hpiece => h piece (List.mem_of_mem_filter hpiece)
  have hstarts : (pieces.filter fun piece =>
      !(piece.hasLabel "w:bookmarkStart" && Bookmark.isMarker names piece.text)) =
        pieces.filter fun piece => !piece.isStart names :=
    List.filter_congr fun piece hpiece => by rw [(h piece hpiece).isMarker_text]
  rw [Bookmark.strip, Bookmark.markerIds_textOf h, Bookmark.startTag_reads.erase_textOf h, hstarts,
    Bookmark.endTag_reads.erase_textOf hrest, List.filter_filter]
  refine congrArg MarkupPiece.textOf (List.filter_congr fun piece hpiece => ?_)
  rw [(h piece hpiece).isPairedWith_text, Bool.not_or, Bool.and_comm]

/-- Erasing the comments of a name **leaves the other pieces**. -/
theorem Comment.erase_textOf (hname : IsMarkerName name) :
    Comment.erase name (MarkupPiece.textOf pieces) =
      MarkupPiece.textOf (pieces.filter fun piece => !piece.isComment name) := by
  have herase := (Comment.marker_reads hname).erase_textOf h fun _ => true
  simp only [if_true, Bool.and_true] at herase
  exact herase

theorem stripMarkers_eq_textOf_kept (hstart : IsMarkerName names.start) (hstop : IsMarkerName names.stop) :
    stripMarkers names (MarkupPiece.textOf pieces) = MarkupPiece.textOf (MarkupPiece.kept names pieces) := by
  have hfilter {q : MarkupPiece → Bool} : ∀ piece ∈ pieces.filter q, piece.IsProper :=
    fun piece hpiece => h piece (List.mem_of_mem_filter hpiece)
  rw [stripMarkers, Bookmark.strip_textOf h, Comment.strip, Comment.erase_textOf hfilter hstart,
    List.filter_filter, Comment.erase_textOf hfilter hstop, List.filter_filter, MarkupPiece.kept]
  refine congrArg MarkupPiece.textOf (List.filter_congr fun piece _ => ?_)
  simp only [MarkupPiece.isMarker, Bool.not_or]
  ac_rfl

/-- Pieces that are no markers **hold none**. -/
theorem absentFrom_textOf (hstart : IsMarkerName names.start) (hstop : IsMarkerName names.stop)
    (hnone : ∀ piece ∈ pieces, piece.isStart names = false ∧ piece.isComment names.start = false ∧
      piece.isComment names.stop = false) :
    names.AbsentFrom (MarkupPiece.textOf pieces) := by
  -- what is found would be one of the pieces
  have hbookmark : ∀ name ∈ [names.start, names.stop],
      Bookmark.findStart? name (MarkupPiece.textOf pieces) = none := by
    intro name hname
    rw [Bookmark.findStart?, findMatch?_eq_none_iff, Bookmark.startTag_reads.matchesIn_textOf h]
    rintro _ htext
    obtain ⟨piece, hpiece, rfl⟩ := List.mem_map.1 htext
    obtain ⟨hmem, hlabel⟩ := List.mem_filter.1 hpiece
    have hmarker : (piece.hasLabel "w:bookmarkStart" && Bookmark.isMarker names piece.text) =
        piece.isStart names := (h piece hmem).isMarker_text
    rw [hlabel, (hnone piece hmem).1, Bool.true_and, Bookmark.isMarker, Bool.or_eq_false_iff] at hmarker
    rcases List.mem_pair.1 hname with rfl | rfl
    exacts [hmarker.1, hmarker.2]
  have hcomment {name : Text} (hname : IsMarkerName name)
      (hnone : ∀ piece ∈ pieces, piece.isComment name = false) :
      Comment.find? name (MarkupPiece.textOf pieces) = none := by
    rw [Comment.find?, findMatch?_eq_none_iff, (Comment.marker_reads hname).matchesIn_textOf h,
      List.filter_eq_nil_iff.2 fun piece hpiece => by rw [hnone piece hpiece]; exact Bool.false_ne_true]
    exact List.forall_mem_nil _
  constructor
  · rw [Bookmark.isPresent, hbookmark _ (List.mem_cons_self ..),
      hbookmark _ (List.mem_cons_of_mem _ (List.mem_singleton_self _))]
    rfl
  · rw [Comment.isPresent, hcomment hstart fun piece hpiece => (hnone piece hpiece).2.1,
      hcomment hstop fun piece hpiece => (hnone piece hpiece).2.2]
    rfl

end Passes

/-- **Stripping removes the markers, and nothing else.** Of a row of tags, comments and character data
those pieces are left that are neither the start tag of one of the two bookmarks, nor an end tag that is
paired with one, nor a comment that holds one of the two names; they stay in their order and as they were.
No marker is found in what is left, so that stripping it again changes nothing. -/
theorem stripMarkers_textOf (names : MarkerNames) (hstart : IsMarkerName names.start)
    (hstop : IsMarkerName names.stop) (pieces : List MarkupPiece) (h : ∀ piece ∈ pieces, piece.IsProper) :
    stripMarkers names (MarkupPiece.textOf pieces) = MarkupPiece.textOf (MarkupPiece.kept names pieces) ∧
      names.AbsentFrom (stripMarkers names (MarkupPiece.textOf pieces)) ∧
      stripMarkers names (stripMarkers names (MarkupPiece.textOf pieces)) =
        stripMarkers names (MarkupPiece.textOf pieces) := by
  have hstrip := stripMarkers_eq_textOf_kept h hstart hstop
  have habsent : names.AbsentFrom (MarkupPiece.textOf (MarkupPiece.kept names pieces)) := by
    refine absentFrom_textOf (fun piece hpiece => h piece (List.mem_of_mem_filter hpiece)) hstart hstop ?_
    intro piece hpiece
    have hmarker := (List.mem_filter.1 hpiece).2
    simp only [MarkupPiece.isMarker, Bool.not_or, Bool.and_eq_true, Bool.not_eq_true'] at hmarker
    obtain ⟨⟨⟨hstart, -⟩, hcomment⟩, hcomment'⟩ := hmarker
    exact ⟨hstart, hcomment, hcomment'⟩
  rw [hstrip]
  exact ⟨rfl, habsent, habsent.stripMarkers_eq⟩

/-- A bookmark of another name stands around a text, and comments and the start bookmark in it. -/
theorem stripMarkers_textOf_in_bookmark :
    stripMarkers .standard ("<w:bookmarkStart w:id=\"7\" w:name=\"Other\"/>Grüße" ++
        "<w:bookmarkStart w:id=\"0\" w:name=\"SectionStart\"/><!-- SectionStart --><!-- Section -->" ++
        "<w:bookmarkEnd w:id=\"0\"/><w:bookmarkEnd w:id=\"7\"/>") =
      "<w:bookmarkStart w:id=\"7\" w:name=\"Other\"/>Grüße<!-- Section --><w:bookmarkEnd w:id=\"7\"/>" := by
  have hstrip (fragment rest : Text) (pieces : List MarkupPiece) (h : ∀ piece ∈ pieces, piece.IsProper)
      (htext : MarkupPiece.textOf pieces = fragment)
      (hkept : MarkupPiece.textOf (MarkupPiece.kept .standard pieces) = rest) :
      stripMarkers .standard fragment = rest := by
    rw [← htext, ← hkept]
    exact (stripMarkers_textOf .standard ⟨by decide, by decide⟩ ⟨by decide, by decide⟩ pieces h).1
  exact hstrip _ _
    [.tag ⟨"w:bookmarkStart", [⟨" ", "w:id", "7"⟩, ⟨" ", "w:name", "Other"⟩], [], true⟩, .data "Grüße",
      .tag ⟨"w:bookmarkStart", [⟨" ", "w:id", "0"⟩, ⟨" ", "w:name", "SectionStart"⟩], [], true⟩,
      .comment " SectionStart ", .comment " Section ",
      .tag ⟨"w:bookmarkEnd", [⟨" ", "w:id", "0"⟩], [], true⟩,
      .tag ⟨"w:bookmarkEnd", [⟨" ", "w:id", "7"⟩], [], true⟩]
    (by decide +kernel) (by decide +kernel) (by decide +kernel)

end MailMerge
