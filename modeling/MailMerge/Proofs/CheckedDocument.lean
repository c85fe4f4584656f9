import MailMerge.Proofs.CharacterReferences
import MailMerge.Proofs.ContentTree

/-!
# Checked documents

A document that passes the check is the text of a tree with one root, behind a byte order mark
maybe. What is no tag is read up to its first end, a tag up to its first `>` outside quotes, and all
references in character data stand for characters. What stands behind the name of an element is not
looked at, and neither are the characters of a text.

The check goes from event to event with the names of the open elements. So what it has found behind
some event is not a tree but a row of them, each but the last with the end tag of an open element
behind it; each event is put in front of the first of them.

* `IsDocument` says that a text is a tree with one root;
* `Event.Reads` says what can stand at the head of a text that begins with `<`, and
  `Event.reads_read` that the reader tells what does;
* `Closes` says of a text that it closes the open elements;
* `isDocument_of_checkWellFormed` — a document that passes the check is a tree with one root.
-/

namespace MailMerge

/-! ### The specification -/

/-- What may stand **between the brackets of a tag**: texts in quotes, and characters that are
neither quotes nor closing brackets. -/
inductive TagText : Text → Prop
  | nil : TagText []
  | char {c : Char} {t : Text} (hclose : c ≠ '>') (hdouble : c ≠ '"') (hsingle : c ≠ '\'') :
      TagText t → TagText (c :: t)
  | quoted {quote : Char} {u t : Text} (hquote : quote = '"' ∨ quote = '\'') (hu : quote ∉ u) :
      TagText t → TagText (quote :: u ++ quote :: t)

/-- Markup that is **no tag**: a comment, a section of literal data and an instruction go to their
first end, a document type to the first `>` before which as many brackets are closed as are
opened. -/
inductive IsAside : Text → Prop
  | comment {body : Text} (h : ¬ "-->".toList <:+: body) : IsAside ("<!--" ++ body ++ "-->")
  | literal {body : Text} (h : ¬ "]]>".toList <:+: body) : IsAside ("<![CDATA[" ++ body ++ "]]>")
  | instruction {body : Text} (h : ¬ "?>".toList <:+: '?' :: body) : IsAside ("<?" ++ body ++ "?>")
  | doctype {body : Text} (hkeyword : Text.startsWith "doctype" (Text.asciiLower body) = true)
      (hbalanced : body.count '<' = body.count '>')
      (h : ∀ u v, body = u ++ '>' :: v → u.count '<' ≠ u.count '>') : IsAside ("<!" ++ body ++ ">")

/-- The label of a tag that is **read as such**: its name goes to the first blank, it does not begin
like other markup, and no `>` stands in it outside quotes. -/
structure Label.IsRead (label : Label) : Prop where
  tagText : TagText label.text
  name : ∀ c ∈ label.name, isMarkupBlank c = false
  attributes : ∀ c ∈ label.attributes.head?, isMarkupBlank c = true
  head : ∀ c ∈ label.text.head?, c ∉ ['!', '?', '/']

/-- The pieces of a document that has been read: character data whose **references stand for
characters**, asides up to their end, labels, of which that of a start tag does not end in the slash
of an empty element, and blanks in end tags. -/
def readPieces : PieceKinds where
  data run := '<' ∉ run ∧ Referenced run
  aside := IsAside
  empty label := label.text ≠ [] ∧ label.IsRead
  start label := label.text.getLast? ≠ some '/' ∧ label.IsRead
  blanks _ blanks := ∀ c ∈ blanks, isMarkupBlank c = true

/-- Whether a text is a **document**: a tree with one root, behind a byte order mark maybe. -/
def IsDocument (t : Text) : Prop :=
  ∃ content : Content, (t = content.text ∨ t = '\ufeff' :: content.text) ∧
    content.MadeOf readPieces ∧
    content.roots = 1

variable {t u content rest markup : Text} {c : Char} {label : Label} {event : Event}

/-! ### Ends of markup -/

namespace Event

/-- What may stand before the end of a tag, inside quotes or not. -/
def EndsTag (q : Option Char) (t : Text) : Prop :=
  match q with
  | none => TagText t
  | some quote => ∃ u v, t = u ++ quote :: v ∧ quote ∉ u ∧ TagText v

/-- A tag is split at its **first `>` outside quotes**. -/
theorem splitTag_spec {q : Option Char} {p : Text × Text}
    (hq : ∀ quote ∈ q, quote = '"' ∨ quote = '\'')
    (h : splitTag q t = some p) : t = p.1 ++ '>' :: p.2 ∧ EndsTag q p.1 := by
  induction t generalizing q p with
  | nil => cases h
  | cons c t ih =>
    cases q with
    | none =>
      rw [splitTag] at h
      split at h
      case isTrue hclose =>
        cases h
        exact ⟨by rw [hclose]; rfl, .nil⟩
      case isFalse hclose =>
        obtain ⟨r, hr, rfl⟩ := Option.map_eq_some_iff.1 h
        -- a quote leads into a text in quotes, in which no bracket ends the tag
        by_cases hquote : c = '"' ∨ c = '\''
        · rw [if_pos hquote] at hr
          obtain ⟨rfl, u, v, hu, hmem, hv⟩ := ih (by simpa using hquote) hr
          have htag : TagText (c :: r.1) := by
            rw [hu]
            exact .quoted hquote hmem hv
          exact ⟨rfl, htag⟩
        · rw [if_neg hquote] at hr
          obtain ⟨rfl, htag⟩ := ih (by simp) hr
          exact ⟨rfl, .char hclose (fun h => hquote (.inl h)) (fun h => hquote (.inr h)) htag⟩
    | some quote =>
      rw [splitTag] at h
      obtain ⟨r, hr, rfl⟩ := Option.map_eq_some_iff.1 h
      by_cases hc : c = quote
      · rw [if_pos hc] at hr
        obtain ⟨rfl, htag⟩ := ih (by simp) hr
        exact ⟨rfl, [], r.1, by rw [hc]; rfl, List.not_mem_nil, htag⟩
      · rw [if_neg hc] at hr
        obtain ⟨rfl, u, v, hu, hmem, hv⟩ := ih hq hr
        exact ⟨rfl, c :: u, v, by rw [hu]; rfl, by simp [hmem, Ne.symm hc], hv⟩

/-- Other markup is split at the **first `>` that closes** it. -/
theorem splitWhere_spec {closes : Text → Bool} {before : Text} {p : Text × Text}
    (h : splitWhere closes before t = some p) : ∃ inner, p.1 = before.reverse ++ inner ∧
      t = inner ++ '>' :: p.2 ∧ closes (inner.reverse ++ before) = true ∧
      ∀ u v, inner = u ++ '>' :: v → closes (u.reverse ++ before) = false := by
  -- The search keeps what it has passed in reverse, so a step moves one character to that side.
  fun_induction splitWhere closes before t generalizing p with
  | case1 => cases h
  | case2 before c t hcloses =>
    cases h
    rw [Bool.and_eq_true, decide_eq_true_eq] at hcloses
    exact ⟨[], by simp, by rw [hcloses.1]; rfl, hcloses.2, fun u v huv => by cases u <;> cases huv⟩
  | case3 before c t hcloses ih =>
    obtain ⟨inner, hp, rfl, hclosed, hfirst⟩ := ih h
    refine ⟨c :: inner, by rw [hp]; simp, rfl, by simpa using hclosed, fun u v huv => ?_⟩
    cases u with
    | nil =>
      obtain rfl := (List.cons.inj huv).1
      simpa using hcloses
    | cons d u =>
      obtain ⟨rfl, rfl⟩ := List.cons.inj huv
      simpa using hfirst u v rfl

end Event

/-! ### Tags -/

/-- The slash of an empty element **stands outside quotes**. -/
theorem TagText.of_concat (h : TagText (u ++ ['/'])) : TagText u := by
  generalize ht : u ++ ['/'] = t at h
  induction h generalizing u with
  | nil => exact absurd ht (by simp)
  | char hclose hdouble hsingle h ih =>
    cases u with
    | nil => exact .nil
    | cons d u =>
      obtain ⟨rfl, rfl⟩ := List.cons.inj ht
      exact .char hclose hdouble hsingle (ih rfl)
  | @quoted quote v t hquote hv h ih =>
    -- the last character is none of the quotes, so that it stands behind them
    rcases List.eq_nil_or_concat' t with rfl | ⟨t, d, rfl⟩
    · have hlast :=
        (List.append_inj' (show u ++ ['/'] = (quote :: v) ++ [quote] by simpa using ht) rfl).2
      rcases hquote with rfl | rfl <;> cases hlast
    · have htext : u ++ ['/'] = (quote :: v ++ quote :: t) ++ [d] := by simpa using ht
      obtain ⟨rfl, hd⟩ := List.append_inj' htext rfl
      exact .quoted hquote hv (ih (by rw [(List.cons.inj hd).1]))

namespace Label

/-- The label that a text is: a name up to the first blank, and what stands behind it. -/
def ofText (t : Text) : Label := ⟨Event.nameOf t, t.dropWhile fun c => !isMarkupBlank c⟩

@[simp] theorem name_ofText (t : Text) : (ofText t).name = Event.nameOf t := rfl

@[simp] theorem text_ofText (t : Text) : (ofText t).text = t := List.takeWhile_append_dropWhile

theorem isRead_ofText (htag : TagText t) (hhead : ∀ c ∈ t.head?, c ∉ ['!', '?', '/']) :
    (ofText t).IsRead where
  tagText := by rwa [text_ofText]
  name c hc := by simpa using List.mem_takeWhile_imp hc
  attributes c hc := by
    have hnot := List.head?_dropWhile_not (fun c => !isMarkupBlank c) t
    rw [show t.dropWhile _ = (ofText t).attributes from rfl, hc] at hnot
    simpa using hnot
  head := by rwa [text_ofText]

end Label

/-! ### Reading -/

/-- What the reader can find **at the head of a text** that begins with `<`, and what follows it. -/
inductive Event.Reads : Text → Event → Text → Prop
  | startTag {label : Label} {rest : Text} (h : readPieces.start label) :
      Reads (label.startTag ++ rest) (.startTag label.name) rest
  | emptyTag {label : Label} {rest : Text} (h : readPieces.empty label) :
      Reads (label.emptyTag ++ rest) (.emptyTag label.name) rest
  | endTag {content rest : Text} :
      Reads ('<' :: '/' :: (content ++ '>' :: rest)) (.endTag (endNameOf content)) rest
  | aside {markup rest : Text} (h : IsAside markup) : Reads (markup ++ rest) .aside rest
  | namelessDoctype {t rest : Text} : Reads t .namelessDoctype rest
  | broken {t rest : Text} {fault : SyntaxFault} : Reads t (.broken fault) rest

namespace Event

theorem reads_tag (hhead : ∀ c ∈ t.head?, c ∉ ['!', '?', '/']) {p : Text × Text}
    (h : splitTag none t = some p) : Reads ('<' :: t) (ofTag p.1) p.2 := by
  obtain ⟨ht, htag⟩ := splitTag_spec (by simp) h
  obtain ⟨content, rest⟩ := p
  dsimp only at ht htag ⊢
  subst ht
  have hcontent : ∀ c ∈ content.head?, c ∉ ['!', '?', '/'] := by
    cases content with
    | nil => simp
    | cons d content => exact hhead
  unfold ofTag
  split
  case h_1 r hreverse =>
    -- the label of an empty element is what stands before the slash
    obtain rfl : content = r.reverse ++ ['/'] := by
      rw [← List.reverse_reverse content, hreverse, List.reverse_cons]
    have hne : r.reverse ≠ [] := by
      intro hnil
      rw [hnil] at hcontent
      exact absurd (hcontent '/' rfl) (by decide)
    have hread : (Label.ofText r.reverse).IsRead := by
      refine Label.isRead_ofText htag.of_concat fun c hc => hcontent c ?_
      rw [List.head?_append_of_ne_nil _ hne]
      exact hc
    have hlabel : readPieces.empty (Label.ofText r.reverse) := ⟨by rwa [Label.text_ofText], hread⟩
    have hreads :
        Reads ((Label.ofText r.reverse).emptyTag ++ rest) (.emptyTag (nameOf r.reverse)) rest :=
      .emptyTag hlabel
    rw [Label.emptyTag, Label.text_ofText] at hreads
    simpa using hreads
  case h_2 hreverse =>
    have hlast : content.getLast? ≠ some '/' := by
      intro hlast
      obtain ⟨r, rfl⟩ := List.getLast?_eq_some_iff.1 hlast
      exact hreverse r.reverse (by simp)
    have hlabel : readPieces.start (Label.ofText content) :=
      ⟨by rwa [Label.text_ofText], Label.isRead_ofText htag hcontent⟩
    have hreads :
        Reads ((Label.ofText content).startTag ++ rest) (.startTag (nameOf content)) rest :=
      .startTag hlabel
    rw [Label.startTag, Label.text_ofText] at hreads
    simpa using hreads

/-- A text that begins and ends in given ways **has something between** them, if it is long
enough. -/
theorem exists_between {opening closing t : Text} (hopening : Text.startsWith opening t = true)
    (hclosing : Text.startsWith closing t.reverse = true)
    (hlength : opening.length + closing.length ≤ t.length) :
    ∃ body, t = opening ++ (body ++ closing.reverse) := by
  obtain ⟨u, rfl⟩ := Text.startsWith_iff.1 hopening
  obtain ⟨v, hv⟩ := Text.startsWith_iff.1 hclosing
  have htext : opening ++ u = v.reverse ++ closing.reverse := by
    rw [← List.reverse_append, ← hv, List.reverse_reverse]
  rcases List.append_eq_append_iff.1 htext with ⟨body, -, rfl⟩ | ⟨w, hw, hend⟩
  · exact ⟨body, rfl⟩
  · -- what the two ends share is empty
    have hlengths := congrArg List.length hend
    simp only [List.length_append, List.length_reverse] at hlengths hlength
    obtain rfl : w = [] := List.eq_nil_of_length_eq_zero (by omega)
    exact ⟨[], by rw [List.nil_append, hend]; rfl⟩

/-- Markup that goes to **its first end** holds no end before that. -/
theorem not_infix_of_splitWhere {closes : Text → Bool} {p : Text × Text} {body : Text}
    (opening closing : Text)
    (h : splitWhere closes [] t = some p) (hinner : p.1 = opening ++ (body ++ closing.reverse))
    (hcloses : ∀ u, closes (closing ++ (u ++ opening.reverse)) = true) :
    ¬ closing.reverse ++ ['>'] <:+: body := by
  rintro ⟨u, v, rfl⟩
  obtain ⟨inner, hp, -, -, hfirst⟩ := splitWhere_spec h
  obtain rfl : p.1 = inner := hp
  have hopen :=
    hfirst (opening ++ u ++ closing.reverse) (v ++ closing.reverse) (by rw [hinner]; simp)
  simp only [List.append_nil, List.reverse_append, List.reverse_reverse, hcloses] at hopen
  cases hopen

theorem reads_comment {p : Text × Text}
    (h : splitWhere (fun before => Text.startsWith "--" before && 5 ≤ before.length) [] t = some p)
    (hevent : ofComment p.1 = some event) : Reads ('<' :: t) event p.2 := by
  obtain ⟨inner, hp, rfl, hclosed, -⟩ := splitWhere_spec h
  obtain rfl : p.1 = inner := hp
  unfold ofComment at hevent
  split at hevent
  case isFalse => cases hevent
  case isTrue hopening =>
    cases hevent
    rw [List.append_nil, Bool.and_eq_true, decide_eq_true_eq, List.length_reverse] at hclosed
    -- The bound on the length keeps the two ends of a comment from sharing a dash.
    obtain ⟨body, hbody⟩ := exists_between hopening hclosed.1 hclosed.2
    have hmem : ¬ "-->".toList <:+: body :=
      not_infix_of_splitWhere "!--" "--" h hbody fun u => by
        simp [Text.startsWith, Text.dropPrefix?]
    have hreads : Reads ("<!--" ++ body ++ "-->" ++ p.2) .aside p.2 := .aside (.comment hmem)
    rw [hbody]
    simpa using hreads

theorem reads_literal {p : Text × Text} (h : splitWhere (Text.startsWith "]]") [] t = some p)
    (hevent : ofCData p.1 = some event) : Reads ('<' :: t) event p.2 := by
  obtain ⟨inner, hp, rfl, hclosed, -⟩ := splitWhere_spec h
  obtain rfl : p.1 = inner := hp
  unfold ofCData at hevent
  split at hevent
  case isFalse => cases hevent
  case isTrue hopening =>
    cases hevent
    rw [List.append_nil] at hclosed
    -- the brackets at the end are not those at the start
    have hlength : "![CDATA[".toList.length + "]]".toList.length ≤ p.1.length := by
      obtain ⟨w, hw⟩ := Text.startsWith_iff.1 hopening
      rw [hw] at hclosed ⊢
      match w with
      | [] => exact absurd hclosed (by decide)
      | [c] => simp [Text.startsWith, Text.dropPrefix?] at hclosed
      | _ :: _ :: _ => simp
    obtain ⟨body, hbody⟩ := exists_between hopening hclosed hlength
    have hmem : ¬ "]]>".toList <:+: body :=
      not_infix_of_splitWhere "![CDATA[" "]]" h hbody fun u => Text.startsWith_iff.2 ⟨_, rfl⟩
    have hreads : Reads ("<![CDATA[" ++ body ++ "]]>" ++ p.2) .aside p.2 := .aside (.literal hmem)
    rw [hbody]
    simpa using hreads

theorem reads_instruction {p : Text × Text}
    (h : splitWhere (Text.startsWith "?") [] ('?' :: t) = some p)
    (hevent : ofInstruction p.1 = some event) :
    Reads ('<' :: '?' :: t) event p.2 := by
  obtain ⟨inner, hp, ht, hclosed, -⟩ := splitWhere_spec h
  obtain rfl : p.1 = inner := hp
  unfold ofInstruction at hevent
  split at hevent
  case isFalse => cases hevent
  case isTrue hlength =>
    cases hevent
    rw [List.append_nil] at hclosed
    have hopening : Text.startsWith "?" p.1 = true := by
      cases hinner : p.1 with
      | nil => rw [hinner] at hlength; cases hlength
      | cons c inner =>
        rw [hinner] at ht
        obtain rfl := (List.cons.inj ht).1
        simp [Text.startsWith, Text.dropPrefix?]
    obtain ⟨body, hbody⟩ := exists_between hopening hclosed hlength
    -- the question mark at the start may be that of the end
    have hmem : ¬ "?>".toList <:+: '?' :: body :=
      not_infix_of_splitWhere [] "?" h hbody fun u => Text.startsWith_iff.2 ⟨_, rfl⟩
    have hreads : Reads ("<?" ++ body ++ "?>" ++ p.2) .aside p.2 := .aside (.instruction hmem)
    rw [ht, hbody]
    simpa using hreads

theorem reads_doctype {p : Text × Text}
    (h : splitWhere (fun before => before.count '<' == before.count '>') [] ('!' :: t) = some p)
    (hevent : ofDoctype p.1 = some event) : Reads ('<' :: '!' :: t) event p.2 := by
  obtain ⟨inner, hp, ht, hclosed, hfirst⟩ := splitWhere_spec h
  obtain rfl : p.1 = inner := hp
  unfold ofDoctype at hevent
  split at hevent
  case isFalse => cases hevent
  case isTrue hkeyword =>
    split at hevent
    case isTrue =>
      cases hevent
      exact .namelessDoctype
    case isFalse =>
      cases hevent
      obtain ⟨c, body, hbody⟩ := List.exists_cons_of_ne_nil (show p.1 ≠ [] by
        rintro hnil
        rw [hnil] at hkeyword
        cases hkeyword)
      rw [hbody] at ht hkeyword hclosed
      obtain rfl := (List.cons.inj ht).1
      have haside : IsAside ("<!" ++ body ++ ">") := by
        refine .doctype hkeyword (by simpa using hclosed) fun u v huv => ?_
        have := hfirst ('!' :: u) v (by rw [hbody, huv]; rfl)
        simpa using this
      have hreads : Reads ("<!" ++ body ++ ">" ++ p.2) .aside p.2 := .aside haside
      rw [ht]
      simpa using hreads

/-- A piece that is split at its end is broken, or **what its content is**. -/
theorem reads_ofSplit {split : Option (Text × Text)} {fault : SyntaxFault}
    {event? : Text → Option Event}
    (h : ∀ p event, split = some p → event? p.1 = some event → Reads ('<' :: t) event p.2) :
    Reads ('<' :: t) (Piece.ofSplit t split fault event?).event
      (Piece.ofSplit t split fault event?).rest := by
  unfold Piece.ofSplit
  split
  case h_1 => exact .broken
  case h_2 _ content rest =>
    split
    case h_1 => exact .broken
    case h_2 event hevent => exact h (content, rest) event rfl hevent

/-- The reader **tells what stands at the head** of a text. -/
theorem reads_read (t : Text) : Reads ('<' :: t) (read t).event (read t).rest := by
  unfold read
  split
  case h_1 => exact .broken
  case h_2 t =>
    unfold readDeclaration
    rw [List.drop_succ_cons, List.drop_zero]
    split
    case h_1 => exact reads_ofSplit fun p event h hevent => reads_literal h hevent
    case h_2 => exact reads_ofSplit fun p event h hevent => reads_comment h hevent
    case h_3 => exact reads_ofSplit fun p event h hevent => reads_doctype h hevent
    case h_4 => exact reads_ofSplit fun p event h hevent => reads_doctype h hevent
    case h_5 => exact .broken
  case h_3 => exact reads_ofSplit fun p event h hevent => reads_instruction h hevent
  case h_4 t =>
    refine reads_ofSplit fun p event h hevent => ?_
    cases hevent
    obtain ⟨ht, -⟩ := splitTag_spec (by simp) h
    obtain ⟨content, rest⟩ := p
    cases content with
    | nil => cases ht
    | cons c content =>
      obtain ⟨rfl, rfl⟩ := List.cons.inj ht
      exact .endTag
  case h_5 hdeclaration hinstruction hend =>
    -- The earlier cases have taken every other kind of markup, so this is a start tag or an empty one.
    refine reads_ofSplit fun p event h hevent => ?_
    cases hevent
    refine reads_tag (fun c hc hmem => ?_) h
    obtain ⟨u, rfl⟩ := List.head?_eq_some_iff.1 hc
    simp only [List.mem_cons, List.not_mem_nil, or_false] at hmem
    rcases hmem with rfl | rfl | rfl
    · exact hdeclaration _ rfl
    · exact hinstruction _ rfl
    · exact hend _ rfl

end Event

/-! ### Closing elements -/

/-- Whether a text **closes the open elements** of the given names, innermost first, so that there
is one root in the end: behind a tree stands the end tag of an open element, or nothing if none is
open. -/
def Closes : List Text → Nat → Text → Prop
  | [], roots, t =>
    ∃ content : Content, t = content.text ∧ content.MadeOf readPieces ∧ roots + content.roots = 1
  | name :: outer, roots, t =>
    ∃ (content : Content) (blanks rest : Text),
      t = content.text ++ (Label.endTag ⟨name, []⟩ blanks ++ rest) ∧
      content.MadeOf readPieces ∧ readPieces.blanks name blanks ∧ Closes outer roots rest

namespace Closes

variable {names : List Text} {name blanks : Text} {roots : Nat}

/-- A tree **in front of** a text that closes the open elements. It stands in the innermost one, or
gives roots if there is none. -/
theorem prepend {content : Content} (hcontent : content.MadeOf readPieces)
    (h : Closes names (if names.isEmpty then roots + content.roots else roots) t) :
    Closes names roots (content.text ++ t) := by
  cases names with
  | nil =>
    obtain ⟨rest, rfl, hrest, hroots⟩ := h
    refine ⟨content.append rest, (Content.text_append ..).symm, hcontent.append hrest, ?_⟩
    rw [Content.roots_append, ← Nat.add_assoc]
    exact hroots
  | cons name outer =>
    obtain ⟨inside, blanks, rest, rfl, hinside, hblanks, houter⟩ := h
    refine ⟨content.append inside, blanks, rest, ?_, hcontent.append hinside, hblanks, houter⟩
    rw [Content.text_append, List.append_assoc]

theorem data (hrun : '<' ∉ u) (href : Referenced u) (h : Closes names roots t) :
    Closes names roots (u ++ t) := by
  have hcontent : (Content.data u .nil).MadeOf readPieces := ⟨⟨hrun, href⟩, trivial⟩
  have hprepend : Closes names roots ((Content.data u .nil).text ++ t) :=
    prepend hcontent (by simpa [Content.roots] using h)
  simpa [Content.text] using hprepend

theorem aside (hmarkup : IsAside markup) (h : Closes names roots t) :
    Closes names roots (markup ++ t) := by
  have hcontent : (Content.aside markup .nil).MadeOf readPieces := ⟨hmarkup, trivial⟩
  have hprepend : Closes names roots ((Content.aside markup .nil).text ++ t) :=
    prepend hcontent (by simpa [Content.roots] using h)
  simpa [Content.text] using hprepend

theorem empty (hlabel : readPieces.empty label)
    (h : Closes names (if names.isEmpty then roots + 1 else roots) t) :
    Closes names roots (label.emptyTag ++ t) := by
  have hcontent : (Content.empty label .nil).MadeOf readPieces := ⟨hlabel, trivial⟩
  have hprepend := prepend hcontent h
  simpa [Content.text] using hprepend

/-- A start tag and what closes its element **are an element**. -/
theorem element (hlabel : readPieces.start label)
    (h : Closes (label.name :: names) (if names.isEmpty then roots + 1 else roots) t) :
    Closes names roots (label.startTag ++ t) := by
  obtain ⟨inside, blanks, rest, rfl, hinside, hblanks, houter⟩ := h
  have hcontent : (Content.element label inside blanks .nil).MadeOf readPieces :=
    ⟨hlabel, hinside, hblanks, trivial⟩
  have hprepend := prepend hcontent houter
  simpa [Content.text, Label.endTag] using hprepend

/-- The **end tag** of the innermost element. -/
theorem endTag (hblanks : readPieces.blanks name blanks) (h : Closes names roots t) :
    Closes (name :: names) roots (Label.endTag ⟨name, []⟩ blanks ++ t) :=
  ⟨.nil, blanks, t, rfl, trivial, hblanks, h⟩

end Closes

/-! ### Checking -/

section Check

variable {names : List Text} {roots offset : Nat}

/-- The name of an end tag is all of it but **blanks at its end**. -/
theorem exists_blanks_of_endNameOf (t : Text) :
    ∃ blanks, t = Event.endNameOf t ++ blanks ∧ ∀ c ∈ blanks, isMarkupBlank c = true := by
  have htext : t = (t.reverse.dropWhile isMarkupBlank).reverse ++
      (t.reverse.takeWhile isMarkupBlank).reverse := by
    rw [← List.reverse_append, List.takeWhile_append_dropWhile, List.reverse_reverse]
  unfold Event.endNameOf
  dsimp only
  split
  case isTrue => exact ⟨[], (List.append_nil t).symm, fun c hc => nomatch hc⟩
  case isFalse =>
    refine ⟨_, htext, fun c hc => ?_⟩
    exact List.mem_takeWhile_imp (List.mem_reverse.1 hc)

/-- What is checked as an end tag **ends the innermost element** if it has its name. -/
theorem Closes.endTag_of_content {content rest : Text} (h : Closes names roots rest) :
    Closes (Event.endNameOf content :: names) roots ('<' :: '/' :: content ++ '>' :: rest) := by
  obtain ⟨blanks, hcontent, hblanks⟩ := exists_blanks_of_endNameOf content
  have hcloses : Closes (Event.endNameOf content :: names) roots
      (Label.endTag ⟨Event.endNameOf content, []⟩ blanks ++ rest) := .endTag hblanks h
  rw [Label.endTag, ← hcontent] at hcloses
  simpa using hcloses

/-- A text whose events **pass the check** closes the open elements. -/
theorem closes_of_checkEvents (h : checkEvents names roots (eventsFrom offset t) = .ok ()) :
    Closes names roots t := by
  -- by induction on the length: behind the first piece of markup the text is shorter
  induction hlen : t.length using Nat.strongRecOn generalizing t names roots offset with
  | ind n ih =>
    by_cases hmem : '<' ∈ t
    · obtain ⟨data, markup, rfl, hdata⟩ := List.eq_append_cons_of_mem hmem
      obtain ⟨start, stop, hevents⟩ := eventsFrom_markup hdata offset markup
      rw [hevents] at h
      obtain ⟨hrefs, hcheck⟩ := checkEvents_data.1 h
      refine .data hdata (referenced_of_checkReferences hrefs) ?_
      have hlt : (Event.read markup).rest.length < n := by
        have hle := Event.length_read markup
        rw [← hlen, List.length_append, List.length_cons]
        omega
      have hreads := Event.reads_read markup
      -- what the event is and what follows it is all that matters from here on
      generalize (Event.read markup).event = event at hcheck hreads
      generalize (Event.read markup).rest = rest at hcheck hreads hlt
      generalize '<' :: markup = t at hreads
      cases hreads with
      | startTag hlabel => exact .element hlabel (ih _ hlt hcheck rfl)
      | emptyTag hlabel => exact .empty hlabel (ih _ hlt hcheck rfl)
      | @endTag content rest =>
        cases names with
        | nil => cases hcheck
        | cons name outer =>
          -- the tag has to close the innermost element
          rw [checkEvents] at hcheck
          split at hcheck
          case isFalse => cases hcheck
          case isTrue heq =>
            subst heq
            have hcloses : Closes (Event.endNameOf content :: outer) roots
                ('<' :: '/' :: content ++ '>' :: rest) := .endTag_of_content (ih _ hlt hcheck rfl)
            simpa using hcloses
      | aside hmarkup => exact .aside hmarkup (ih _ hlt hcheck rfl)
      | namelessDoctype => cases hcheck
      | broken => cases hcheck
    · -- behind the last run no element is open, and there has been one root
      rw [eventsFrom_data hmem, ← List.append_nil (dataEvents _ _)] at h
      obtain ⟨hrefs, h⟩ := checkEvents_data.1 h
      have hend : (⟨names, roots⟩ : Elements) = ⟨[], 1⟩ := checkEvents_nil.1 h
      cases hend
      rw [← List.append_nil t]
      exact .data hmem (referenced_of_checkReferences hrefs) ⟨.nil, rfl, trivial, rfl⟩

/-- A text that **passes the check** is a document. -/
theorem isDocument_of_checkWellFormed (h : checkWellFormed t = .ok ()) : IsDocument t := by
  unfold checkWellFormed events at h
  split at h
  case h_1 u =>
    obtain ⟨content, rfl, hcontent, hroots⟩ := closes_of_checkEvents h
    exact ⟨content, .inr rfl, hcontent, by simpa using hroots⟩
  case h_2 =>
    obtain ⟨content, htext, hcontent, hroots⟩ := closes_of_checkEvents h
    exact ⟨content, .inl htext, hcontent, by simpa using hroots⟩

end Check

end MailMerge
