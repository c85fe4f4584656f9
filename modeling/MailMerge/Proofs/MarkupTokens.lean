import MailMerge.Error
import MailMerge.Proofs.Attributes
import MailMerge.Proofs.ContentTree
import MailMerge.Proofs.KeptTags

/-!
# Checking a sequence of tokens

A text that is put together from tags, characters and references can be checked token by token: the tags
with the names of the open elements as a stack, and each reference for itself. What the check accepts are
the sequences in which the tags nest, as they do by a grammar: an element is an empty tag, or a start tag, a
sequence that nests, and the end tag of the same name.

The check goes through the tokens once, so that it has found less than a nested sequence behind each of
them: for each open element a sequence that nests, up to the end tag of the element. Every token is put in
front of the first of these sequences, and an end tag begins one of its own.

* `MarkupToken` are the tokens, and `MarkupToken.Nests` is the grammar;
* `Elements.walkTokens` goes through tokens, and `checkEvents_textOf_iff` — it is what the check does;
* `MarkupToken.Nests.walkTokens_eq` and `MarkupToken.exists_closes_of_walkTokens` — where it goes through;
* `checkWellFormed_textOf_iff` — the sequences that the check accepts, and the error for all others.
-/

namespace MailMerge

/-! ### The specification -/

/-- A **simple name**: there are no blanks in it, and none of the characters that mean something in a tag. -/
structure IsSimpleName (name : Text) : Prop where
  ne_nil : name ≠ []
  simple : ∀ c ∈ name, isMarkupBlank c = false ∧ c ∉ "<>/!?=\"'&".toList

/-- A **simple attribute**: blanks, a simple name, and a value without brackets, ampersands and quotes of its
own kind. -/
structure Attribute.IsSimple (a : Attribute) : Prop where
  gap_ne_nil : a.gap ≠ []
  gap : ∀ c ∈ a.gap, isMarkupBlank c = true
  name : IsSimpleName a.name
  value : ∀ c ∈ a.value, c ∉ "<>&\"".toList

/-- A **token** of markup: a tag, a character or a reference. -/
inductive MarkupToken where
  | startTag (name : Text) (attributes : List Attribute)
  | emptyTag (name : Text) (attributes : List Attribute)
  | endTag (name : Text)
  | character (c : Char)
  | reference (name : Text)
  deriving DecidableEq, Repr

namespace MarkupToken

/-- The label of a tag with attributes. -/
def label (name : Text) (attributes : List Attribute) : Label := ⟨name, attributes.flatMap Attribute.text⟩

/-- The text of a token. -/
def text : MarkupToken → Text
  | startTag name attributes => (label name attributes).startTag
  | emptyTag name attributes => (label name attributes).emptyTag
  | endTag name => (label name []).endTag []
  | character c => [c]
  | reference name => '&' :: (name ++ [';'])

/-- The text of a sequence of tokens. -/
def textOf (tokens : List MarkupToken) : Text := tokens.flatMap text

/-- A token **as it may occur** in a sequence: names and attributes are simple, characters begin neither tags
nor references, and a reference is one by name and not by number. -/
def IsSimple : MarkupToken → Prop
  | startTag name attributes => IsSimpleName name ∧ ∀ a ∈ attributes, a.IsSimple
  | emptyTag name attributes => IsSimpleName name ∧ ∀ a ∈ attributes, a.IsSimple
  | endTag name => IsSimpleName name
  | character c => c ≠ '<' ∧ c ≠ '&'
  | reference name => name.head? ≠ some '#' ∧ ∀ c ∈ name, c ∉ "<&;".toList

/-- Sequences of tokens in which the tags **nest**, with the number of elements at top level. -/
inductive Nests : List MarkupToken → Nat → Prop
  | nil : Nests [] 0
  | character {c : Char} {rest : List MarkupToken} {n : Nat} : Nests rest n → Nests (character c :: rest) n
  | reference {name : Text} {rest : List MarkupToken} {n : Nat} :
      Nests rest n → Nests (reference name :: rest) n
  | emptyTag {name : Text} {attributes : List Attribute} {rest : List MarkupToken} {n : Nat} :
      Nests rest n → Nests (emptyTag name attributes :: rest) (n + 1)
  | element {name : Text} {attributes : List Attribute} {inside rest : List MarkupToken} {m n : Nat} :
      Nests inside m → Nests rest n →
      Nests (startTag name attributes :: (inside ++ endTag name :: rest)) (n + 1)

/-- Whether all references of a sequence are to **predefined entities**. -/
def Resolve (tokens : List MarkupToken) : Prop := ∀ name, reference name ∈ tokens → name ∈ entityNames

/-- Whether a token is a tag. -/
def isTag : MarkupToken → Bool
  | startTag _ _ | emptyTag _ _ | endTag _ => true
  | character _ | reference _ => false

end MarkupToken

/-- What a token does to the open elements, if it may stand behind them. -/
def Elements.stepToken (e : Elements) : MarkupToken → Option Elements
  | .startTag name _ => some ⟨name :: e.names, e.rootsWith⟩
  | .emptyTag _ _ => some ⟨e.names, e.rootsWith⟩
  | .endTag name =>
    match e.names with
    | expected :: outer => if name = expected then some ⟨outer, e.roots⟩ else Option.none
    | [] => Option.none
  | .character _ | .reference _ => some e

/-- What tokens do to the open elements one after the other. -/
def Elements.walkTokens (e : Elements) (tokens : List MarkupToken) : Option Elements :=
  tokens.foldlM Elements.stepToken e

variable {name content t u : Text} {attributes : List Attribute} {token : MarkupToken}
  {tokens data rest : List MarkupToken} {names : List Text} {e : Elements} {n : Nat}

/-! ### Reading tags -/

theorem TagText.append_of_not_mem (hu : ∀ c ∈ u, c ≠ '>' ∧ c ≠ '"' ∧ c ≠ '\'') (ht : TagText t) :
    TagText (u ++ t) := by
  induction u with
  | nil => exact ht
  | cons c u ih =>
    obtain ⟨⟨hclose, hdouble, hsingle⟩, hu⟩ := List.forall_mem_cons.1 hu
    exact .char hclose hdouble hsingle (ih hu)

theorem IsSimpleName.ne (h : IsSimpleName name) {c d : Char} (hc : c ∈ name)
    (hd : d ∈ "<>/!?=\"'&".toList) : c ≠ d := by
  rintro rfl
  exact (h.simple c hc).2 hd

theorem IsSimpleName.tagText_append (h : IsSimpleName name) (ht : TagText t) : TagText (name ++ t) :=
  .append_of_not_mem (fun _ hc => ⟨h.ne hc (by decide), h.ne hc (by decide), h.ne hc (by decide)⟩) ht

theorem IsSimpleName.not_mem (h : IsSimpleName name) {d : Char} (hd : d ∈ "<>/!?=\"'&".toList) : d ∉ name :=
  fun hmem => h.ne hmem hd rfl

namespace Attribute.IsSimple

variable {a : Attribute} (h : a.IsSimple)
include h

theorem tagText_append (ht : TagText t) : TagText (a.text ++ t) := by
  have hgap : ∀ c ∈ a.gap, c ≠ '>' ∧ c ≠ '"' ∧ c ≠ '\'' := fun c hc => by
    have hblank := h.gap c hc
    refine ⟨?_, ?_, ?_⟩
    · rintro rfl; exact absurd hblank (by decide)
    · rintro rfl; exact absurd hblank (by decide)
    · rintro rfl; exact absurd hblank (by decide)
  have hvalue : '"' ∉ a.value := fun hmem => absurd (h.value _ hmem) (by decide)
  have hquoted : TagText ('"' :: a.value ++ '"' :: t) := .quoted (.inl rfl) hvalue ht
  have htext : a.text ++ t = a.gap ++ (a.name ++ '=' :: ('"' :: a.value ++ '"' :: t)) := by
    simp [Attribute.text]
  rw [htext]
  exact .append_of_not_mem hgap (h.name.tagText_append (.char (by decide) (by decide) (by decide) hquoted))

theorem not_mem_text {bracket : Char} (hbracket : bracket = '<' ∨ bracket = '>') : bracket ∉ a.text := by
  have hgap : bracket ∉ a.gap := fun hmem => by
    have hblank := h.gap _ hmem
    rcases hbracket with rfl | rfl <;> exact absurd hblank (by decide)
  have hname : bracket ∉ a.name := h.name.not_mem (by rcases hbracket with rfl | rfl <;> decide)
  have hvalue : bracket ∉ a.value := fun hmem =>
    h.value _ hmem (by rcases hbracket with rfl | rfl <;> decide)
  rcases hbracket with rfl | rfl <;> simp [Attribute.text, hgap, hname, hvalue]

end Attribute.IsSimple

namespace MarkupToken

/-- What stands between the brackets of a tag **is read as such**. -/
theorem tagText_label (hname : IsSimpleName name) (hattributes : ∀ a ∈ attributes, a.IsSimple)
    (ht : TagText t) : TagText ((label name attributes).text ++ t) := by
  rw [label, Label.text, List.append_assoc]
  refine hname.tagText_append ?_
  induction attributes with
  | nil => exact ht
  | cons a attributes ih =>
    obtain ⟨ha, hattributes⟩ := List.forall_mem_cons.1 hattributes
    rw [List.flatMap_cons, List.append_assoc]
    exact ha.tagText_append (ih hattributes)

theorem not_mem_label (hname : IsSimpleName name) (hattributes : ∀ a ∈ attributes, a.IsSimple)
    {bracket : Char} (hbracket : bracket = '<' ∨ bracket = '>') : bracket ∉ (label name attributes).text := by
  rw [label, Label.text, List.mem_append, not_or]
  refine ⟨hname.not_mem (by rcases hbracket with rfl | rfl <;> decide), fun hmem => ?_⟩
  obtain ⟨a, ha, hmem⟩ := List.mem_flatMap.1 hmem
  exact (hattributes a ha).not_mem_text hbracket hmem

/-- The **name of a tag** goes to the first blank. -/
theorem nameOf_label (hname : IsSimpleName name) (hattributes : ∀ a ∈ attributes, a.IsSimple) :
    Event.nameOf (label name attributes).text = name := by
  have hall : ∀ c ∈ name, (!isMarkupBlank c) = true := fun c hc => by rw [(hname.simple c hc).1]; rfl
  cases attributes with
  | nil => exact (List.takeWhile_append_of_pos hall).trans (List.append_nil _)
  | cons a attributes =>
    have ha := hattributes a (List.mem_cons_self ..)
    obtain ⟨c, gap, hgap⟩ := List.exists_cons_of_ne_nil ha.gap_ne_nil
    have hc : (!isMarkupBlank c) = false := by
      rw [ha.gap c (by rw [hgap]; exact List.mem_cons_self ..)]
      rfl
    have htext : (label name (a :: attributes)).text = name ++ c :: (gap ++ a.name ++ "=\"" ++ a.value ++ "\"" ++
        attributes.flatMap Attribute.text) := by
      simp [label, Label.text, Attribute.text, hgap]
    rw [Event.nameOf, htext]
    exact takeWhile_append_cons hall hc

theorem exists_label_eq_cons (hname : IsSimpleName name) (attributes : List Attribute) :
    ∃ c t, (label name attributes).text = c :: t ∧ c ≠ '!' ∧ c ≠ '?' ∧ c ≠ '/' := by
  obtain ⟨c, u, rfl⟩ := List.exists_cons_of_ne_nil hname.ne_nil
  have hne {d : Char} (hd : d ∈ "<>/!?=\"'&".toList) : c ≠ d := hname.ne (List.mem_cons_self ..) hd
  exact ⟨c, _, rfl, hne (by decide), hne (by decide), hne (by decide)⟩

/-- A start tag **does not end in a slash** before its bracket. -/
theorem getLast?_label (hname : IsSimpleName name) :
    (label name attributes).text.getLast? ≠ some '/' := by
  rcases List.eq_nil_or_concat' attributes with rfl | ⟨attributes, a, rfl⟩
  · intro hlast
    rw [label, Label.text, List.flatMap_nil, List.append_nil] at hlast
    exact hname.not_mem (by decide) (List.mem_of_getLast? hlast)
  · -- behind an attribute there is the quote at the end of its value
    have htext : (label name (attributes ++ [a])).text =
        name ++ attributes.flatMap Attribute.text ++ (a.gap ++ a.name ++ "=\"" ++ a.value) ++ ['"'] := by
      simp [label, Label.text, Attribute.text]
    rw [htext, List.getLast?_concat]
    decide

/-- A tag that begins like those of elements **is split at its end**. -/
theorem tagEvent_of_tagText {c : Char} (hbang : c ≠ '!') (hquery : c ≠ '?') (hslash : c ≠ '/')
    (h : TagText (c :: t)) : tagEvent ('<' :: c :: t ++ ['>']) = Event.ofTag (c :: t) := by
  have hsplit := h.splitTag_append []
  rw [List.cons_append] at hsplit
  rw [tagEvent, List.cons_append, List.cons_append, List.drop_succ_cons, List.drop_zero,
    Event.read_of_ne _ hbang hquery hslash, hsplit]
  rfl

theorem ofTag_of_getLast? (h : content.getLast? ≠ some '/') :
    Event.ofTag content = .startTag (Event.nameOf content) := by
  unfold Event.ofTag
  split
  case h_1 r hreverse =>
    rw [← List.head?_reverse, hreverse] at h
    exact absurd rfl h
  case h_2 => rfl

theorem ofTag_concat (content : Text) : Event.ofTag (content ++ ['/']) = .emptyTag (Event.nameOf content) := by
  have hreverse : (content ++ ['/']).reverse = '/' :: content.reverse := by simp
  rw [Event.ofTag, hreverse]
  exact congrArg (fun t => Event.emptyTag (Event.nameOf t)) content.reverse_reverse

theorem tagEvent_startTag (hname : IsSimpleName name) (hattributes : ∀ a ∈ attributes, a.IsSimple) :
    tagEvent (startTag name attributes).text = .startTag name := by
  have htext := tagText_label hname hattributes .nil
  rw [List.append_nil] at htext
  obtain ⟨c, t, hlabel, hbang, hquery, hslash⟩ := exists_label_eq_cons hname attributes
  calc tagEvent (startTag name attributes).text
    _ = tagEvent ('<' :: c :: t ++ ['>']) := by rw [text, Label.startTag, hlabel]; rfl
    _ = Event.ofTag (label name attributes).text := by
      rw [hlabel] at htext ⊢
      exact tagEvent_of_tagText hbang hquery hslash htext
    _ = .startTag name := by rw [ofTag_of_getLast? (getLast?_label hname), nameOf_label hname hattributes]

theorem tagEvent_emptyTag (hname : IsSimpleName name) (hattributes : ∀ a ∈ attributes, a.IsSimple) :
    tagEvent (emptyTag name attributes).text = .emptyTag name := by
  have hend : TagText ['/'] := .char (by decide) (by decide) (by decide) .nil
  have htext := tagText_label hname hattributes hend
  obtain ⟨c, t, hlabel, hbang, hquery, hslash⟩ := exists_label_eq_cons hname attributes
  calc tagEvent (emptyTag name attributes).text
    _ = tagEvent ('<' :: c :: (t ++ ['/']) ++ ['>']) := by rw [text, Label.emptyTag, hlabel]; simp
    _ = Event.ofTag ((label name attributes).text ++ ['/']) := by
      rw [hlabel] at htext ⊢
      exact tagEvent_of_tagText hbang hquery hslash htext
    _ = .emptyTag name := by rw [ofTag_concat, nameOf_label hname hattributes]

theorem tagEvent_endTag (hname : IsSimpleName name) : tagEvent (endTag name).text = .endTag name := by
  have htext : TagText ('/' :: name) := by
    have hread := hname.tagText_append .nil
    rw [List.append_nil] at hread
    exact .char (by decide) (by decide) (by decide) hread
  have hsplit := htext.splitTag_append []
  -- there is no blank at the end of a name
  have htrim : Event.endNameOf name = name := by
    obtain ⟨u, c, rfl⟩ := (List.eq_nil_or_concat' name).resolve_left hname.ne_nil
    have hc : isMarkupBlank c = false := (hname.simple c (by simp)).1
    have hdrop : ((u ++ [c]).reverse.dropWhile isMarkupBlank).reverse = u ++ [c] := by
      rw [List.reverse_append, List.reverse_singleton, List.singleton_append,
        List.dropWhile_cons_of_neg (by rw [hc]; decide), List.reverse_cons, List.reverse_reverse]
    rw [Event.endNameOf, hdrop]
    exact if_neg (by simp)
  have hread : Event.read (('/' :: name) ++ ['>']) = .ofSplit (('/' :: name) ++ ['>'])
      (Event.splitTag none (('/' :: name) ++ ['>'])) .unclosedTag
        fun content => some (.endTag (Event.endNameOf (content.drop 1))) := rfl
  have hend : (endTag name).text = '<' :: (('/' :: name) ++ ['>']) := by simp [text, label, Label.endTag]
  rw [tagEvent, hend, List.drop_succ_cons, List.drop_zero, hread, hsplit]
  exact congrArg Event.endTag htrim

/-- What a tag does to the open elements **is told by the token**. -/
theorem step_text (h : token.IsSimple) (htag : token.isTag = true) (e : Elements) :
    e.step token.text = e.stepToken token := by
  cases token with
  | startTag name attributes => rw [Elements.step, tagEvent_startTag h.1 h.2, Elements.stepToken]
  | emptyTag name attributes => rw [Elements.step, tagEvent_emptyTag h.1 h.2, Elements.stepToken]
  | endTag name =>
    cases hnames : e.names with
    | nil => simp only [Elements.step, tagEvent_endTag h, Elements.stepToken, hnames]
    | cons expected outer => simp only [Elements.step, tagEvent_endTag h, Elements.stepToken, hnames]
  | character c => cases htag
  | reference name => cases htag

/-- A tag among tokens is read **up to its only bracket**. -/
theorem wholeTag_text (h : token.IsSimple) (htag : token.isTag = true) : WholeTag token.text := by
  cases token with
  | startTag name attributes =>
    exact ⟨⟨_, rfl, not_mem_label h.1 h.2 (.inl rfl), not_mem_label h.1 h.2 (.inr rfl)⟩, fun fault => by
      simp [tagEvent_startTag h.1 h.2]⟩
  | emptyTag name attributes =>
    have hinner {bracket : Char} (hbracket : bracket = '<' ∨ bracket = '>') :
        bracket ∉ (label name attributes).text ++ ['/'] := by
      have hlabel := not_mem_label h.1 h.2 hbracket
      rcases hbracket with rfl | rfl <;> simpa using hlabel
    exact ⟨⟨(label name attributes).text ++ ['/'], by simp [text, Label.emptyTag], hinner (.inl rfl),
      hinner (.inr rfl)⟩, fun fault => by simp [tagEvent_emptyTag h.1 h.2]⟩
  | endTag name =>
    have hinner {bracket : Char} (hbracket : bracket = '<' ∨ bracket = '>') : bracket ∉ '/' :: name := by
      have hname : bracket ∉ name := h.not_mem (by rcases hbracket with rfl | rfl <;> decide)
      rcases hbracket with rfl | rfl <;> simpa using hname
    exact ⟨⟨'/' :: name, by simp [text, label, Label.endTag], hinner (.inl rfl), hinner (.inr rfl)⟩,
      fun fault => by simp [tagEvent_endTag h]⟩
  | character c => cases htag
  | reference name => cases htag

/-! ### Character data -/

@[simp] theorem textOf_nil : textOf [] = [] := rfl

theorem textOf_cons (token : MarkupToken) (tokens : List MarkupToken) :
    textOf (token :: tokens) = token.text ++ textOf tokens := List.flatMap_cons

theorem textOf_append (tokens rest : List MarkupToken) :
    textOf (tokens ++ rest) = textOf tokens ++ textOf rest := List.flatMap_append

theorem open_not_mem_textOf (h : ∀ token ∈ data, token.IsSimple) (hdata : ∀ token ∈ data, token.isTag = false) :
    '<' ∉ textOf data := by
  intro hmem
  obtain ⟨token, htoken, hmem⟩ := List.mem_flatMap.1 hmem
  have hsimple := h token htoken
  have htag := hdata token htoken
  cases token with
  | startTag | emptyTag | endTag => cases htag
  | character c => exact hsimple.1 (List.mem_singleton.1 hmem).symm
  | reference name =>
    have hname : '<' ∈ name := by simpa [text] using hmem
    exact hsimple.2 _ hname (by decide)

theorem checkReference_name (h : name.head? ≠ some '#') (offset : Nat) :
    checkReference offset name = .ok () ↔ name ∈ entityNames := by
  unfold checkReference
  split
  case h_1 => exact absurd rfl h
  case h_2 =>
    split
    case isTrue hname => exact iff_of_true rfl hname
    case isFalse hname => exact iff_of_false nofun hname

/-- The **step** at a reference: it goes up to its semicolon, and is checked for itself. -/
theorem checkReferencesFrom_reference (hsimple : (reference name).IsSimple) (length offset : Nat)
    (t : Text) :
    checkReferencesFrom length offset ((reference name).text ++ t) = .ok () ↔
      name ∈ entityNames ∧
        checkReferencesFrom length (offset + 2 + Text.utf8Size name) t = .ok () := by
  have htake : (name ++ ';' :: t).takeWhile (fun d => d != '&' && d != ';') = name := by
    refine takeWhile_append_cons (fun a ha => ?_) (by decide)
    have hne := hsimple.2 a ha
    have hamp : a ≠ '&' := by rintro rfl; exact hne (by decide)
    have hsemi : a ≠ ';' := by rintro rfl; exact hne (by decide)
    simp [hamp, hsemi]
  have htext : (reference name).text ++ t = '&' :: (name ++ ';' :: t) := by simp [text]
  rw [htext, checkReferencesFrom, if_pos rfl]
  dsimp only
  rw [htake]
  split
  case h_1 after hdrop =>
    rw [List.drop_left] at hdrop
    obtain rfl := (List.cons.inj hdrop).2
    rw [← checkReference_name hsimple.1 offset]
    cases hcheck : checkReference offset name with
    | error fault => simp
    | ok => exact (and_iff_right rfl).symm
  case h_2 hnot => exact absurd List.drop_left (hnot _)

/-- Character data passes the check **if its references are to predefined entities**. -/
theorem checkReferencesFrom_textOf (h : ∀ token ∈ data, token.IsSimple)
    (hdata : ∀ token ∈ data, token.isTag = false) (length offset : Nat) :
    checkReferencesFrom length offset (textOf data) = .ok () ↔ Resolve data := by
  induction data generalizing offset with
  | nil =>
    rw [textOf, List.flatMap_nil, checkReferencesFrom]
    exact iff_of_true rfl fun _ hmem => absurd hmem List.not_mem_nil
  | cons token data ih =>
    obtain ⟨hsimple, hrest⟩ := List.forall_mem_cons.1 h
    obtain ⟨htag, hrun⟩ := List.forall_mem_cons.1 hdata
    rw [textOf_cons]
    cases token with
    | startTag | emptyTag | endTag => cases htag
    | character c =>
      rw [text, List.singleton_append, checkReferencesFrom, if_neg hsimple.2, ih hrest hrun]
      simp [Resolve]
    | reference name =>
      rw [checkReferencesFrom_reference hsimple, ih hrest hrun]
      simp [Resolve]

/-! ### Going through tokens -/

theorem walkTokens_cons (token : MarkupToken) (tokens : List MarkupToken) (e : Elements) :
    e.walkTokens (token :: tokens) = (e.stepToken token).bind fun e' => e'.walkTokens tokens := rfl

theorem walkTokens_append (tokens rest : List MarkupToken) (e : Elements) :
    e.walkTokens (tokens ++ rest) = (e.walkTokens tokens).bind fun e' => e'.walkTokens rest := by
  rw [Elements.walkTokens, List.foldlM_append]
  rfl

theorem stepToken_of_isTag_eq_false (h : token.isTag = false) (e : Elements) : e.stepToken token = some e := by
  cases token with
  | startTag | emptyTag | endTag => cases h
  | character | reference => rfl

/-- The check of a text of tokens, of which a run of character data has been passed, **goes through the
tokens**. -/
theorem checkEvents_textOf_iff (hdata : ∀ token ∈ data, token.IsSimple)
    (hrun : ∀ token ∈ data, token.isTag = false) (h : ∀ token ∈ tokens, token.IsSimple) (e : Elements)
    (offset : Nat) :
    checkEvents e.names e.roots (eventsFrom offset (textOf data ++ textOf tokens)) = .ok () ↔
      e.walkTokens tokens = some ⟨[], 1⟩ ∧ Resolve (data ++ tokens) := by
  -- by induction on the tokens: a token of character data goes to the run, and a tag ends the run
  induction tokens generalizing data e offset with
  | nil =>
    have hopen := open_not_mem_textOf hdata hrun
    have hevents : eventsFrom offset (textOf data ++ textOf []) = dataEvents offset (textOf data) ++ [] := by
      rw [textOf_nil, List.append_nil, List.append_nil, eventsFrom_data hopen]
    rw [hevents, checkEvents_data, checkEvents_nil, checkReferences, checkReferencesFrom_textOf hdata hrun,
      List.append_nil, and_comm]
    exact and_congr_left' (Option.some_inj).symm
  | cons token tokens ih =>
    obtain ⟨hsimple, hrest⟩ := List.forall_mem_cons.1 h
    cases htag : token.isTag with
    | false =>
      have htext : textOf data ++ textOf (token :: tokens) = textOf (data ++ [token]) ++ textOf tokens := by
        rw [textOf_append, textOf_cons, textOf_cons, textOf_nil, List.append_nil, List.append_assoc]
      have hdata' : ∀ t ∈ data ++ [token], t.IsSimple := List.forall_mem_append.2 ⟨hdata, by simpa using hsimple⟩
      have hrun' : ∀ t ∈ data ++ [token], t.isTag = false := List.forall_mem_append.2 ⟨hrun, by simpa using htag⟩
      rw [htext, ih hdata' hrun' hrest, walkTokens_cons, stepToken_of_isTag_eq_false htag, List.append_assoc]
      rfl
    | true =>
      obtain ⟨start, stop, hevents⟩ := eventsFrom_tag (open_not_mem_textOf hdata hrun)
        (wholeTag_text hsimple htag) offset (textOf tokens)
      have hih (e' : Elements) := ih (List.forall_mem_nil _) (List.forall_mem_nil _) hrest e' stop
      have hresolve : Resolve (data ++ token :: tokens) ↔ Resolve data ∧ Resolve tokens := by
        cases token with
        | startTag | emptyTag | endTag => simp [Resolve, or_imp, forall_and]
        | character | reference => cases htag
      rw [textOf_cons, hevents, checkEvents_data, checkEvents_tag, checkReferences,
        checkReferencesFrom_textOf hdata hrun, step_text hsimple htag, walkTokens_cons, hresolve]
      simp only [Option.bind_eq_some_iff]
      constructor
      · rintro ⟨hrefs, e', hstep, hcheck⟩
        obtain ⟨hwalk, hresolves⟩ := (hih e').1 hcheck
        exact ⟨⟨e', hstep, hwalk⟩, hrefs, hresolves⟩
      · rintro ⟨⟨e', hstep, hwalk⟩, hrefs, hresolves⟩
        exact ⟨hrefs, e', hstep, (hih e').2 ⟨hwalk, hresolves⟩⟩

/-! ### Nesting -/

/-- A sequence that nests **leaves the open elements as they are**. Its elements count as roots if none is
open. -/
theorem Nests.walkTokens_eq (h : Nests tokens n) (e : Elements) :
    e.walkTokens tokens = some ⟨e.names, if e.names = [] then e.roots + n else e.roots⟩ := by
  induction h generalizing e with
  | nil =>
    rw [Nat.add_zero, ite_self]
    rfl
  | character _ ih => exact ih e
  | reference _ ih => exact ih e
  | emptyTag _ ih =>
    obtain ⟨names, roots⟩ := e
    rw [walkTokens_cons]
    refine (ih _).trans ?_
    cases names with
    | nil => simp [Elements.rootsWith, Nat.add_comm, Nat.add_left_comm]
    | cons => simp [Elements.rootsWith]
  | @element name attributes inside rest m n _ _ ihInside ihRest =>
    obtain ⟨names, roots⟩ := e
    rw [walkTokens_cons, Elements.stepToken, Option.bind_some, walkTokens_append, ihInside, Option.bind_some,
      walkTokens_cons, Elements.stepToken]
    dsimp only
    rw [if_pos rfl, Option.bind_some, ihRest]
    cases names with
    | nil => simp [Elements.rootsWith, Nat.add_comm, Nat.add_left_comm]
    | cons => simp [Elements.rootsWith]

/-- Whether tokens **close the open elements** and nest apart from that: for each open element, innermost
first, there is a sequence that nests, and the end tag of the element; and behind them one more, with a number
of elements at top level. -/
def Closes : List Text → List MarkupToken → Nat → Prop
  | [], tokens, n => Nests tokens n
  | name :: names, tokens, n =>
    ∃ inside rest m, tokens = inside ++ endTag name :: rest ∧ Nests inside m ∧ Closes names rest n

/-- What can stand before any sequence that nests can stand before one that **closes open elements**. Its
elements are at top level if none is open. -/
theorem Closes.prepend (front : List MarkupToken) {k : Nat}
    (hfront : ∀ inside m, Nests inside m → Nests (front ++ inside) (m + k)) (h : Closes names rest n) :
    Closes names (front ++ rest) (if names = [] then n + k else n) := by
  cases names with
  | nil => exact hfront rest n h
  | cons name names =>
    obtain ⟨inside, rest, m, rfl, hinside, h⟩ := h
    exact ⟨front ++ inside, rest, m + k, (List.append_assoc ..).symm, hfront inside m hinside, h⟩

/-- A start tag **opens the element** that is closed first. -/
theorem Closes.startTag (h : Closes (name :: names) rest n) (attributes : List Attribute) :
    Closes names (startTag name attributes :: rest) (if names = [] then n + 1 else n) := by
  obtain ⟨inside, rest, m, rfl, hinside, hcloses⟩ := h
  have helement (behind : List MarkupToken) (k : Nat) (hbehind : Nests behind k) :
      Nests ((MarkupToken.startTag name attributes :: (inside ++ [endTag name])) ++ behind) (k + 1) := by
    rw [List.cons_append, List.append_assoc]
    exact .element hinside hbehind
  have htokens : MarkupToken.startTag name attributes :: (inside ++ endTag name :: rest) =
      (MarkupToken.startTag name attributes :: (inside ++ [endTag name])) ++ rest := by simp
  rw [htokens]
  exact hcloses.prepend _ helement

/-- Tokens behind which no element is open **close all open elements**. -/
theorem exists_closes_of_walkTokens {roots roots' : Nat}
    (h : Elements.walkTokens ⟨names, roots⟩ tokens = some ⟨[], roots'⟩) :
    ∃ n, Closes names tokens n ∧ roots' = roots + n := by
  induction tokens generalizing names roots with
  | nil =>
    cases h
    exact ⟨0, .nil, rfl⟩
  | cons token tokens ih =>
    obtain ⟨e, hstep, hwalk⟩ := Option.bind_eq_some_iff.1 ((walkTokens_cons ..).symm.trans h)
    obtain ⟨n, hcloses, hroots⟩ := ih hwalk
    -- what a tag adds to the roots is what it adds to the elements at top level
    have hcount (n : Nat) : Elements.rootsWith ⟨names, roots⟩ + n = roots + if names = [] then n + 1 else n := by
      cases names with
      | nil => exact (Nat.add_right_comm ..).trans (Nat.add_assoc ..)
      | cons => rfl
    cases token with
    | character c =>
      cases hstep
      refine ⟨_, hcloses.prepend [character c] (k := 0) fun inside m hinside => .character hinside, ?_⟩
      rw [hroots, Nat.add_zero, ite_self]
    | reference name =>
      cases hstep
      refine ⟨_, hcloses.prepend [reference name] (k := 0) fun inside m hinside => .reference hinside, ?_⟩
      rw [hroots, Nat.add_zero, ite_self]
    | emptyTag name attributes =>
      cases hstep
      exact ⟨_, hcloses.prepend [emptyTag name attributes] fun inside m hinside => .emptyTag hinside,
        hroots.trans (hcount n)⟩
    | startTag name attributes =>
      cases hstep
      exact ⟨_, hcloses.startTag attributes, hroots.trans (hcount n)⟩
    | endTag name =>
      cases names with
      | nil => cases hstep
      | cons expected outer =>
        -- the element that it closes holds nothing yet, and all that follows stands outside
        rw [Elements.stepToken] at hstep
        dsimp only at hstep
        split at hstep
        case isTrue hname =>
          cases hstep
          cases hname
          exact ⟨n, ⟨[], tokens, 0, rfl, .nil, hcloses⟩, hroots⟩
        case isFalse => cases hstep

/-- The tags nest in the sequences that **leave no element open**. -/
theorem walkTokens_none_iff : Elements.none.walkTokens tokens = some ⟨[], n⟩ ↔ Nests tokens n := by
  constructor
  · intro h
    obtain ⟨m, hnests, hroots⟩ := exists_closes_of_walkTokens h
    rw [hroots, Nat.zero_add]
    exact hnests
  · intro h
    rw [h.walkTokens_eq, Elements.none, if_pos rfl, Nat.zero_add]

/-! ### The check -/

/-- A text of tokens passes the check **as a walk of its tokens**. -/
theorem checkWellFormed_textOf (h : ∀ token ∈ tokens, token.IsSimple) :
    checkWellFormed (textOf tokens) = .ok () ↔
      Elements.none.walkTokens tokens = some ⟨[], 1⟩ ∧ Resolve tokens := by
  have hcheck {tokens : List MarkupToken} (h : ∀ token ∈ tokens, token.IsSimple) :
      checkEvents [] 0 (eventsFrom 0 (textOf tokens)) = .ok () ↔
        Elements.none.walkTokens tokens = some ⟨[], 1⟩ ∧ Resolve tokens :=
    checkEvents_textOf_iff (List.forall_mem_nil _) (List.forall_mem_nil _) h .none 0
  unfold checkWellFormed events
  split
  case h_1 t ht =>
    -- a byte order mark can only be a character among the tokens
    cases tokens with
    | nil => cases ht
    | cons token tokens =>
      obtain ⟨hsimple, hrest⟩ := List.forall_mem_cons.1 h
      cases token with
      | startTag | emptyTag | endTag | reference => cases ht
      | character c =>
        cases ht
        have hresolve : Resolve (character '\ufeff' :: tokens) ↔ Resolve tokens := by simp [Resolve]
        rw [hresolve, walkTokens_cons]
        exact hcheck hrest
  case h_2 => exact hcheck h

end MarkupToken

open MarkupToken in
/-- **The check accepts exactly the sequences** of tokens in which the tags nest, with one element at top level
and all references to predefined entities, and refuses all others as faulty in their structure. -/
theorem checkWellFormed_textOf_iff (h : ∀ token ∈ tokens, token.IsSimple) :
    (checkWellFormed (textOf tokens) = .ok () ↔ Nests tokens 1 ∧ Resolve tokens) ∧
      (¬ (Nests tokens 1 ∧ Resolve tokens) → ∃ fault,
        (checkWellFormed (textOf tokens)).mapError MergeError.structuralValidation =
          .error (.structuralValidation fault)) := by
  have hiff : checkWellFormed (textOf tokens) = .ok () ↔ Nests tokens 1 ∧ Resolve tokens := by
    rw [checkWellFormed_textOf h, walkTokens_none_iff]
  refine ⟨hiff, fun hnot => ?_⟩
  cases hcheck : checkWellFormed (textOf tokens) with
  | ok => exact absurd (hiff.1 hcheck) hnot
  | error fault => exact ⟨fault, rfl⟩

/-! ### A paragraph -/

instance (name : Text) : Decidable (IsSimpleName name) :=
  decidable_of_iff (name ≠ [] ∧ ∀ c ∈ name, isMarkupBlank c = false ∧ c ∉ "<>/!?=\"'&".toList)
    ⟨fun ⟨hne, hsimple⟩ => ⟨hne, hsimple⟩, fun ⟨hne, hsimple⟩ => ⟨hne, hsimple⟩⟩

instance Attribute.decidableIsSimple (a : Attribute) : Decidable a.IsSimple :=
  decidable_of_iff (a.gap ≠ [] ∧ (∀ c ∈ a.gap, isMarkupBlank c = true) ∧ IsSimpleName a.name ∧
      ∀ c ∈ a.value, c ∉ "<>&\"".toList)
    ⟨fun ⟨hne, hgap, hname, hvalue⟩ => ⟨hne, hgap, hname, hvalue⟩,
      fun ⟨hne, hgap, hname, hvalue⟩ => ⟨hne, hgap, hname, hvalue⟩⟩

instance MarkupToken.decidableIsSimple : (token : MarkupToken) → Decidable token.IsSimple
  | startTag name attributes | emptyTag name attributes =>
    inferInstanceAs (Decidable (IsSimpleName name ∧ ∀ a ∈ attributes, a.IsSimple))
  | endTag name => inferInstanceAs (Decidable (IsSimpleName name))
  | character c => inferInstanceAs (Decidable (c ≠ '<' ∧ c ≠ '&'))
  | reference name => inferInstanceAs (Decidable (name.head? ≠ some '#' ∧ ∀ c ∈ name, c ∉ "<&;".toList))

namespace MarkupToken

/-- The tokens of a paragraph with an attribute, a text and a line break. -/
def paragraph : List MarkupToken :=
  [startTag "w:p" [⟨" ", "w:x", "it's"⟩], startTag "w:t" [], character '>', reference "amp", endTag "w:t",
    emptyTag "w:br" [], endTag "w:p"]

/-- The tokens of a paragraph that ends before its text does. -/
def crossedParagraph : List MarkupToken := [startTag "w:p" [], startTag "w:t" [], endTag "w:p", endTag "w:t"]

end MarkupToken

open MarkupToken in
/-- A paragraph **is accepted**, and it is refused if its end tags are exchanged. -/
theorem checkWellFormed_paragraph :
    checkWellFormed "<w:p w:x=\"it's\"><w:t>>&amp;</w:t><w:br/></w:p>" = .ok () ∧
      ∃ fault, (checkWellFormed "<w:p><w:t></w:p></w:t>").mapError MergeError.structuralValidation =
        .error (.structuralValidation fault) := by
  have hsimple : ∀ token ∈ paragraph, token.IsSimple := by decide
  have hnests : Nests paragraph 1 := .element (.element (.character (.reference .nil)) (.emptyTag .nil)) .nil
  have hresolve : Resolve paragraph := by simp [Resolve, paragraph, entityNames]
  have hcrossed : ∀ token ∈ crossedParagraph, token.IsSimple := by decide
  -- the sequence with its end tags exchanged does not nest, since going through it fails
  have hwalk : Elements.none.walkTokens crossedParagraph ≠ some ⟨[], 1⟩ := by decide
  have hnot : ¬ (Nests crossedParagraph 1 ∧ Resolve crossedParagraph) := fun h =>
    hwalk (walkTokens_none_iff.2 h.1)
  exact ⟨(checkWellFormed_textOf_iff hsimple).1.2 ⟨hnests, hresolve⟩,
    (checkWellFormed_textOf_iff hcrossed).2 hnot⟩

end MailMerge
