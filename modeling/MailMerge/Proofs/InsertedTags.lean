import MailMerge.Proofs.BracketedText
import MailMerge.Proofs.SplitTemplate
import MailMerge.Proofs.TokenRows

/-!
# Tags inserted into tokens

A fragment whose tokens stand in one piece is a row of stretches and tokens. Tags may be inserted between
any two visible characters of a token, in the delimiters as well as between them, and token repair takes
all of them out again: what is left is the fragment as it was. Stretches are arbitrary fragments, with
tags of their own and with ampersands that begin no reference, as long as their character data holds no
bracket that delimiters are made of.

The search for an opening delimiter goes over character data, and so over the tags of a stretch. Nothing
begins in a stretch, since the first character of a bracket comes no second time in it, and the same is
true of the closing delimiter and the inside of a token.

* `isStartTag`, `isEndTag` and `areDroppable_of_balanced` — which tags may be dropped;
* `CutRow` is a row of stretches and tokens, and `CutRow.IsProper` says what they are;
* `text_repair_bracketed` — the step over a stretch, `IsCutToken.joinable` — the step over a token;
* `repairTokens_inserted` — all tokens of a row are made whole.
-/

namespace MailMerge

/-! ### The specification -/

/-- A tag that **ends an element**. -/
def isEndTag (tag : Text) : Bool := Text.startsWith "</" tag

/-- A tag that **starts an element**: neither an end tag nor the tag of an empty element, and no instruction,
declaration or comment. -/
def isStartTag (tag : Text) : Bool :=
  !isEndTag tag && !(Text.endsWith "/>" tag || Text.startsWith "<?" tag || Text.startsWith "<!" tag)

/-- Tags that **may stand in a token**: there are as many start tags as end tags, and none is that of a
paragraph, a table cell or a table row. -/
structure MayStandInside (tags : List Text) : Prop where
  isTag : ∀ tag ∈ tags, IsTag tag
  balanced : tags.countP isStartTag = tags.countP isEndTag
  element : ∀ tag ∈ tags, tagName tag ∉ boundaryNames

/-- A **token into which tags are inserted**: there are none before its first character. Between the
delimiters is no bracket that delimiters are made of, and not too much. -/
structure IsCutToken (convention : PlaceholderConvention) (d : Delimiters) (cells : List Cell) : Prop where
  exists_inner : ∃ inner, visible cells = d.tokenText inner ∧ '<' ∉ inner ∧ convention.IsLiteral inner ∧
    Text.utf8Size inner ≤ maxInnerSize
  head_tags : ∀ cell ∈ cells.head?, cell.tags = []
  inside : ∀ cell ∈ cells, MayStandInside cell.tags

/-- A **stretch** of a fragment: `<` and `>` only delimit tags, and the character data holds no bracket that
delimiters are made of. -/
def IsStretch (convention : PlaceholderConvention) (t : Text) : Prop :=
  Bracketed t ∧ convention.IsLiteral (characterData t)

/-- A **row of stretches and tokens**, with the tags that are inserted into the tokens. -/
structure CutRow where
  first : Text
  rest : List (List Cell × Text)
  deriving DecidableEq, Repr

namespace CutRow

/-- The text of a row **without the inserted tags**. -/
def whole (row : CutRow) : Text := row.first ++ row.rest.flatMap fun p => visible p.1 ++ p.2

/-- The text of a row **with the inserted tags**. -/
def cut (row : CutRow) : Text := row.first ++ row.rest.flatMap fun p => p.1.flatMap Cell.text ++ p.2

/-- What is asked of a row. -/
structure IsProper (convention : PlaceholderConvention) (d : Delimiters) (row : CutRow) : Prop where
  first : IsStretch convention row.first
  token : ∀ p ∈ row.rest, IsCutToken convention d p.1
  stretch : ∀ p ∈ row.rest, IsStretch convention p.2

end CutRow

variable {convention : PlaceholderConvention} {d : Delimiters} {cells : List Cell} {needle t u : Text}
  {c : Char} {row : CutRow}

/-! ### Balanced tags -/

/-- Tags change the number of open elements **by start tags and end tags**. -/
theorem depthChange_eq (tags : List Text) :
    depthChange tags = (tags.countP isStartTag : Int) - tags.countP isEndTag := by
  induction tags with
  | nil => rfl
  | cons tag tags ih =>
    have hstep : depthStep tag =
        (if isStartTag tag then 1 else 0 : Nat) - (if isEndTag tag then 1 else 0 : Nat) := by
      rw [depthStep, isStartTag, isEndTag]
      cases Text.startsWith "</" tag with
      | true => rfl
      | false => cases Text.endsWith "/>" tag || Text.startsWith "<?" tag || Text.startsWith "<!" tag <;> rfl
    rw [depthChange, ih, hstep, List.countP_cons, List.countP_cons]
    omega

theorem MayStandInside.append {tags more : List Text} (h : MayStandInside tags) (h' : MayStandInside more) :
    MayStandInside (tags ++ more) where
  isTag := fun tag htag => (List.mem_append.1 htag).elim (h.isTag tag) (h'.isTag tag)
  balanced := by rw [List.countP_append, List.countP_append, h.balanced, h'.balanced]
  element := fun tag htag => (List.mem_append.1 htag).elim (h.element tag) (h'.element tag)

/-- Tags that may stand in a token **may be dropped**. -/
theorem MayStandInside.areDroppable {tags : List Text} (h : MayStandInside tags) :
    areDroppable tags = true := by
  rw [MailMerge.areDroppable, Bool.and_eq_true, beq_iff_eq, depthChange_eq, h.balanced, Int.sub_self,
    List.all_eq_true]
  exact ⟨fun tag htag => by simpa using h.element tag htag, rfl⟩

/-! ### Brackets -/

/-- A closing delimiter is **a bracket twice** as well. -/
theorem exists_closing_bracket (hd : convention.delimiters? = some d) :
    ∃ c needle, c :: needle ∈ convention.delimiterSpellings ∧ c ∉ needle ∧
      d.closing = c :: needle ++ c :: needle := by
  cases convention with
  | braces => cases hd; exact ⟨'\x7d', [], by decide, by decide, rfl⟩
  | angles => cases hd; exact ⟨'&', ['g', 't', ';'], by decide, by decide, rfl⟩
  | bare => cases hd

theorem infix_of_contains (h : Text.contains needle t = true) : needle <:+: t := by
  induction t with
  | nil =>
    cases needle with
    | nil => exact List.infix_refl _
    | cons => cases h
  | cons c t ih =>
    rw [Text.contains_cons, Bool.or_eq_true, Text.startsWith_iff] at h
    rcases h with ⟨rest, hrest⟩ | h
    · rw [hrest]
      exact (List.prefix_append _ _).isInfix
    · exact (ih h).trans (List.suffix_cons c t).isInfix

/-- A text is cut around another one **where that first begins**. -/
theorem cut?_append_of_not_prefix {rest : Text} (hne : needle ≠ [])
    (h : ∀ v, v ≠ [] → v <:+ t → ¬ needle <+: v ++ (needle ++ rest)) :
    Text.cut? needle (t ++ needle ++ rest) = some (t, rest) := by
  rw [List.append_assoc]
  induction t with
  | nil =>
    obtain ⟨c, needle, rfl⟩ := List.exists_cons_of_ne_nil hne
    have hstarts : Text.dropPrefix? (c :: needle) (c :: (needle ++ rest)) = some rest :=
      Text.dropPrefix?_eq_some_iff.2 rfl
    rw [List.nil_append, List.cons_append, Text.cut?, hstarts]
  | cons c t ih =>
    have hnone : Text.dropPrefix? needle (c :: (t ++ (needle ++ rest))) = none := by
      rw [Option.eq_none_iff_forall_ne_some]
      intro after hafter
      refine h (c :: t) (List.cons_ne_nil _ _) (List.suffix_refl _) ?_
      rw [List.cons_append, Text.dropPrefix?_eq_some_iff.1 hafter]
      exact List.prefix_append _ _
    have hrest := ih fun v hv hsuffix => h v hv (hsuffix.trans (List.suffix_cons c t))
    rw [List.cons_append, Text.cut?, hnone, hrest]
    rfl

/-- A bracket twice begins **nowhere in a text without the bracket**, if what follows does not go on as
the bracket does. -/
theorem not_prefix_of_bracket {bracket : Text} (hu : ¬ c :: bracket <:+: u) (ht : ∀ a ∈ t.head?, a ∉ bracket)
    {v : Text} (hne : v ≠ []) (hv : v <:+ u) : ¬ c :: bracket ++ c :: bracket <+: v ++ t := fun h =>
  not_prefix_append_of_not_infix hu ht hne hv ((List.prefix_append _ _).trans h)

/-- A token with tags in it **can be joined**. -/
theorem IsCutToken.joinable (hd : convention.delimiters? = some d) (h : IsCutToken convention d cells) :
    ∃ inner, Joinable d cells inner := by
  obtain ⟨inner, hvisible, hopen, hliteral, hsize⟩ := h.exists_inner
  obtain ⟨a, needle, ha, -, hopening⟩ := exists_bracket hd
  obtain ⟨b, needle', hb, hfresh, hclosing⟩ := exists_closing_bracket hd
  refine ⟨inner, ?_⟩
  constructor
  case visible_eq => exact hvisible
  case opening_outside =>
    rw [Bool.eq_false_iff]
    intro hcontains
    refine hliteral _ ha (List.IsInfix.trans ?_ (infix_of_contains hcontains))
    rw [hopening]
    exact (List.prefix_append _ _).isInfix
  case closing_behind =>
    intro rest
    rw [hclosing]
    refine cut?_append_of_not_prefix (List.cons_ne_nil _ _) fun v hne hv => ?_
    refine not_prefix_of_bracket (hliteral _ hb) (fun x hx => ?_) hne hv
    obtain rfl := Option.some.inj hx
    exact hfresh
  case size_le => exact hsize
  case not_open =>
    intro cell hcell hchar
    have hmem : cell.char ∈ visible cells := List.mem_map_of_mem hcell
    have hfree := Delimiters.free_open hd
    rw [hvisible, hchar, Delimiters.tokenText, List.mem_append, List.mem_append] at hmem
    rcases hmem with (hmem | hmem) | hmem
    exacts [hfree.1 hmem, hopen hmem, hfree.2.1 hmem]
  case isTag => exact fun cell hcell => (h.inside cell hcell).isTag
  case head_tags => exact h.head_tags
  case droppable =>
    have hinside : MayStandInside (cells.flatMap Cell.tags) := by
      have hcells := h.inside
      clear hvisible h
      induction cells with
      | nil => exact ⟨List.forall_mem_nil _, rfl, List.forall_mem_nil _⟩
      | cons cell cells ih =>
        obtain ⟨hcell, hcells⟩ := List.forall_mem_cons.1 hcells
        exact hcell.append (ih hcells)
    exact hinside.areDroppable

/-! ### Stretches -/

/-- The character data of two texts is **that of the one and that of the other**, if brackets only delimit
tags in the first. -/
theorem Bracketed.characterData_append (hu : Bracketed u) (t : Text) :
    characterData (u ++ t) = characterData u ++ characterData t := by
  induction hu with
  | nil => rfl
  | @char c u hopen _ _ ih =>
    have hc : '<' ∉ [c] := by simpa using hopen.symm
    rw [← List.singleton_append, List.append_assoc, MailMerge.characterData_append hc,
      MailMerge.characterData_append hc, ih, List.append_assoc]
  | @tag inner u _ hclose _ ih =>
    have htag : IsTag ('<' :: inner ++ ['>']) := ⟨inner, rfl, hclose⟩
    have htext (t : Text) : '<' :: inner ++ '>' :: t = ('<' :: inner ++ ['>']) ++ t := by simp
    rw [htext, List.append_assoc, characterData_tag htag, characterData_tag htag, ih]

/-- **The step over a stretch**: if no opening delimiter begins in its character data, it stays as it is. -/
theorem text_repair_bracketed (hu : Bracketed u)
    (hnone : ∀ v, v ≠ [] → v <:+ characterData u → ¬ d.opening <+: v ++ characterData t) :
    ((strandOf (u ++ t)).repair d).text = u ++ ((strandOf t).repair d).text := by
  induction hu with
  | nil => rfl
  | @char c u hopen _ hu ih =>
    have hc : '<' ∉ [c] := by simpa using hopen.symm
    have hdata : characterData (c :: u) = c :: characterData u := characterData_append hc u
    rw [hdata] at hnone
    have hrest := ih fun v hne hv => hnone v hne (hv.trans (List.suffix_cons c _))
    -- what is visible from this character on is the character data from it on
    have hnot : ¬ ∃ rest, visible (⟨[], c⟩ :: (strandFrom [] (u ++ t)).cells) = d.opening ++ rest := by
      rintro ⟨rest, h⟩
      have hvisible : visible (⟨[], c⟩ :: (strandFrom [] (u ++ t)).cells) =
          c :: characterData u ++ characterData t := by
        rw [List.cons_append, ← hu.characterData_append, ← visible_strandOf]
        rfl
      rw [hvisible] at h
      exact hnone _ (List.cons_ne_nil _ _) (List.suffix_refl _) ⟨rest, h.symm⟩
    rw [List.cons_append, strandOf, strandFrom_cons hopen, List.cons_append, ← hrest]
    simp only [Strand.repair, repairCells_cons_of_not hnot, Strand.text, List.flatMap_cons, Cell.text,
      List.flatten_nil, List.nil_append, List.cons_append, strandOf]
  | @tag inner u _ hclose hu ih =>
    have htag : IsTag ('<' :: inner ++ ['>']) := ⟨inner, rfl, hclose⟩
    have htext (t : Text) : '<' :: inner ++ '>' :: t = ('<' :: inner ++ ['>']) ++ t := by simp
    rw [htext, characterData_tag htag] at hnone
    rw [htext, List.append_assoc _ u t, strandOf, strandFrom_tag htag, text_repair_strandFrom, ← strandOf,
      ih hnone]
    simp

/-- A stretch is **passed over**, if nothing follows it or a token. -/
theorem IsStretch.text_repair_append (hd : convention.delimiters? = some d) (hu : IsStretch convention u)
    (ht : characterData t = [] ∨ d.opening <+: characterData t) :
    ((strandOf (u ++ t)).repair d).text = u ++ ((strandOf t).repair d).text := by
  obtain ⟨c, needle, hspelling, hfresh, hopening⟩ := exists_bracket hd
  refine text_repair_bracketed hu.1 fun v hne hv => ?_
  rw [hopening]
  refine not_prefix_of_bracket (hu.2 _ hspelling) (fun a ha => ?_) hne hv
  rcases ht with hnil | ⟨rest, hrest⟩
  · rw [hnil] at ha
    cases ha
  · rw [← hrest, hopening] at ha
    obtain rfl := Option.some.inj ha
    exact hfresh

/-! ### Rows -/

/-- **Tags that are inserted into tokens are taken out again.** In a fragment whose tokens stand in one
piece and whose character data holds no other brackets that delimiters are made of, tags may be inserted
between any two visible characters of the tokens: with as many start tags as end tags at each place, and
none of a paragraph, a table cell or a table row. Token repair then makes the fragment of it that it was
before. -/
theorem repairTokens_inserted (hd : convention.delimiters? = some d) (h : row.IsProper convention d) :
    repairTokens convention row.cut = row.whole := by
  have hrepair (t : Text) : repairTokens convention t = ((strandOf t).repair d).text := by
    rw [repairTokens, hd]
    rfl
  obtain ⟨first, rest⟩ := row
  obtain ⟨hfirst, htoken, hstretch⟩ := h
  rw [hrepair, CutRow.cut, CutRow.whole]
  dsimp only at hfirst htoken hstretch ⊢
  -- token after token, each with the stretch behind it; the stretch before it comes first
  induction rest generalizing first with
  | nil =>
    rw [List.flatMap_nil, List.flatMap_nil, hfirst.text_repair_append hd (.inl rfl)]
    simp [strandOf, strandFrom, Strand.repair, Strand.text, repairCells]
  | cons p rest ih =>
    obtain ⟨hcells, htoken⟩ := List.forall_mem_cons.1 htoken
    obtain ⟨hp, hstretch⟩ := List.forall_mem_cons.1 hstretch
    obtain ⟨inner, hjoinable⟩ := hcells.joinable hd
    have hbegins (t : Text) : d.opening <+: characterData (p.1.flatMap Cell.text ++ t) := by
      rw [← visible_strandOf, strandOf, strandFrom_flatMap_text hjoinable.not_open hjoinable.isTag,
        visible_append, hjoinable.visible_eq, Delimiters.tokenText, List.append_assoc, List.append_assoc]
      exact List.prefix_append _ _
    rw [List.flatMap_cons, List.flatMap_cons, List.append_assoc,
      hfirst.text_repair_append hd (.inr (hbegins _)),
      text_repair_token (Delimiters.proper_of_mem hd) hjoinable, ih p.2 hp htoken hstretch, List.append_assoc]

/-- A text of which the visible characters spell a token **is one**, if the tags in it may stand there. -/
theorem isCutToken_strandOf (inner : Text) (hvisible : visible (strandOf t).cells = d.tokenText inner)
    (hinner : '<' ∉ inner ∧ convention.IsLiteral inner ∧ Text.utf8Size inner ≤ maxInnerSize)
    (hhead : ∀ cell ∈ (strandOf t).cells.head?, cell.tags = [])
    (hinside : ∀ cell ∈ (strandOf t).cells, cell.tags.countP isStartTag = cell.tags.countP isEndTag ∧
      ∀ tag ∈ cell.tags, tagName tag ∉ boundaryNames) :
    IsCutToken convention d (strandOf t).cells where
  exists_inner := ⟨inner, hvisible, hinner⟩
  head_tags := hhead
  inside := fun cell hcell =>
    ⟨isTag_of_mem_strandFrom (List.forall_mem_nil IsTag) t cell hcell, (hinside cell hcell).1,
      (hinside cell hcell).2⟩

/-- An opening delimiter and a name are cut in two, and one token is left whole. A stretch ends as a bracket
begins, and holds delimiters in an attribute. -/
theorem repairTokens_inserted_angles :
    repairTokens .angles ("<w:t a=\"&lt;&lt;\">R&D &l&l</w:t></w:r><w:r><w:t>t;&lt;Grö<w:proofErr/>ße" ++
        "&gt;&gt;<w:tab/>&lt;&lt;Jahr&gt;&gt;</w:t>") =
      "<w:t a=\"&lt;&lt;\">R&D &l&lt;&lt;Größe&gt;&gt;<w:tab/>&lt;&lt;Jahr&gt;&gt;</w:t>" := by
  have hrepair (row : CutRow) (cut whole : Text)
      (hrow : row.IsProper .angles ⟨"&lt;&lt;", "&gt;&gt;", ['&', '<', '>']⟩) (hcut : row.cut = cut)
      (hwhole : row.whole = whole) : repairTokens .angles cut = whole := by
    rw [← hcut, ← hwhole]
    exact repairTokens_inserted rfl hrow
  refine hrepair ⟨"<w:t a=\"&lt;&lt;\">R&D &l",
    [((strandOf "&l</w:t></w:r><w:r><w:t>t;&lt;Grö<w:proofErr/>ße&gt;&gt;").cells, "<w:tab/>"),
      ((strandOf "&lt;&lt;Jahr&gt;&gt;").cells, "</w:t>")]⟩ _ _ ?_ (by decide +kernel) (by decide +kernel)
  constructor
  case first => exact ⟨by decide +kernel, by decide +kernel⟩
  case token =>
    refine List.forall_mem_cons.2 ⟨?_, List.forall_mem_singleton.2 ?_⟩
    · exact isCutToken_strandOf "Größe" (by decide +kernel) (by decide +kernel) (by decide +kernel)
        (by decide +kernel)
    · exact isCutToken_strandOf "Jahr" (by decide +kernel) (by decide +kernel) (by decide +kernel)
        (by decide +kernel)
  case stretch =>
    exact List.forall_mem_cons.2 ⟨⟨by decide +kernel, by decide +kernel⟩,
      List.forall_mem_singleton.2 ⟨by decide +kernel, by decide +kernel⟩⟩

end MailMerge
