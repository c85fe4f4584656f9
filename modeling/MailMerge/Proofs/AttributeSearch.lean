import Mathlib.Data.List.Nodup
import MailMerge.Proofs.Attributes

/-!
# The search for an attribute

An attribute is searched for in rounds. Each round goes to the next place where the name stands with an
equals sign and a quote behind it. If there is a blank before that place, it is the attribute, and else the
search goes on behind the quote. So each round but the last one passes over the name and two characters more,
and there are only so many rounds in a text. In a tag that is written with its attributes, the search stops at
the attribute of the name: another name that ends in it has no blank before its end, and what stands in a
value is passed over up to the quote behind it.

* `StartTag` is a start tag as it is written, and `StartTag.IsProper` says that its attributes can be told
  apart;
* `searchRound` is one round of the search, and `search` the rounds one after the other;
* `attributeAfter_eq_searchRound` — what a round leaves to be read is what was to be read before it;
* `search_eq` — the search ends, with the attribute that is read;
* `attribute_search_reads` — of a start tag it reads the value that stands behind the name, if there is one.
-/

namespace MailMerge

/-! ### The specification -/

/-- A **start tag as it is written**: the name of its element, its attributes, the blanks behind them, and
whether it is the tag of an empty element. -/
structure StartTag where
  element : Text
  attributes : List Attribute
  blanks : Text
  isEmpty : Bool
  deriving DecidableEq, Repr

namespace StartTag

/-- What closes a start tag. -/
def closing (tag : StartTag) : Text := if tag.isEmpty then "/>" else ">"

/-- The text of a start tag. -/
def text (tag : StartTag) : Text :=
  '<' :: tag.element ++ tag.attributes.flatMap Attribute.text ++ (tag.blanks ++ tag.closing)

/-- What is asked of a start tag: its parts can be told apart, no two attributes have the same name, and no
value ends in an equals sign. -/
structure IsProper (tag : StartTag) : Prop where
  element : ∀ c ∈ tag.element, isBlank c = false ∧ c ≠ '"'
  attributes : ∀ a ∈ tag.attributes, a.IsProper
  names : (tag.attributes.map (·.name)).Nodup
  values : ∀ a ∈ tag.attributes, a.value.getLast? ≠ some '='
  blanks : ∀ c ∈ tag.blanks, isBlank c = true

end StartTag

/-- One **round of the search**, given what is passed of a text and the rest of it: either the answer, or what
is passed after the round and the rest then. -/
def searchRound (name passed rest : Text) : Option Text ⊕ Text × Text :=
  match Text.cut? (name ++ "=\"") rest with
  | none => .inl none
  | some (skipped, behind) =>
    if (passed ++ skipped).getLast?.any isBlank then .inl ((Text.cut? "\"" behind).map (·.1))
    else .inr (passed ++ skipped ++ (name ++ "=\""), behind)

/-- The **search of so many rounds**. There is no answer yet if it needs more of them. -/
def search (name : Text) : Nat → Text → Text → Option (Option Text)
  | 0, _, _ => none
  | rounds + 1, passed, rest =>
    match searchRound name passed rest with
    | .inl answer => some answer
    | .inr (passed, rest) => search name rounds passed rest

variable {name passed rest t : Text} {previous : Char}

/-! ### Rounds -/

/-- Where the name does not stand before an equals sign and a quote, there is **no attribute**. -/
theorem attributeAfter_of_cut?_eq_none (h : Text.cut? (name ++ "=\"") t = none) :
    attributeAfter name previous t = none := by
  induction t generalizing previous with
  | nil => exact attributeAfter_nil name previous
  | cons c t ih =>
    rw [Text.cut?] at h
    cases hstarts : Text.dropPrefix? (name ++ "=\"") (c :: t) with
    | some behind =>
      rw [hstarts] at h
      cases h
    | none =>
      rw [hstarts] at h
      have hnext : Text.cut? (name ++ "=\"") t = none := Option.map_eq_none_iff.1 h
      rw [attributeAfter, Text.startsWith, hstarts, Option.isSome_none, if_neg Bool.false_ne_true]
      exact ih hnext

/-- Where it does, the character before it tells whether **the value is read there**, or the search goes on
behind the quote. -/
theorem attributeAfter_of_cut?_eq_some {skipped behind : Text}
    (h : Text.cut? (name ++ "=\"") t = some (skipped, behind)) :
    attributeAfter name previous t =
      if isBlank (skipped.getLastD previous) then (Text.cut? "\"" behind).map (·.1)
      else attributeAfter name '"' behind := by
  -- by induction on the text, whose first character comes before the rest of what is skipped
  induction t generalizing previous skipped with
  | nil =>
    rw [Text.cut?, if_neg (by simp)] at h
    cases h
  | cons c t ih =>
    rw [Text.cut?] at h
    cases hstarts : Text.dropPrefix? (name ++ "=\"") (c :: t) with
    | some rest =>
      rw [hstarts] at h
      obtain ⟨rfl, rfl⟩ := Prod.mk.inj (Option.some.inj h)
      have hdrop : t.drop (name.length + 1) = rest := by
        have htext := congrArg (List.drop (name.length + 2)) (Text.dropPrefix?_eq_some_iff.1 hstarts)
        rwa [List.drop_succ_cons, List.drop_left' (by simp)] at htext
      rw [attributeAfter, Text.startsWith, hstarts, Option.isSome_some, if_pos rfl]
      dsimp only
      rw [hdrop, List.getLastD_nil]
    | none =>
      rw [hstarts] at h
      obtain ⟨⟨skipped', behind'⟩, hnext, hcut⟩ := Option.map_eq_some_iff.1 h
      obtain ⟨rfl, rfl⟩ := Prod.mk.inj hcut
      rw [attributeAfter, Text.startsWith, hstarts, Option.isSome_none, if_neg Bool.false_ne_true, ih hnext,
        List.getLastD_cons]

/-- Before the text stands **no blank**, as if a bracket were there. -/
theorem any_isBlank_getLast?_append (passed skipped : Text) :
    (passed ++ skipped).getLast?.any isBlank = isBlank (skipped.getLastD (passed.getLastD '<')) := by
  have hnone : isBlank '<' = false := rfl
  rw [List.getLast?_append, List.getLastD_eq_getLast?, List.getLastD_eq_getLast?]
  cases skipped.getLast? with
  | some c => rfl
  | none =>
    cases passed.getLast? with
    | some c => rfl
    | none => exact hnone.symm

/-- A round ends with **the attribute that is to be read**, or leaves as much to be read as before. -/
theorem attributeAfter_eq_searchRound (name passed rest : Text) :
    attributeAfter name (passed.getLastD '<') rest =
      match searchRound name passed rest with
      | .inl answer => answer
      | .inr (passed, rest) => attributeAfter name (passed.getLastD '<') rest := by
  unfold searchRound
  cases hcut : Text.cut? (name ++ "=\"") rest with
  | none => exact attributeAfter_of_cut?_eq_none hcut
  | some p =>
    obtain ⟨skipped, behind⟩ := p
    dsimp only
    rw [attributeAfter_of_cut?_eq_some hcut, any_isBlank_getLast?_append]
    split
    case isTrue => rfl
    case isFalse =>
      -- the round goes on behind the quote, which is the last character that was passed
      have hquote : (passed ++ skipped ++ (name ++ "=\"")).getLastD '<' = '"' := by
        rw [show passed ++ skipped ++ (name ++ "=\"") = (passed ++ skipped ++ (name ++ "=")) ++ ['"'] by simp,
          List.getLastD_concat]
      dsimp only
      rw [hquote]

/-- A round that goes on leaves a **shorter rest**: the name and two characters more are passed. -/
theorem length_of_searchRound {passed' rest' : Text} (h : searchRound name passed rest = .inr (passed', rest')) :
    passed' ++ rest' = passed ++ rest ∧ rest'.length + (name.length + 2) ≤ rest.length := by
  unfold searchRound at h
  cases hcut : Text.cut? (name ++ "=\"") rest with
  | none =>
    rw [hcut] at h
    cases h
  | some p =>
    obtain ⟨skipped, behind⟩ := p
    rw [hcut] at h
    dsimp only at h
    split at h
    case isTrue => cases h
    case isFalse =>
      cases h
      have htext := Text.eq_of_cut? hcut
      rw [htext]
      refine ⟨by simp, ?_⟩
      simp
      omega

/-- The search **ends with the attribute that is read**, after no more rounds than fit into the rest. -/
theorem search_eq {rounds : Nat} (h : rest.length < rounds * (name.length + 2)) :
    search name rounds passed rest = some (attributeAfter name (passed.getLastD '<') rest) := by
  induction rounds generalizing passed rest with
  | zero =>
    rw [Nat.zero_mul] at h
    exact absurd h (Nat.not_lt_zero _)
  | succ rounds ih =>
    -- a round that goes on makes the rest shorter by more than it uses up
    rw [search, attributeAfter_eq_searchRound]
    cases hround : searchRound name passed rest with
    | inl answer => rfl
    | inr next =>
      obtain ⟨passed', rest'⟩ := next
      have hlength := (length_of_searchRound hround).2
      refine ih ?_
      rw [Nat.succ_mul] at h
      omega

/-! ### Start tags -/

namespace StartTag

variable {tag : StartTag}

/-- In a proper tag **the value of the name is read**, if it has one. -/
theorem IsProper.attribute?_text (h : tag.IsProper) (hname : ∀ c ∈ name, isBlank c = false ∧ c ≠ '"') :
    attribute? name tag.text = (tag.attributes.find? (·.name = name)).map (·.value) := by
  have hfront : '"' ∉ '<' :: tag.element := by
    rw [List.mem_cons, not_or]
    exact ⟨by decide, fun hmem => (h.element _ hmem).2 rfl⟩
  have hclosing : '"' ∉ tag.closing := by
    unfold closing
    split <;> decide
  have hending : '"' ∉ tag.blanks ++ tag.closing := by
    rw [List.mem_append, not_or]
    exact ⟨fun hmem => absurd (h.blanks _ hmem) (by decide), hclosing⟩
  have hvalues : ∀ a ∈ tag.attributes.takeWhile (·.name ≠ name), ¬ a.SeemsToOpen name := fun a ha =>
    Attribute.not_seemsToOpen (h.values a ((List.takeWhile_prefix _).subset ha)) name
  exact attributeAfter_written hname h.attributes hfront hending hvalues '<'

/-- Of the attributes of a proper tag **there is one of a name** at most. -/
theorem IsProper.find?_eq_some_iff (h : tag.IsProper) {a : Attribute} :
    tag.attributes.find? (·.name = name) = some a ↔ a ∈ tag.attributes ∧ a.name = name := by
  constructor
  · intro hfind
    exact ⟨List.mem_of_find?_eq_some hfind, by simpa using List.find?_some hfind⟩
  · rintro ⟨hmem, hname⟩
    cases hfind : tag.attributes.find? (·.name = name) with
    | none => exact absurd hname (by simpa using List.find?_eq_none.1 hfind a hmem)
    | some b =>
      have hb : b.name = name := by simpa using List.find?_some hfind
      have heq := List.inj_on_of_nodup_map h.names (List.mem_of_find?_eq_some hfind) hmem (hb.trans hname.symm)
      rw [heq]

end StartTag

/-- **The attribute of the name is read.** In a start tag of attributes with distinct names whose values do not
end in an equals sign, a value is read for a name if and only if it is the value of the attribute of that name.
In any text whatever the search for a name ends, after no more rounds than times that the name fits into it
with the equals sign and the quote. -/
theorem attribute_search_reads {tag : StartTag} (h : tag.IsProper) {name : Text}
    (hname : ∀ c ∈ name, isBlank c = false ∧ c ≠ '"') :
    (∀ value, attribute? name tag.text = some value ↔
      ∃ a ∈ tag.attributes, a.name = name ∧ a.value = value) ∧
    ∀ (t : Text) (rounds : Nat), t.length < rounds * (name.length + 2) →
      search name rounds [] t = some (attribute? name t) := by
  refine ⟨fun value => ?_, fun t rounds hrounds => search_eq hrounds⟩
  rw [h.attribute?_text hname, Option.map_eq_some_iff]
  constructor
  · rintro ⟨a, hfind, hvalue⟩
    obtain ⟨hmem, hsame⟩ := h.find?_eq_some_iff.1 hfind
    exact ⟨a, hmem, hsame, hvalue⟩
  · rintro ⟨a, hmem, hsame, hvalue⟩
    exact ⟨a, h.find?_eq_some_iff.2 ⟨hmem, hsame⟩, hvalue⟩

/-- A tag with a name that ends in another one, and with values that hold the other name in its written form. -/
def lookalikeTag : StartTag where
  element := "w:bookmarkStart"
  attributes := [⟨" ", "xw:id", "7"⟩, ⟨"\n\t", "w:note", "für w:id= w:id='x"⟩, ⟨"  ", "w:id", "3"⟩]
  blanks := " "
  isEmpty := true

/-- In that tag the name that ends it is told from the longer one, and the value from what only looks like it. -/
theorem attribute_search_reads_among_lookalikes :
    lookalikeTag.IsProper ∧ (∀ c ∈ "w:id".toList, isBlank c = false ∧ c ≠ '"') ∧
      (∀ c ∈ "id".toList, isBlank c = false ∧ c ≠ '"') ∧
      attribute? "w:id" lookalikeTag.text = some "3".toList ∧ attribute? "id" lookalikeTag.text = none ∧
      search "w:id" 13 [] lookalikeTag.text = some (some "3".toList) := by
  have hproper : lookalikeTag.IsProper := by
    refine ⟨by decide, ?_, by decide +kernel, by decide +kernel, by decide⟩
    refine List.forall_mem_cons.2 ⟨?_, List.forall_mem_cons.2 ⟨?_, List.forall_mem_singleton.2 ?_⟩⟩
    · exact ⟨by decide, by decide, by decide, by decide⟩
    · exact ⟨by decide, by decide, by decide, by decide +kernel⟩
    · exact ⟨by decide, by decide, by decide, by decide⟩
  have hname : ∀ c ∈ "w:id".toList, isBlank c = false ∧ c ≠ '"' := by decide
  have hending : ∀ c ∈ "id".toList, isBlank c = false ∧ c ≠ '"' := by decide
  obtain ⟨hread, hsearch⟩ := attribute_search_reads hproper hname
  have hfound : attribute? "w:id" lookalikeTag.text = some "3".toList :=
    (hread _).2 ⟨⟨"  ", "w:id", "3"⟩, by decide +kernel, rfl, rfl⟩
  refine ⟨hproper, hname, hending, hfound, ?_, ?_⟩
  · rw [Option.eq_none_iff_forall_ne_some]
    intro value hvalue
    obtain ⟨a, ha, hsame, -⟩ := ((attribute_search_reads hproper hending).1 value).1 hvalue
    exact absurd hsame ((by decide +kernel : ∀ a ∈ lookalikeTag.attributes, a.name ≠ "id".toList) a ha)
  · rw [hsearch lookalikeTag.text 13 (by decide +kernel), hfound]

end MailMerge
