import Mathlib.Algebra.Order.BigOperators.Group.List
import Mathlib.Algebra.Order.Group.Nat
import MailMerge.Proofs.FilledTemplate
import MailMerge.Proofs.SplitTemplate
import MailMerge.Replication

/-!
# Splitting runs

A template whose tokens are split into runs renders the same copies as the template in which each token
stands in one run, for every record, if the convention of both is told right. The convention is told
before tokens are joined, so that it is not told right where every opening delimiter is split. Some
record then tells the two templates apart: the copies of the one still hold what marks the tokens, and
those of the other do not.

* `PlaceholderConvention.IsMark` is a character that tells tokens of a convention from all others;
* `plainCopy` is the copy of a record, if nothing but the record gives values;
* `SplitTemplate.detect_of_plainCopy_eq` — where copies do not differ, the convention is told;
* `SplitTemplate.detect_cutText` — where one opening delimiter is in one run, the convention is told;
* `render_split_eq_iff` — when splitting runs does not change the copies.
-/

namespace MailMerge

variable {convention other : PlaceholderConvention} {d d' : Delimiters} {parts : List TemplatePart}
  {cells : List Cell}

/-! ### Records that tell templates apart -/

/-- A **mark** of a convention: a character of its delimiters that its names do not hold, and that no
other convention has in its delimiters. -/
structure PlaceholderConvention.IsMark (convention : PlaceholderConvention) (d : Delimiters)
    (a : Char) : Prop where
  mem_opening : a ∈ d.opening
  mem_excluded : a ∈ d.excluded
  not_blank : isBlank a = false
  not_mem : ∀ other d', other ≠ convention → other.delimiters? = some d' →
    a ∉ d'.opening ∧ a ∉ d'.closing

theorem exists_mark (hd : convention.delimiters? = some d) : ∃ a, convention.IsMark d a := by
  have hothers : ∀ other : PlaceholderConvention, other = .braces ∨ other = .angles ∨ other = .bare := by
    intro other
    cases other <;> simp
  cases convention with
  | braces =>
    cases hd
    refine ⟨'\x7b', by decide, by decide, by decide, fun other d' hne hd' => ?_⟩
    rcases hothers other with rfl | rfl | rfl
    · exact absurd rfl hne
    · cases hd'; decide
    · cases hd'
  | angles =>
    cases hd
    refine ⟨'&', by decide, by decide, by decide, fun other d' hne hd' => ?_⟩
    rcases hothers other with rfl | rfl | rfl
    · cases hd'; decide
    · exact absurd rfl hne
    · cases hd'
  | bare => cases hd

theorem mem_trim_iff {a : Char} {t : Text} (ha : isBlank a = false) : a ∈ Text.trim t ↔ a ∈ t := by
  have hdrop (t : Text) : a ∈ t.dropWhile isBlank ↔ a ∈ t := by
    constructor
    · exact fun h => (List.dropWhile_suffix isBlank).subset h
    · intro h
      rw [← List.takeWhile_append_dropWhile (p := isBlank) (l := t), List.mem_append] at h
      rcases h with h | h
      · rw [List.mem_takeWhile_imp h] at ha
        cases ha
      · exact h
  rw [Text.trim, Text.trimEnd, Text.trimStart, List.mem_reverse, hdrop, List.mem_reverse, hdrop]

/-- If matches may as well be removed, **they are removed**. -/
theorem eq_nil_of_rewriteMatches_eq {m : Matcher} {f : Text → Text} {t : Text}
    (h : rewriteMatches m f t = rewriteMatches m (fun _ => []) t) :
    ∀ piece ∈ matchesIn m t, f piece = [] := by
  intro piece hpiece
  obtain ⟨segment, hsegment, heq⟩ := List.mem_filterMap.1 hpiece
  by_contra hne
  -- one match that is not removed would make the text longer
  have hlength := congrArg List.length h
  rw [rewriteMatches, rewriteMatches, List.length_flatMap, List.length_flatMap] at hlength
  refine absurd hlength (Nat.ne_of_gt (List.sum_lt_sum _ _ (fun segment _ => ?_)
    ⟨segment, hsegment, ?_⟩))
  · cases segment with
    | plain c => exact Nat.le_refl _
    | hit piece => exact Nat.zero_le _
  · cases segment with
    | plain c => cases heq
    | hit piece =>
      cases heq
      exact List.length_pos_iff.2 hne

/-- The table of a record, if nothing but the record gives values. -/
def tableOf (record : Record) : Substitutions :=
  Substitutions.resolve .plain [] .empty record

/-- A record with one field. -/
def probe (name : Text) : Record := ⟨[(name, .text "z")]⟩

theorem tableOf_empty : tableOf .empty = .empty := rfl

theorem tableOf_probe (name : Text) : tableOf (probe name) = ⟨[], [(name, "z")]⟩ := rfl

/-- If no record tells a template of one convention from a template of another, **no token of the
first holds a mark** of the second: a value for its name would show in the first alone. -/
theorem mark_not_mem_of_substituteTokens_eq {a : Char} (hmark : convention.IsMark d a)
    (hne : other ≠ convention) (hd' : other.delimiters? = some d') {t u : Text}
    (h : ∀ record, substituteTokens d' (tableOf record) t = substituteTokens d (tableOf record) u) :
    ∀ piece ∈ matchesIn d'.token t, a ∉ piece := by
  intro piece hpiece ha
  obtain ⟨inner, rfl, -, -⟩ := Delimiters.exists_of_mem_matchesIn_token hpiece
  obtain ⟨hopening, hclosing⟩ := hmark.not_mem other d' hne hd'
  have hname : a ∈ d'.tokenName (d'.tokenText inner) := by
    rw [Delimiters.tokenName_tokenText, mem_trim_iff hmark.not_blank]
    rw [Delimiters.tokenText, List.mem_append, List.mem_append] at ha
    rcases ha with (ha | ha) | ha
    · exact absurd ha hopening
    · exact ha
    · exact absurd ha hclosing
  generalize htoken : d'.tokenText inner = token at hpiece hname
  -- no token of the other template has that name
  have hsame : substituteTokens d (tableOf (probe (d'.tokenName token))) u =
      substituteTokens d (tableOf .empty) u := by
    refine rewriteMatches_congr fun other hother => ?_
    obtain ⟨inner', rfl, -, hinner'⟩ := Delimiters.exists_of_mem_matchesIn_token hother
    have hother : d.tokenName (d.tokenText inner') ≠ d'.tokenName token := by
      intro heq
      rw [← heq, Delimiters.tokenName_tokenText, mem_trim_iff hmark.not_blank] at hname
      exact hinner' a hname hmark.mem_excluded
    rw [tableOf_probe, tableOf_empty, Substitutions.lookup, List.nil_append, List.lookup_cons,
      beq_false_of_ne hother]
    rfl
  have heq : substituteTokens d' (tableOf (probe (d'.tokenName token))) t =
      substituteTokens d' (tableOf .empty) t := by rw [h, h, hsame]
  have hnil := eq_nil_of_rewriteMatches_eq heq token hpiece
  rw [tableOf_probe, Substitutions.lookup, List.nil_append, List.lookup_cons, beq_self_eq_true] at hnil
  cases hnil

/-! ### Copies without values -/

/-- Where no name has a value, **bare names stay**. -/
theorem substituteBare_empty (t : Text) : substituteBare .empty t = t := by
  have hforms : formsInOrder .empty = [] := by
    simp [formsInOrder, nameForms, Substitutions.ordered, Substitutions.empty]
  have hdata (run : Text) : substituteData [] run = run := by
    refine substituteData_of_not_holdsForm ?_
    fun_induction holdsForm [] run with
    | case1 => rfl
    | case2 c t form hform => cases hform
    | case3 c t _ _ ih => exact ih
    | case4 c t _ n _ ih => exact ih
  conv_rhs => rw [← flatMap_text_pieces t]
  rw [substituteBare, hforms]
  refine List.flatMap_congr fun p _ => ?_
  cases p with
  | tag t => rfl
  | data run => exact hdata run

/-- The copy of a record, if nothing but the record gives values. -/
def plainCopy (template : Text) (record : Record) : Text :=
  substitute (PlaceholderConvention.detect template) (tableOf record)
    (repairTokens (PlaceholderConvention.detect template) template)

/-- A copy of a template **in another convention** keeps the marks, if no record tells it from the
template with whole tokens. -/
theorem count_characterData_plainCopy {a : Char} (hmark : convention.IsMark d a)
    {template whole : Text}
    (hne : PlaceholderConvention.detect template ≠ convention)
    (h : ∀ record, plainCopy template record = substituteTokens d (tableOf record) whole) :
    (characterData (plainCopy template .empty)).count a = (characterData template).count a := by
  unfold plainCopy at h ⊢
  generalize PlaceholderConvention.detect template = other at hne h
  unfold substitute at h ⊢
  -- bare names stay where no name has a value, and tokens of another convention hold no mark
  cases hd' : other.delimiters? with
  | none =>
    rw [tableOf_empty]
    dsimp only
    rw [substituteBare_empty, characterData_repairTokens]
  | some d' =>
    rw [hd'] at h
    dsimp only at h ⊢
    have hfree := mark_not_mem_of_substituteTokens_eq hmark hne hd' h
    rw [← characterData_repairTokens other template]
    refine count_characterData_rewriteMatches fun piece hpiece => ?_
    obtain ⟨inner, rfl, -, hinner⟩ := Delimiters.exists_of_mem_matchesIn_token hpiece
    exact ⟨(Delimiters.free_open hd').not_mem_tokenText hinner,
      (Delimiters.free_close hd').not_mem_tokenText hinner, hfree _ hpiece⟩

/-! ### Where no token is told -/

/-- Without opening delimiters among the visible characters there is **nothing to join**. -/
theorem repairCells_of_not_contains (h : Text.contains d.opening (visible cells) = false) :
    repairCells d cells = cells := by
  induction cells with
  | nil => rw [repairCells]
  | cons cell cells ih =>
    have hvisible : visible (cell :: cells) = cell.char :: visible cells := rfl
    rw [hvisible, Text.contains, Text.cut?] at h
    cases hstarts : Text.dropPrefix? d.opening (cell.char :: visible cells) with
    | some rest =>
      rw [hstarts] at h
      cases h
    | none =>
      rw [hstarts, Option.isSome_map] at h
      have hnot : ¬ ∃ rest, visible (cell :: cells) = d.opening ++ rest := by
        rintro ⟨rest, hrest⟩
        rw [hvisible] at hrest
        rw [Text.dropPrefix?_eq_some_iff.2 hrest] at hstarts
        cases hstarts
      rw [repairCells_cons_of_not hnot, ih h]

/-- A template that is **not told** to be of the convention of angle brackets keeps all tags in its
copy, if there are no braces outside them. -/
theorem count_plainCopy_of_ne_angles {t : Text}
    (hne : PlaceholderConvention.detect t ≠ .angles)
    (h : Text.contains "\x7b\x7b" (characterData t) = false) :
    (plainCopy t .empty).count '<' = t.count '<' := by
  unfold plainCopy
  rw [tableOf_empty]
  generalize PlaceholderConvention.detect t = convention at hne
  cases convention with
  | braces =>
    have hrepair : repairTokens .braces t = t := by
      have hcells : repairCells ⟨"\x7b\x7b", "\x7d\x7d", ['\x7b', '\x7d', '<', '>']⟩
          (strandOf t).cells = (strandOf t).cells :=
        repairCells_of_not_contains (by rw [visible_strandOf]; exact h)
      have htext := text_strandOf t
      rw [repairTokens, PlaceholderConvention.delimiters?]
      dsimp only
      rw [hcells]
      exact htext
    rw [hrepair]
    refine count_rewriteMatches fun piece hpiece => ?_
    obtain ⟨inner, rfl, -, hinner⟩ := Delimiters.exists_of_mem_matchesIn_token hpiece
    have hd : PlaceholderConvention.delimiters? .braces = some _ := rfl
    exact (Delimiters.free_open hd).not_mem_tokenText hinner
  | angles => exact absurd rfl hne
  | bare => exact congrArg (List.count '<') (substituteBare_empty t)

/-- As many tags stay as there were only if **no tag is dropped**. -/
theorem Thinned.count_le_and_eq {t u : Text} (h : Thinned t u) :
    u.count '<' ≤ t.count '<' ∧ (t.count '<' ≤ u.count '<' → t = u) := by
  induction h with
  | nil => exact ⟨Nat.le_refl _, fun _ => rfl⟩
  | char c _ ih =>
    rw [List.count_cons, List.count_cons]
    refine ⟨Nat.add_le_add_right ih.1 _, fun hle => ?_⟩
    rw [ih.2 (Nat.le_of_add_le_add_right hle)]
  | @drop tag t u htag _ ih =>
    obtain ⟨inner, rfl, -⟩ := htag
    rw [List.append_assoc, List.cons_append, List.count_cons_self, List.count_append,
      List.count_append]
    refine ⟨by omega, fun hle => ?_⟩
    have hle' := ih.1
    omega

namespace SplitTemplate

/-- A template that is split in some place **has a token**. -/
theorem exists_token_of_ne (hne : cutText parts ≠ wholeText parts) :
    ∃ cells, TemplatePart.token cells ∈ parts := by
  by_contra hnone
  refine hne (List.flatMap_congr fun part hpart => ?_)
  cases part with
  | tag t => rfl
  | spelling t => rfl
  | token cells => exact absurd ⟨cells, hpart⟩ hnone

/-- A template with a token in braces is **told to be of braces**. -/
theorem detect_braces (h : SplitTemplate .braces d parts) (hmem : .token cells ∈ parts) :
    PlaceholderConvention.detect (wholeText parts) = .braces := by
  obtain ⟨inner, hvisible, -⟩ := (h.isSplit _ hmem).exists_inner
  obtain ⟨before, after, rfl⟩ := List.append_of_mem hmem
  have hd := h.delimiters_eq
  cases hd
  have hcontains : Text.contains "\x7b\x7b"
      (wholeText (before ++ .token cells :: after)) = true := by
    rw [wholeText, List.flatMap_append, List.flatMap_cons, TemplatePart.whole, hvisible,
      Delimiters.tokenText, List.append_assoc, List.append_assoc]
    exact contains_append _ _ _
  rw [PlaceholderConvention.detect, if_pos hcontains]

/-- If no record tells a split template from that with whole tokens, the convention of the tokens **is
told** of both, unless they are the same. -/
theorem detect_of_plainCopy_eq (h : SplitTemplate convention d parts)
    (hcopies : ∀ record, plainCopy (cutText parts) record = plainCopy (wholeText parts) record) :
    cutText parts = wholeText parts ∨
      PlaceholderConvention.detect (wholeText parts) = convention ∧
        PlaceholderConvention.detect (cutText parts) = convention := by
  by_cases hsame : cutText parts = wholeText parts
  case pos => exact .inl hsame
  refine .inr ?_
  obtain ⟨cells, hmem⟩ := exists_token_of_ne hsame
  obtain ⟨a, hmark⟩ := exists_mark h.delimiters_eq
  -- the copy of a template that is told right has fewer marks
  have hlt : (characterData (substituteTokens d (tableOf .empty) (wholeText parts))).count a <
      (characterData (wholeText parts)).count a := by
    have hreplace := rewriteMatches_wholeText h fun _ => []
    have hcount := count_characterData_replace_lt h hmark.mem_opening hmem
    rw [← hreplace] at hcount
    exact hcount
  have hcopy {template : Text} (hdetect : PlaceholderConvention.detect template = convention)
      (hrepair : repairTokens convention template = wholeText parts) (record : Record) :
      plainCopy template record = substituteTokens d (tableOf record) (wholeText parts) := by
    rw [plainCopy, hdetect, hrepair, substitute, h.delimiters_eq]
  by_cases hwhole : PlaceholderConvention.detect (wholeText parts) = convention
  · refine ⟨hwhole, ?_⟩
    by_contra hcut
    have hrecord := hcopy hwhole h.repairTokens_whole
    have hcount := count_characterData_plainCopy hmark hcut fun record =>
      (hcopies record).trans (hrecord record)
    rw [hcopies, hrecord, h.characterData_cutText] at hcount
    exact absurd hcount (Nat.ne_of_lt hlt)
  · by_cases hcut : PlaceholderConvention.detect (cutText parts) = convention
    · have hrecord := hcopy hcut h.repairTokens_cut
      have hcount := count_characterData_plainCopy hmark hwhole fun record =>
        (hcopies record).symm.trans (hrecord record)
      rw [← hcopies, hrecord] at hcount
      exact absurd hcount (Nat.ne_of_lt hlt)
    · -- neither is told: all tags of both stay, and one has more of them
      exfalso
      cases convention with
      | braces => exact hwhole (h.detect_braces hmem)
      | angles =>
        have hfree := h.throughout rfl
        have hcount := congrArg (List.count '<') (hcopies .empty)
        rw [count_plainCopy_of_ne_angles hwhole hfree,
          count_plainCopy_of_ne_angles hcut (by rw [h.characterData_cutText]; exact hfree)] at hcount
        have hthin := thinned_repairTokens .angles (cutText parts)
        rw [h.repairTokens_cut] at hthin
        exact hsame (hthin.count_le_and_eq.2 (Nat.le_of_eq hcount))
      | bare => exact nomatch h.delimiters_eq

/-- The convention of a split template is told if **one token keeps its opening delimiter** in one run,
and if no tag holds braces in a template of angle brackets. -/
theorem detect_cutText (h : SplitTemplate convention d parts) (hmem : .token cells ∈ parts)
    (hkept : ∀ cell ∈ cells.take d.opening.length, cell.tags = [])
    (hbraces : convention = .angles → Text.contains "\x7b\x7b" (cutText parts) = false) :
    PlaceholderConvention.detect (cutText parts) = convention := by
  obtain ⟨inner, hvisible, -⟩ := (h.isSplit _ hmem).exists_inner
  obtain ⟨before, after, rfl⟩ := List.append_of_mem hmem
  -- the cells of the opening delimiter have no tags, so that the delimiter stands in the text
  have hopening : (cells.take d.opening.length).flatMap Cell.text = d.opening := by
    rw [← map_untagged_of_tags_eq_nil hkept, flatMap_text_untagged, visible, List.map_take, ← visible,
      hvisible, Delimiters.tokenText, List.append_assoc, List.take_left]
  have hcells : cells.flatMap Cell.text =
      d.opening ++ (cells.drop d.opening.length).flatMap Cell.text := by
    conv_lhs => rw [← List.take_append_drop d.opening.length cells]
    rw [List.flatMap_append, hopening]
  have hcontains : Text.contains d.opening (cutText (before ++ .token cells :: after)) = true := by
    rw [cutText, List.flatMap_append, List.flatMap_cons, TemplatePart.cut, hcells, List.append_assoc]
    exact contains_append _ _ _
  have hd := h.delimiters_eq
  cases convention with
  | braces =>
    cases hd
    rw [PlaceholderConvention.detect, if_pos hcontains]
  | angles =>
    have hnone := hbraces rfl
    cases hd
    dsimp only at hcontains
    rw [PlaceholderConvention.detect, hnone, if_neg Bool.false_ne_true, hcontains, if_pos rfl]
  | bare => cases hd

end SplitTemplate

/-! ### The copies of a split template -/

/-- **Splitting runs does not change the copies**, whatever the records, the shared values, the aliases
and the formats are, if and only if the convention of the tokens is told of the split template and of
that with whole tokens. -/
theorem render_split_eq_iff (h : SplitTemplate convention d parts) (location : Location)
    (kind : BreakKind) :
    (∀ aliases rules shared record,
      (Replicator.of { location with template := cutText parts } kind aliases rules).render
          shared record =
        (Replicator.of { location with template := wholeText parts } kind aliases rules).render
          shared record) ↔
      cutText parts = wholeText parts ∨
        PlaceholderConvention.detect (wholeText parts) = convention ∧
          PlaceholderConvention.detect (cutText parts) = convention := by
  have hrender (template : Text) (aliases : List Alias) (rules : FormatRules)
      (shared : SharedContext) (record : Record) :
      (Replicator.of { location with template := template } kind aliases rules).render shared record =
        substitute (PlaceholderConvention.detect template)
          (Substitutions.resolve rules aliases shared record)
          (repairTokens (PlaceholderConvention.detect template) template) := by
    simp only [Replicator.render, Replicator.of]
  constructor
  · -- plain copies are enough to tell the two templates apart
    intro hcopies
    refine h.detect_of_plainCopy_eq fun record => ?_
    have hcopy := hcopies [] .plain .empty record
    rw [hrender, hrender] at hcopy
    exact hcopy
  · rintro (hsame | ⟨hwhole, hcut⟩) aliases rules shared record
    · rw [hsame]
    · rw [hrender, hrender, hwhole, hcut, h.repairTokens_cut, h.repairTokens_whole]

/-- The parts of a run with one token. -/
def runOfToken (cells : List Cell) : List TemplatePart :=
  [.tag "<w:r>", .tag "<w:t>", .token cells, .tag "</w:t>", .tag "</w:r>"]

/-- A token for the field `x`, split before the second brace or before the name. -/
def tokenOfX (beforeBrace beforeName : List Text) : List Cell :=
  [⟨[], '\x7b'⟩, ⟨beforeBrace, '\x7b'⟩, ⟨beforeName, 'x'⟩, ⟨[], '\x7d'⟩, ⟨[], '\x7d'⟩]

/-- The location of a region of which nothing is known but its template. -/
def locationOf (template : Text) : Location := ⟨.bookmark, 0, 0, template, [], [], .inline⟩

theorem splitTemplate_runOfToken {beforeBrace beforeName : List Text}
    (hbrace : beforeBrace = [] ∨ ∃ properties, IsRunProperties properties ∧
      beforeBrace = runBreak properties)
    (hname : beforeName = [] ∨ ∃ properties, IsRunProperties properties ∧
      beforeName = runBreak properties) :
    SplitTemplate .braces ⟨"\x7b\x7b", "\x7d\x7d", ['\x7b', '\x7d', '<', '>']⟩
      (runOfToken (tokenOfX beforeBrace beforeName)) where
  delimiters_eq := rfl
  throughout := fun h => nomatch h
  isSplit := by
    have htoken : IsSplitToken ⟨"\x7b\x7b", "\x7d\x7d", ['\x7b', '\x7d', '<', '>']⟩
        (tokenOfX beforeBrace beforeName) := by
      refine ⟨⟨['x'], rfl, by decide, List.forall_mem_singleton.2 (by decide), by decide⟩, ?_, ?_⟩
      · intro cell hcell
        cases hcell
        rfl
      · rw [tokenOfX, List.forall_mem_cons, List.forall_mem_cons, List.forall_mem_cons,
          List.forall_mem_cons, List.forall_mem_cons]
        exact ⟨.inl rfl, hbrace, hname, .inl rfl, .inl rfl, List.forall_mem_nil _⟩
    simp only [runOfToken, List.forall_mem_cons]
    exact ⟨⟨"w:r", rfl, by decide⟩, ⟨"w:t", rfl, by decide⟩, htoken, ⟨"/w:t", rfl, by decide⟩,
      ⟨"/w:r", rfl, by decide⟩, List.forall_mem_nil _⟩

/-- The properties of bold runs. -/
def boldProperties : List Text := ["<w:rPr>", "<w:b/>", "</w:rPr>"]

theorem isRunProperties_bold : IsRunProperties boldProperties := by
  refine ⟨?_, by decide⟩
  simp only [boldProperties, List.forall_mem_cons]
  exact ⟨⟨"w:rPr", rfl, by decide⟩, ⟨"w:b/", rfl, by decide⟩, ⟨"/w:rPr", rfl, by decide⟩,
    List.forall_mem_nil _⟩

/-- A token that is **split before its name** is filled in. -/
theorem render_split_before_name :
    SplitTemplate .braces ⟨"\x7b\x7b", "\x7d\x7d", ['\x7b', '\x7d', '<', '>']⟩
        (runOfToken (tokenOfX [] (runBreak boldProperties))) ∧
      (Replicator.of (locationOf (cutText (runOfToken (tokenOfX [] (runBreak boldProperties)))))
        .none [] .plain).render .empty (probe "x") = ("<w:r><w:t>z</w:t></w:r>" : String).toList := by
  have h := splitTemplate_runOfToken (.inl rfl)
    (.inr ⟨boldProperties, isRunProperties_bold, rfl⟩)
  refine ⟨h, ?_⟩
  have hdetect : PlaceholderConvention.detect
        (wholeText (runOfToken (tokenOfX [] (runBreak boldProperties)))) = .braces ∧
      PlaceholderConvention.detect
        (cutText (runOfToken (tokenOfX [] (runBreak boldProperties)))) = .braces := by
    decide +kernel
  have hrender := (render_split_eq_iff h (locationOf []) .none).2 (.inr hdetect) [] .plain .empty
    (probe "x")
  refine hrender.trans ?_
  decide +kernel

/-- A token that is **split within its opening delimiter** stays in the copy, though it would not if it
were whole. -/
theorem render_split_within_delimiter :
    SplitTemplate .braces ⟨"\x7b\x7b", "\x7d\x7d", ['\x7b', '\x7d', '<', '>']⟩
        (runOfToken (tokenOfX (runBreak []) [])) ∧
      (Replicator.of (locationOf (cutText (runOfToken (tokenOfX (runBreak []) []))))
          .none [] .plain).render .empty .empty ≠
        (Replicator.of (locationOf (wholeText (runOfToken (tokenOfX (runBreak []) []))))
          .none [] .plain).render .empty .empty := by
  refine ⟨splitTemplate_runOfToken (.inr ⟨[], ⟨List.forall_mem_nil _, by decide⟩, rfl⟩) (.inl rfl), ?_⟩
  decide +kernel

end MailMerge
