import MailMerge.Proofs.DataSafety

/-!
# What merging keeps

A merged main part is put together from pieces of the main part of the template, from rendered
values and from the few tags of breaks. The main part is cut at tags, at tokens and at bare names,
each of which begins with a character that no reference holds or lies between references. So a
property of texts that survives such cuts, that holds of two texts together if it holds of both, and
that holds of plain text, is one that merging keeps: the merged main part has it if the main part of
the template and all rendered values have it.

The property is a parameter of the whole argument. Each pass of merging is followed once, and a scan
is followed with what it has passed over as an accumulator, since a text that has the property may
be cut only where a match begins.

* `KeptByMerging` says what is asked of a property;
* `KeptByMerging.rewriteMatches` — a scan that drops or replaces matches keeps it;
* `KeptByMerging.of_thinned` — so does dropping tags;
* `KeptByMerging.substitute` — and so does putting values in place of names;
* `KeptByMerging.merged` — a merged main part has the property.
-/

namespace MailMerge

/-- Whether a character is **plain**: a printing character of ASCII that begins no reference. -/
def isPlain (c : Char) : Bool := 32 ≤ c.toNat && c.toNat < 127 && c != '&'

/-- A property of texts that **merging keeps**. Plain texts have it, and two texts together if both
have it. What is behind some place in such a text has it, and what is before a character that no
reference holds; and so has what a scan for bare names passes over at once. -/
structure KeptByMerging (P : Text → Prop) : Prop where
  plain : ∀ {t : Text}, (∀ c ∈ t, isPlain c = true) → P t
  append : ∀ {a b : Text}, P a → P b → P (a ++ b)
  behind : ∀ {a b : Text}, P (a ++ b) → P b
  before : ∀ {a b : Text} {c : Char}, P (a ++ c :: b) → isReferenceChar c = false → c ≠ ';' → P a
  head : ∀ {c : Char} {t : Text}, P (c :: t) → P (c :: t.take (reference (c :: t) - 1))

/-- No reference holds a **blank**. -/
theorem isReferenceChar_of_isBlank {c : Char} (h : isBlank c = true) :
    isReferenceChar c = false := by
  refine Bool.eq_false_iff.2 fun hreference => ?_
  have hrange : c.toNat = 35 ∨ (48 ≤ c.toNat ∧ c.toNat ≤ 57) ∨ (65 ≤ c.toNat ∧ c.toNat ≤ 90) ∨
      (97 ≤ c.toNat ∧ c.toNat ≤ 122) := by
    simp only [isReferenceChar, isAlphanum_eq, Bool.or_eq_true, beq_iff_eq, Bool.and_eq_true,
      decide_eq_true_eq, UInt32.le_iff_toNat_le] at hreference
    rcases hreference with rfl | (hupper | hlower) | hdigit
    · exact .inl rfl
    · exact .inr (.inr (.inl hupper))
    · exact .inr (.inr (.inr hlower))
    · exact .inr (.inl hdigit)
  simp only [isBlank, Bool.or_eq_true, Bool.and_eq_true, decide_eq_true_eq, beq_iff_eq] at h
  omega

namespace KeptByMerging

variable {P : Text → Prop} (hP : KeptByMerging P) {t u : Text}
include hP

theorem nil : P [] := hP.plain fun _ hc => nomatch hc

/-- Texts with the property can be **cut at the brackets**. -/
theorem cutsAtBrackets : CutsAtBrackets P where
  nil := hP.nil
  append := hP.append
  split_open := by
    intro a b h
    exact ⟨hP.before h (by decide) (by decide), hP.behind h⟩
  split_close := by
    intro a b h
    have ha : P a := hP.before h (by decide) (by decide)
    have hclose : P ['>'] := hP.plain (by decide)
    refine ⟨hP.append ha hclose, ?_⟩
    rw [← List.singleton_append, ← List.append_assoc] at h
    exact hP.behind h

/-! ### Blanks -/

theorem trimEnd (h : P t) : P (Text.trimEnd t) := by
  have htext : t = Text.trimEnd t ++ (t.reverse.takeWhile isBlank).reverse := by
    rw [Text.trimEnd, ← List.reverse_append, List.takeWhile_append_dropWhile, List.reverse_reverse]
  -- the blanks that are cut off begin with a blank, which no reference holds
  cases hblanks : (t.reverse.takeWhile isBlank).reverse with
  | nil =>
    rw [hblanks, List.append_nil] at htext
    rwa [← htext]
  | cons c blanks =>
    have hc : isBlank c = true := by
      have hmem : c ∈ (t.reverse.takeWhile isBlank).reverse := hblanks ▸ List.mem_cons_self ..
      exact List.mem_takeWhile_imp (List.mem_reverse.1 hmem)
    rw [htext, hblanks] at h
    have hsemi : c ≠ ';' := (Sound.not_blank_of_markup hc).2.2.2
    exact hP.before h (isReferenceChar_of_isBlank hc) hsemi

theorem trim (h : P t) : P (Text.trim t) := by
  have hstart : P (Text.trimStart t) := by
    rw [← List.takeWhile_append_dropWhile (p := isBlank) (l := t)] at h
    exact hP.behind h
  exact hP.trimEnd hstart

/-! ### Scans -/

/-- A scan that **rewrites matches** keeps the property, if all matches begin with a character that
no reference holds and what they become has the property. -/
theorem rewriteMatches {m : Matcher} {opening : Char} {f : Text → Text}
    (hopens : m.OpensWith opening) (hle : ∀ c t, m (c :: t) ≤ (c :: t).length)
    (hreference : isReferenceChar opening = false) (hsemi : opening ≠ ';')
    (hf : ∀ u v, u ≠ [] → m (u ++ v) = u.length → P (u ++ v) → P (f u)) (h : P t) :
    P (rewriteMatches m f t) := by
  -- the accumulator `a` is what has been passed over since the last match
  have key : ∀ n a t, t.length = n → P (a ++ t) → P (a ++ MailMerge.rewriteMatches m f t) := by
    intro n
    induction n using Nat.strongRecOn with
    | ind n ih =>
      intro a t hlen ht
      cases t with
      | nil => rwa [rewriteMatches_nil]
      | cons c t =>
        cases hmatch : m (c :: t) with
        | zero =>
          rw [rewriteMatches_cons_of_zero hmatch]
          have hlt : t.length < n := by rw [← hlen]; exact Nat.lt_succ_self _
          have hnext := ih t.length hlt (a ++ [c]) t rfl (by simpa using ht)
          simpa using hnext
        | succ k =>
          obtain ⟨u, v, htext, hne, hu, hlt⟩ := exists_append_of_match (hle c t) hmatch
          have hc : c = opening := by
            by_contra hc
            rw [hopens c t hc] at hmatch
            cases hmatch
          have ha : P a := by
            refine hP.before (b := t) (c := opening) ?_ hreference hsemi
            rwa [hc] at ht
          have huv : P (u ++ v) := by
            rw [htext] at ht
            exact hP.behind ht
          have hv : P ([] ++ v) := hP.behind huv
          rw [htext, rewriteMatches_append_of_match hne hu]
          exact hP.append ha (hP.append (hf u v hne hu huv) (ih v.length (hlen ▸ hlt) [] v rfl hv))
  exact key t.length [] t rfl h

/-- Dropping matches **between brackets**. -/
theorem rewriteMarkers {m : Matcher} (hm : m.TakesBrackets) {f : Text → Text}
    (hf : ∀ piece, f piece = [] ∨ f piece = piece) (h : P t) :
    P (MailMerge.rewriteMatches m f t) := by
  refine hP.rewriteMatches hm.opens hm.length_le (by decide) (by decide) ?_ h
  intro u v hne hmatch huv
  rcases hf u with hdrop | hkeep
  · rw [hdrop]
    exact hP.nil
  · -- a match that stays is cut out behind its closing bracket
    obtain ⟨w, rfl⟩ := hm.eq_of_match hne hmatch
    rw [hkeep]
    rw [List.append_assoc] at huv
    exact (hP.cutsAtBrackets.split_close huv).1

/-- Texts with the property can be **cut out** of one another. -/
theorem cutsOut : CutsOut P where
  toCutsAtBrackets := hP.cutsAtBrackets
  rewriteMatches hm hf h := hP.rewriteMarkers hm hf h
  trim := hP.trim

/-- **Dropping tags** keeps the property. -/
theorem of_thinned (hthin : Thinned t u) (h : P t) : P u := by
  -- the accumulator `a` is what has been passed over since the last tag that was dropped
  have key : ∀ a, P (a ++ t) → P (a ++ u) := by
    clear h
    induction hthin with
    | nil => exact fun a h => h
    | @char t u c _ ih =>
      intro a h
      have hnext := ih (a ++ [c]) (by simpa using h)
      simpa using hnext
    | @drop tag t u htag _ ih =>
      intro a h
      obtain ⟨inner, rfl, -⟩ := htag
      have ha : P a := hP.before h (by decide) (by decide)
      have ht : P ([] ++ t) := by
        rw [← List.append_assoc] at h
        exact hP.behind h
      exact hP.append ha (ih [] ht)
  exact key [] h

theorem repairTokens (h : P t) (convention : PlaceholderConvention) :
    P (repairTokens convention t) :=
  hP.of_thinned (thinned_repairTokens convention t) h

end KeptByMerging

/-! ### Pieces -/

/-- A list of **pieces of a fragment**: tags go from bracket to bracket, and no run of character
data follows another one. -/
inductive IsCut : List Piece → Prop
  | nil : IsCut []
  | last (run : Text) : IsCut [.data run]
  | tag {inner : Text} {ps : List Piece} : IsCut ps → IsCut (.tag ('<' :: inner ++ ['>']) :: ps)
  | data (run : Text) {tag : Text} {ps : List Piece} :
      IsCut (.tag tag :: ps) → IsCut (.data run :: .tag tag :: ps)

theorem isCut_consData {ps : List Piece} (h : IsCut ps) (c : Char) :
    IsCut (Piece.consData c ps) := by
  cases h with
  | nil => exact .last [c]
  | last run => exact .last (c :: run)
  | tag h => exact .data [c] (.tag h)
  | data run h => exact .data (c :: run) h

/-- A fragment **is cut** into its pieces. -/
theorem isCut_pieces (t : Text) : IsCut (pieces t) := by
  unfold pieces
  fun_induction segments anyTag t with
  | case1 => exact .nil
  | case2 c t _ ih => exact isCut_consData ih c
  | case3 c t n hmatch ih =>
    have hc : c = '<' := by
      by_contra hc
      rw [anyTag_opensWith c t hc] at hmatch
      cases hmatch
    subst hc
    obtain ⟨inner, hinner, -⟩ := isTag_of_anyTag hmatch
    rw [List.foldr_cons, hinner]
    exact .tag ih

namespace KeptByMerging

variable {P : Text → Prop} (hP : KeptByMerging P) {t u : Text}
include hP

theorem of_isCut {ps : List Piece} (hcut : IsCut ps) (h : P (ps.flatMap Piece.text)) :
    ∀ p ∈ ps, P p.text := by
  induction hcut with
  | nil => exact fun p hp => nomatch hp
  | last run =>
    intro p hp
    rw [List.mem_singleton.1 hp]
    simpa [Piece.text] using h
  | @tag inner ps _ ih =>
    rw [List.flatMap_cons, Piece.text] at h
    have hrest : P (ps.flatMap Piece.text) := hP.behind h
    rw [List.append_assoc] at h
    exact List.forall_mem_cons.2 ⟨(hP.cutsAtBrackets.split_close h).1, ih hrest⟩
  | @data run tag ps hps ih =>
    rw [List.flatMap_cons, Piece.text] at h
    refine List.forall_mem_cons.2 ⟨?_, ih (hP.behind h)⟩
    -- the run is cut off before the bracket of the tag behind it
    cases hps with
    | tag => exact hP.before h (by decide) (by decide)

theorem flatMap {α : Type} {f : α → Text} {l : List α} (h : ∀ a ∈ l, P (f a)) :
    P (l.flatMap f) := by
  induction l with
  | nil => exact hP.nil
  | cons a l ih =>
    obtain ⟨ha, hl⟩ := List.forall_mem_cons.1 h
    exact hP.append ha (ih hl)

/-! ### Substitution -/

theorem drop {c : Char} (h : P (c :: t)) (n : Nat) : P (t.drop n) := by
  rw [← List.take_append_drop n t, ← List.cons_append] at h
  exact hP.behind h

/-- Bare names in a run of character data **with values in their place**. -/
theorem substituteData {forms : List (Text × Text)} (hforms : ∀ form ∈ forms, P form.2) {run : Text}
    (h : P run) :
    P (substituteData forms run) := by
  -- A value comes from the table; everything else stands in the run already.
  fun_induction MailMerge.substituteData forms run with
  | case1 => exact hP.nil
  | case2 c t form value hfind ih =>
    exact hP.append (hforms _ (List.mem_of_find?_eq_some hfind)) (ih (hP.drop h _))
  | case3 c t _ hreference ih =>
    have hhead : P [c] := by
      have hpassed := hP.head h
      rwa [hreference] at hpassed
    exact hP.append hhead (ih (hP.drop h 0))
  | case4 c t _ n hreference ih =>
    have hhead : P (c :: t.take n) := by
      have hpassed := hP.head h
      rwa [hreference] at hpassed
    exact hP.append hhead (ih (hP.drop h n))

/-- A fragment **with values in place of names**. -/
theorem substitute (convention : PlaceholderConvention) {s : Substitutions} (hs : s.AllValues P)
    (h : P t) :
    P (substitute convention s t) := by
  unfold MailMerge.substitute
  split
  case h_1 d hd =>
    -- tokens begin with a brace or an ampersand, and values stand in their place
    obtain ⟨opening, hm⟩ := token_takesData hd
    refine hP.rewriteMatches hm.opens (fun c t => hm.length_le (c :: t)) hm.not_reference
      hm.ne_semicolon ?_ h
    intro token _ _ _ _
    cases hlookup : s.lookup (d.tokenName token) with
    | none => exact hP.nil
    | some value => exact hs.of_lookup hlookup
  case h_2 =>
    -- bare names stand in the runs of character data, and tags stay as they are
    have hpieces : ∀ p ∈ pieces t, P p.text :=
      hP.of_isCut (isCut_pieces t) (by rwa [flatMap_text_pieces])
    refine hP.flatMap fun p hp => ?_
    cases p with
    | tag tag => exact hpieces _ hp
    | data run =>
      exact hP.substituteData (fun _ hform => (hs.of_mem_formsInOrder hform).2.2) (hpieces _ hp)

/-! ### Merged main parts -/

theorem intercalate {separator : Text} (hseparator : P separator) {ts : List Text}
    (h : ∀ t ∈ ts, P t) :
    P (List.intercalate separator ts) := by
  induction ts with
  | nil => exact hP.nil
  | cons t ts ih =>
    obtain ⟨ht, hts⟩ := List.forall_mem_cons.1 h
    cases ts with
    | nil => simpa using ht
    | cons u ts =>
      rw [List.intercalate_cons_cons]
      exact hP.append (hP.append ht hseparator) (ih hts)

/-- The **break** between two copies. -/
theorem markup (kind : BreakKind) (context : BreakContext) {properties : Text} (h : P properties) :
    P (kind.markup context properties) := by
  have hparagraph : P BreakKind.pageBreakParagraph := hP.plain (by decide)
  unfold BreakKind.markup
  split
  case h_1 => exact hP.nil
  case h_2 => exact hP.plain (by decide)
  case h_3 => exact hparagraph
  case h_4 =>
    dsimp only
    split
    case isTrue => exact hparagraph
    case isFalse =>
      exact hP.append (hP.append (hP.plain (by decide)) (hP.trim h)) (hP.plain (by decide))

/-- A **merged main part** has the property if the main part of the template has it, and all values
that are put into it. -/
theorem merged {options : MergeOptions} {template : Bytes}
    (t : OpenedTemplate options.markers template)
    (shared : SharedContext) (records : List Record) (h : P t.package.mainText)
    (hvalues : ∀ record ∈ shared.values :: records, ∀ field ∈ record.fields, ∀ format,
      P (renderValue options.format field.2 format)) : P (t.merged options shared records) := by
  obtain ⟨⟨hbefore, hafter⟩, htemplate, htrailing, hproperties⟩ := t.of_cutsOut hP.cutsOut h
  obtain ⟨hshared, hrecords⟩ := List.forall_mem_cons.1 hvalues
  -- The pieces of the main part are those of the template, the page breaks between copies, and the copies.
  have hseparator : P (options.separator t.location) := hP.markup _ _ hproperties
  have hcopy (record : Record) (hrecord : record ∈ records) :
      P (options.copy t.location.template shared record) := by
    have htable :
        (Substitutions.resolve options.format options.aliases shared record).AllValues P :=
      allValues_resolve hP.nil (List.forall_mem_append.2 ⟨hshared, hrecords record hrecord⟩)
    exact hP.substitute _ htable (hP.repairTokens htemplate _)
  have hcopies : P (options.copies t.location shared records) := by
    refine hP.intercalate hseparator fun copy hmem => ?_
    obtain ⟨record, hrecord, rfl⟩ := List.mem_map.1 hmem
    exact hcopy record hrecord
  exact hP.append (hP.append (hP.append hbefore hcopies) htrailing) hafter

end KeptByMerging

end MailMerge
