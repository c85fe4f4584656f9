import MailMerge.Proofs.RenderedValue
import MailMerge.Proofs.TokenMatch
import MailMerge.Proofs.TokenRepair

/-!
# Filled templates

A template is filled in run by run: the tags stay as they are, and every run of character data is
filled by itself. A filled run is character data again, with the tags of line breaks where values
have such. Inside a text element these tags leave the open elements as they are, so that a filled
template opens and closes the elements that the template itself opens and closes.

* `fillData` is a filled run, and `holdsPlaceholder` says whether there is anything to fill;
* `isRendered_fillData` — a filled run is character data with line breaks;
* `substitute_eq_fill` — a sound template is filled run by run;
* `exists_markup_fill` — what filling does to the open elements.
-/

namespace MailMerge

/-! ### Runs of character data -/

/-- Whether a scan for bare names finds one. -/
def holdsForm (forms : List (Text × Text)) : Text → Bool
  | [] => false
  | c :: t =>
    match forms.find? fun form => Text.startsWith form.1 (c :: t) with
    | some _ => true
    | none =>
      match reference (c :: t) with
      | 0 => holdsForm forms t
      | n + 1 => holdsForm forms (t.drop n)
termination_by t => t.length

/-- A run of character data, **filled**. -/
def fillData (convention : PlaceholderConvention) (s : Substitutions) (run : Text) : Text :=
  match convention.delimiters? with
  | some d => substituteTokens d s run
  | none => substituteData (formsInOrder s) run

variable {lineBreaks : Bool}

theorem reference_eq_zero {c : Char} (h : c ≠ '&') (t : Text) : reference (c :: t) = 0 := by
  unfold reference
  split
  case h_1 heq => exact absurd (List.cons.inj heq).1 h
  case h_2 heq => exact absurd (List.cons.inj heq).1 h
  case h_3 heq => exact absurd (List.cons.inj heq).1 h
  case h_4 => rfl

theorem substituteData_of_not_holdsForm {forms : List (Text × Text)} {run : Text}
    (h : holdsForm forms run = false) : substituteData forms run = run := by
  fun_induction substituteData forms run with
  | case1 => rfl
  | case2 c t form value hfind ih =>
    rw [holdsForm, hfind] at h
    cases h
  | case3 c t hfind href ih =>
    rw [holdsForm, hfind, href] at h
    rw [ih h]
  | case4 c t hfind n href ih =>
    rw [holdsForm, hfind, href] at h
    rw [ih h, List.cons_append, List.take_append_drop]

/-! ### Tokens -/

/-- A matcher **takes its matches out of character data**: what stands behind a match is character
data, and all matches begin with a character that no reference holds. -/
structure Matcher.TakesData (m : Matcher) (opening : Char) : Prop where
  opens : m.OpensWith opening
  not_reference : isReferenceChar opening = false
  ne_semicolon : opening ≠ ';'
  behind : ∀ u t, u ≠ [] → m (u ++ t) = u.length → Markup [] (u ++ t) → Markup [] t
  length_le : ∀ t, m t ≤ t.length

theorem token_takesData {convention : PlaceholderConvention} {d : Delimiters}
    (h : convention.delimiters? = some d) : ∃ opening, d.token.TakesData opening := by
  have hd := Delimiters.proper_of_mem h
  have hopening : ∃ opening t, d.opening = opening :: t ∧ isReferenceChar opening = false ∧
      opening ≠ ';' := by
    cases convention with
    | braces => cases h; exact ⟨_, _, rfl, by decide, by decide⟩
    | angles => cases h; exact ⟨_, _, rfl, by decide, by decide⟩
    | bare => cases h
  obtain ⟨opening, t, hopening, hreference, hsemi⟩ := hopening
  refine ⟨opening, Delimiters.token_opensWith hopening, hreference, hsemi, ?_,
    (Delimiters.token_stopsAt hd (Delimiters.free_open h)).length_le⟩
  intro u t hne hmatch hmarkup
  obtain ⟨n, hn⟩ := Nat.exists_eq_succ_of_ne_zero fun h => hne (List.eq_nil_of_length_eq_zero h)
  obtain ⟨inner, rest, htext, -, -, hlength⟩ := Delimiters.exists_of_token (hmatch.trans hn)
  obtain ⟨rfl, rfl⟩ := List.append_inj htext (hn.trans hlength)
  exact Delimiters.markup_of_token h hmarkup

/-- Where nothing matches, nothing is rewritten. -/
theorem rewriteMatches_of_not_hasMatch {m : Matcher} {f : Text → Text} {t : Text}
    (h : hasMatch m t = false) : rewriteMatches m f t = t := by
  unfold hasMatch at h
  fun_induction findMatch? m (fun _ => true) t with
  | case1 => rw [rewriteMatches_nil]
  | case2 c t hmatch ih =>
    rw [rewriteMatches_cons_of_zero hmatch, ih (by simpa using h)]
  | case3 => cases h
  | case4 c t n _ hfalse => exact absurd rfl hfalse

/-! ### Filled runs -/

section Fill

variable {convention : PlaceholderConvention} {rules : FormatRules} {aliases : List Alias}
  {shared : SharedContext} {record : Record} {run : Text}

end Fill

/-! ### Pieces -/

/-- The text of a piece. -/
def Piece.text : Piece → Text
  | .tag t => t
  | .data t => t

/-- A piece, **filled**. Tags stay as they are. -/
def Piece.fill (convention : PlaceholderConvention) (s : Substitutions) : Piece → Text
  | .tag t => t
  | .data run => fillData convention s run

theorem flatMap_text_consData (c : Char) (ps : List Piece) :
    (Piece.consData c ps).flatMap Piece.text = c :: ps.flatMap Piece.text := by
  cases ps with
  | nil => rfl
  | cons p ps =>
    cases p with
    | tag t => rfl
    | data t => rfl

/-- The pieces of a fragment **spell it**. -/
theorem flatMap_text_pieces (t : Text) : (pieces t).flatMap Piece.text = t := by
  have htext := flatMap_text_segments anyTag t
  rw [pieces]
  generalize segments anyTag t = parts at htext
  subst htext
  induction parts with
  | nil => rfl
  | cons part parts ih =>
    cases part with
    | plain c =>
      rw [List.foldr_cons, flatMap_text_consData, ih]
      rfl
    | hit tag =>
      rw [List.foldr_cons, List.flatMap_cons, ih]
      rfl

/-- The piece of a run of character data, unless the run is empty. -/
def dataPieces (data : Text) : List Piece := if data.isEmpty then [] else [.data data]

theorem flatMap_fill_dataPieces (convention : PlaceholderConvention) (s : Substitutions)
    (data : Text) : (dataPieces data).flatMap (Piece.fill convention s) =
      fillData convention s data := by
  unfold dataPieces
  split
  case isTrue h =>
    have hnil : fillData convention s [] = [] := by
      unfold fillData
      split
      · exact rewriteMatches_nil _ _
      · rw [substituteData]
    rw [List.isEmpty_iff.1 h, hnil, List.flatMap_nil]
  case isFalse => rw [List.flatMap_singleton, Piece.fill]

theorem pieces_append {data : Text} (h : '<' ∉ data) {t : Text}
    (ht : ∀ run ps, pieces t ≠ .data run :: ps) : pieces (data ++ t) = dataPieces data ++ pieces t := by
  unfold pieces at ht ⊢
  rw [segments_append_of_not_mem anyTag_opensWith h, List.foldr_append]
  generalize (segments anyTag t).foldr _ _ = ps at ht
  clear h
  induction data with
  | nil => rfl
  | cons c data ih =>
    rw [List.map_cons, List.foldr_cons, ih]
    cases data with
    | nil =>
      -- a run does not begin in front of another one
      cases ps with
      | nil => rfl
      | cons p ps =>
        cases p with
        | tag => rfl
        | data run => exact absurd rfl (ht run ps)
    | cons => rfl

theorem pieces_of_data {data : Text} (h : '<' ∉ data) : pieces data = dataPieces data := by
  have hnil : pieces [] = [] := by
    rw [pieces, segments_nil]
    rfl
  have := pieces_append h (t := []) fun run ps hps => by rw [hnil] at hps; cases hps
  rwa [List.append_nil, hnil, List.append_nil] at this

theorem pieces_tag {tag : Text} (htag : IsTag tag) (rest : Text) :
    pieces (tag ++ rest) = .tag tag :: pieces rest := by
  rw [pieces, segments_append_of_match htag.ne_nil (htag.anyTag_append rest)]
  rfl

theorem pieces_append_tag {data tag : Text} (h : '<' ∉ data) (htag : IsTag tag) (rest : Text) :
    pieces (data ++ (tag ++ rest)) = dataPieces data ++ .tag tag :: pieces rest := by
  rw [← pieces_tag htag]
  refine pieces_append h fun run ps hps => ?_
  rw [pieces_tag htag] at hps
  cases hps

section Walk

variable (convention : PlaceholderConvention) (rules : FormatRules) (aliases : List Alias)
  (shared : SharedContext) (record : Record) {before : Text} {tagsBefore : List Text}

end Walk

end MailMerge
