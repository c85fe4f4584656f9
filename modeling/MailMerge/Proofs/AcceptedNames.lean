import MailMerge.Proofs.BareNames
import MailMerge.Proofs.RunSplitting
import MailMerge.Proofs.TokenRows

/-!
# The names that a convention accepts

The markup of a template spells a field name in escaped form: `A & B` stands there as `A &amp; B`.
Bare names are looked for in that form. What stands between delimiters is looked up as it is
written, and between angle brackets it may not hold an ampersand at all. So bare names work whatever
characters they hold, and names between delimiters only if none of their characters has to be
escaped.

* `nameFragment` is the text element with the placeholder of a name, in each of the conventions;
* `substitute_tokenText` and `substitute_bareName` — what becomes of a placeholder that is alone in
  its text element;
* `accepts_iff` — which names a convention accepts.
-/

namespace MailMerge

/-! ### The specification -/

/-- What a **field name** has to satisfy to stand in a placeholder: it is not empty, neither begins
nor ends with a blank, and holds no brace. -/
structure IsFieldName (name : Text) : Prop where
  ne_nil : name ≠ []
  trim_eq : Text.trim name = name
  opening_not_mem : '\x7b' ∉ name
  closing_not_mem : '\x7d' ∉ name

/-- Whether a character stands in markup **as it is**. -/
def IsUnescaped (c : Char) : Prop := c ≠ '&' ∧ c ≠ '<' ∧ c ≠ '>'

namespace PlaceholderConvention

/-- The **placeholder of a name**: its escaped form, between the delimiters if there are any. -/
def placeholder (convention : PlaceholderConvention) (name : Text) : Text :=
  match convention.delimiters? with
  | some d => d.tokenText (escapeText name)
  | none => escapeText name

/-- The text element that holds the placeholder of a name and nothing else. -/
def nameFragment (convention : PlaceholderConvention) (name : Text) : Text :=
  "<w:t>" ++ (convention.placeholder name ++ "</w:t>")

/-- Whether a convention **accepts a name**: every table that has the name puts its value in place
of the placeholder. -/
def Accepts (convention : PlaceholderConvention) (name : Text) : Prop :=
  ∀ (s : Substitutions) (value : Text), s.lookup name = some value →
    substitute convention s (convention.nameFragment name) = "<w:t>" ++ (value ++ "</w:t>")

theorem nameFragment_eq {convention : PlaceholderConvention} {d : Delimiters} {name : Text}
    (hd : convention.delimiters? = some d) :
    convention.nameFragment name = "<w:t>" ++ (d.tokenText (escapeText name) ++ "</w:t>") := by
  have hplaceholder : convention.placeholder name = d.tokenText (escapeText name) := by
    rw [placeholder, hd]
  exact congrArg (fun t => ("<w:t>" : Text) ++ (t ++ ("</w:t>" : Text))) hplaceholder

end PlaceholderConvention

variable {convention : PlaceholderConvention} {d : Delimiters} {s : Substitutions}
  {name inner value t : Text} {c : Char}

/-! ### Escaped names -/

theorem escapeText_append (t u : Text) : escapeText (t ++ u) = escapeText t ++ escapeText u :=
  List.flatMap_append

theorem escapeText_singleton (c : Char) : escapeText [c] = escapeTextChar c :=
  List.flatMap_singleton ..

theorem escapeTextChar_of_isUnescaped (h : IsUnescaped c) : escapeTextChar c = [c] := by
  obtain ⟨hamp, hopen, hclose⟩ := h
  unfold escapeTextChar
  split
  case h_1 => exact absurd rfl hamp
  case h_2 => exact absurd rfl hopen
  case h_3 => exact absurd rfl hclose
  case h_4 => rfl

/-- A name without such characters **is its own escaped form**. -/
theorem escapeText_of_isUnescaped (h : ∀ c ∈ t, IsUnescaped c) : escapeText t = t := by
  induction t with
  | nil => rfl
  | cons c t ih =>
    obtain ⟨hc, ht⟩ := List.forall_mem_cons.1 h
    rw [escapeText_cons, escapeTextChar_of_isUnescaped hc, ih ht]
    rfl

theorem length_le_escapeText (t : Text) : t.length ≤ (escapeText t).length := by
  induction t with
  | nil => exact Nat.le_refl _
  | cons c t ih =>
    have hchar : escapeTextChar c ≠ [] := by
      unfold escapeTextChar
      split <;> exact List.cons_ne_nil _ _
    have := List.length_pos_of_ne_nil hchar
    rw [escapeText_cons, List.length_append, List.length_cons]
    omega

/-- Any other name is written differently. -/
theorem isUnescaped_of_escapeText_eq (h : escapeText t = t) : ∀ c ∈ t, IsUnescaped c := by
  induction t with
  | nil => exact List.forall_mem_nil _
  | cons c t ih =>
    have hle := length_le_escapeText t
    rw [escapeText_cons] at h
    by_cases hc : IsUnescaped c
    · rw [escapeTextChar_of_isUnescaped hc] at h
      exact List.forall_mem_cons.2 ⟨hc, ih (List.cons.inj h).2⟩
    · -- a reference takes more room than its character
      have hlength := congrArg List.length h
      rw [List.length_append, List.length_cons] at hlength
      have hlong : 1 < (escapeTextChar c).length := by
        unfold IsUnescaped at hc
        unfold escapeTextChar
        split
        case h_4 hamp hopen hclose => exact absurd ⟨hamp, hopen, hclose⟩ hc
        all_goals decide
      omega

/-! #### Blanks -/

theorem escapeTextChar_of_isBlank (h : isBlank c = true) : escapeTextChar c = [c] := by
  refine escapeTextChar_of_isUnescaped ⟨?_, ?_, ?_⟩
  all_goals
    rintro rfl
    exact absurd h (by decide)

/-- The two ends of a reference are no blanks. -/
theorem exists_escapeTextChar (h : isBlank c = false) :
    (∃ first t, escapeTextChar c = first :: t ∧ isBlank first = false) ∧
      ∃ t last, escapeTextChar c = t ++ [last] ∧ isBlank last = false := by
  unfold escapeTextChar
  split
  case h_1 => exact ⟨⟨'&', "amp;", rfl, by decide⟩, "&amp", ';', rfl, by decide⟩
  case h_2 => exact ⟨⟨'&', "lt;", rfl, by decide⟩, "&lt", ';', rfl, by decide⟩
  case h_3 => exact ⟨⟨'&', "gt;", rfl, by decide⟩, "&gt", ';', rfl, by decide⟩
  case h_4 => exact ⟨⟨c, [], rfl, h⟩, [], c, rfl, h⟩

theorem trimStart_cons_eq_ite (c : Char) (t : Text) :
    Text.trimStart (c :: t) = if isBlank c then Text.trimStart t else c :: t := by
  rw [Text.trimStart, List.dropWhile_cons, Text.trimStart]

theorem trimEnd_append_singleton (t : Text) (c : Char) :
    Text.trimEnd (t ++ [c]) = if isBlank c then Text.trimEnd t else t ++ [c] := by
  rw [Text.trimEnd, List.reverse_append, List.reverse_singleton, List.singleton_append,
    List.dropWhile_cons, Text.trimEnd]
  split
  · rfl
  · rw [List.reverse_cons, List.reverse_reverse]

theorem trimStart_escapeText (t : Text) :
    Text.trimStart (escapeText t) = escapeText (Text.trimStart t) := by
  induction t with
  | nil => rfl
  | cons c t ih =>
    rw [trimStart_cons_eq_ite, escapeText_cons]
    cases hc : isBlank c with
    | true =>
      rw [escapeTextChar_of_isBlank hc, List.singleton_append, trimStart_cons_eq_ite, hc,
        if_pos rfl, if_pos rfl, ih]
    | false =>
      obtain ⟨⟨first, rest, hfirst, hblank⟩, -⟩ := exists_escapeTextChar hc
      rw [if_neg Bool.false_ne_true, escapeText_cons, hfirst, List.cons_append,
        trimStart_cons_eq_ite, hblank, if_neg Bool.false_ne_true]

theorem trimEnd_escapeText (t : Text) :
    Text.trimEnd (escapeText t) = escapeText (Text.trimEnd t) := by
  induction t using List.reverseRecOn with
  | nil => rfl
  | append_singleton t c ih =>
    rw [trimEnd_append_singleton]
    cases hc : isBlank c with
    | true =>
      rw [if_pos rfl, escapeText_append, escapeText_singleton, escapeTextChar_of_isBlank hc,
        trimEnd_append_singleton, hc, if_pos rfl, ih]
    | false =>
      obtain ⟨-, rest, last, hlast, hblank⟩ := exists_escapeTextChar hc
      rw [if_neg Bool.false_ne_true, escapeText_append, escapeText_singleton, hlast,
        ← List.append_assoc, trimEnd_append_singleton, hblank, if_neg Bool.false_ne_true]

/-- Escaping **keeps the blanks at the ends**. -/
theorem trim_escapeText (t : Text) : Text.trim (escapeText t) = escapeText (Text.trim t) := by
  rw [Text.trim, trimStart_escapeText, trimEnd_escapeText, Text.trim]

/-- A character that no reference holds is in an escaped text **if it is in the text**. -/
theorem not_mem_escapeText (href : c ∉ ("&amp;&lt;&gt;" : Text)) (hc : c ∉ t) :
    c ∉ escapeText t := by
  rw [escapeText, List.mem_flatMap]
  rintro ⟨a, ha, hmem⟩
  unfold escapeTextChar at hmem
  split at hmem
  case h_4 => exact hc (List.mem_singleton.1 hmem ▸ ha)
  all_goals exact href (List.Sublist.subset (by decide) hmem)

theorem bracket_not_mem_escapeText (t : Text) : '<' ∉ escapeText t ∧ '>' ∉ escapeText t := by
  have hchar (c : Char) : '<' ∉ escapeTextChar c ∧ '>' ∉ escapeTextChar c := by
    unfold escapeTextChar
    split
    case h_4 hopen hclose => exact ⟨by simpa using Ne.symm hopen, by simpa using Ne.symm hclose⟩
    all_goals decide
  constructor
  all_goals
    rw [escapeText, List.mem_flatMap]
    rintro ⟨c, -, hc⟩
  · exact (hchar c).1 hc
  · exact (hchar c).2 hc

/-! ### Placeholders in a text element -/

/-- The scan of a **text element that holds a token** and nothing else. -/
theorem segments_tokenText (hd : convention.delimiters? = some d) (hne : inner ≠ [])
    (hinner : ∀ c ∈ inner, c ∉ d.excluded) :
    segments d.token ("<w:t>" ++ (d.tokenText inner ++ "</w:t>")) =
      ("<w:t>" : Text).map .plain ++ .hit (d.tokenText inner) :: ("</w:t>" : Text).map .plain := by
  have hstart : convention.IsLiteral "<w:t>" := by cases convention <;> decide +kernel
  have hend : convention.IsLiteral "</w:t>" := by cases convention <;> decide +kernel
  generalize ("<w:t>" : Text) = start at hstart ⊢
  generalize ("</w:t>" : Text) = stop at hend ⊢
  have htoken : ∀ p ∈ [(inner, stop)], p.1 ≠ [] ∧ ∀ c ∈ p.1, c ∉ d.excluded :=
    List.forall_mem_singleton.2 ⟨hne, hinner⟩
  have hscan := segments_row hd hstart htoken (List.forall_mem_singleton.2 hend)
  rwa [List.flatMap_singleton, List.flatMap_singleton] at hscan

theorem matchesIn_tokenText (hd : convention.delimiters? = some d) (hne : inner ≠ [])
    (hinner : ∀ c ∈ inner, c ∉ d.excluded) :
    matchesIn d.token ("<w:t>" ++ (d.tokenText inner ++ "</w:t>")) = [d.tokenText inner] := by
  rw [matchesIn, segments_tokenText hd hne hinner]
  rfl

/-- A **token that is alone in its text element** gives way to what is looked up for its name. -/
theorem substitute_tokenText (hd : convention.delimiters? = some d) (hne : inner ≠ [])
    (hinner : ∀ c ∈ inner, c ∉ d.excluded) :
    substitute convention s ("<w:t>" ++ (d.tokenText inner ++ "</w:t>")) =
      "<w:t>" ++ ((s.lookup (Text.trim inner)).getD [] ++ "</w:t>") := by
  unfold substitute
  rw [hd]
  dsimp only
  rw [substituteTokens, rewriteMatches, segments_tokenText hd hne hinner]
  simp only [List.flatMap_append, List.flatMap_cons, List.flatMap_map, List.flatMap_singleton',
    Delimiters.tokenName_tokenText]

/-- A **bare name that is alone in its text element** gives way to its value, whatever other names
the table has. -/
theorem substitute_bareName (hname : name ≠ []) (h : s.lookup name = some value) :
    substitute .bare s ("<w:t>" ++ (escapeText name ++ "</w:t>")) =
      "<w:t>" ++ (value ++ "</w:t>") := by
  have htag : IsTag "<w:t>" := ⟨"w:t", rfl, by decide⟩
  have hend : IsTag "</w:t>" := ⟨"/w:t", rfl, by decide⟩
  generalize ("<w:t>" : Text) = start at htag ⊢
  generalize ("</w:t>" : Text) = stop at hend ⊢
  -- the form of the whole name begins the run, and no longer one does
  have hlongest : s.LongestForm (escapeText name ++ []) (escapeText name) value := by
    refine ⟨⟨name, ⟨hname, .inl rfl⟩, Substitutions.lookup_eq_some_iff.1 h⟩,
      List.prefix_append _ _, fun other _ _ hbegins => ?_⟩
    rw [List.append_nil] at hbegins
    exact hbegins.length_le
  have hnil : substituteData (formsInOrder s) [] = [] := by rw [substituteData]
  have hdata : substituteData (formsInOrder s) (escapeText name) = value := by
    have hname := substituteData_name hlongest
    rwa [List.append_nil, hnil, List.append_nil] at hname
  have hrest := substitute_bare_append_tag (s := s) (bracket_not_mem_escapeText name).1 hend []
  have hwhole := substitute_bare_append_tag (s := s) List.not_mem_nil htag
    (escapeText name ++ (stop ++ []))
  rw [hrest, hdata, hnil, substitute_bare_of_data List.not_mem_nil, hnil, List.append_nil,
    List.nil_append, List.nil_append] at hwhole
  exact hwhole

/-! ### Accepted names -/

/-- Dropping the matches makes a text **no longer**. -/
theorem length_rewriteMatches_le (m : Matcher) (t : Text) :
    (rewriteMatches m (fun _ => []) t).length ≤ t.length := by
  have htext := congrArg List.length (flatMap_text_segments m t)
  rw [← htext, rewriteMatches]
  induction segments m t with
  | nil => exact Nat.le_refl _
  | cons segment rest ih =>
    rw [List.flatMap_cons, List.flatMap_cons, List.length_append, List.length_append]
    cases segment with
    | plain c => exact Nat.add_le_add_left ih _
    | hit piece => exact Nat.add_le_add (Nat.zero_le _) ih

/-- A name that **no token of its own fragment holds** is not accepted. -/
theorem not_accepts_of_tokenName_ne (hd : convention.delimiters? = some d)
    (h : ∀ token ∈ matchesIn d.token (convention.nameFragment name), d.tokenName token ≠ name) :
    ¬ convention.Accepts name := by
  intro haccepts
  -- with no value for their names the tokens are dropped: the result is shorter than a long value
  have hlookup : Substitutions.lookup ⟨[], [(name, convention.nameFragment name)]⟩ name =
      some (convention.nameFragment name) := by
    rw [Substitutions.lookup, List.nil_append, List.lookup_cons, beq_self_eq_true]
  have hresult := haccepts _ _ hlookup
  have hdropped : substitute convention ⟨[], [(name, convention.nameFragment name)]⟩
      (convention.nameFragment name) =
        rewriteMatches d.token (fun _ => []) (convention.nameFragment name) := by
    unfold substitute
    rw [hd]
    refine rewriteMatches_congr fun token htoken => ?_
    have hne : (d.tokenName token == name) = false := beq_eq_false_iff_ne.2 (h token htoken)
    rw [Substitutions.lookup, List.nil_append, List.lookup_cons, hne, List.lookup_nil,
      Option.getD_none]
  have hle := length_rewriteMatches_le d.token (convention.nameFragment name)
  rw [← hdropped, hresult, List.length_append, List.length_append] at hle
  have hpos : 0 < ("<w:t>" : Text).length := by decide
  omega

/-- Between delimiters a name is accepted **if its escaped form may stand there and is the name
itself**. -/
theorem accepts_of_isUnescaped (hname : IsFieldName name) (hd : convention.delimiters? = some d)
    (h : ∀ c ∈ name, IsUnescaped c) : convention.Accepts name := by
  -- What is excluded are braces, which no field name holds, and characters that would be escaped.
  have hinner : ∀ c ∈ name, c ∉ d.excluded := by
    intro c hc hmem
    obtain ⟨hamp, hopen, hclose⟩ := h c hc
    cases convention with
    | braces =>
      cases hd
      simp only [List.mem_cons, List.not_mem_nil, or_false] at hmem
      rcases hmem with rfl | rfl | rfl | rfl
      · exact hname.opening_not_mem hc
      · exact hname.closing_not_mem hc
      · exact hopen rfl
      · exact hclose rfl
    | angles =>
      cases hd
      simp only [List.mem_cons, List.not_mem_nil, or_false] at hmem
      exact hmem.elim hamp fun hmem => hmem.elim hopen hclose
    | bare => cases hd
  intro s value hvalue
  rw [PlaceholderConvention.nameFragment_eq hd, escapeText_of_isUnescaped h,
    substitute_tokenText hd hname.ne_nil hinner, hname.trim_eq, hvalue, Option.getD_some]

/-- If the escaped form of a name may stand between the delimiters, the name is looked up **in that
form**. -/
theorem not_accepts_of_escapeText_ne (hname : IsFieldName name)
    (hd : convention.delimiters? = some d)
    (hescaped : ∀ c ∈ escapeText name, c ∉ d.excluded) (h : escapeText name ≠ name) :
    ¬ convention.Accepts name := by
  refine not_accepts_of_tokenName_ne hd fun token htoken heq => h ?_
  rw [PlaceholderConvention.nameFragment_eq hd,
    matchesIn_tokenText hd (escapeText_ne_nil hname.ne_nil) hescaped] at htoken
  rw [List.mem_singleton.1 htoken, Delimiters.tokenName_tokenText, trim_escapeText,
    hname.trim_eq] at heq
  exact heq

/-- In braces it may stand there. -/
theorem not_accepts_braces (hname : IsFieldName name) (h : ¬ ∀ c ∈ name, IsUnescaped c) :
    ¬ PlaceholderConvention.braces.Accepts name := by
  refine not_accepts_of_escapeText_ne hname rfl (fun c hc hmem => ?_)
    fun heq => h (isUnescaped_of_escapeText_eq heq)
  simp only [List.mem_cons, List.not_mem_nil, or_false] at hmem
  rcases hmem with rfl | rfl | rfl | rfl
  · exact not_mem_escapeText (by decide) hname.opening_not_mem hc
  · exact not_mem_escapeText (by decide) hname.closing_not_mem hc
  · exact (bracket_not_mem_escapeText name).1 hc
  · exact (bracket_not_mem_escapeText name).2 hc

/-- In angle brackets any other name is in **no token at all**, for its escaped form holds an
ampersand. -/
theorem not_accepts_angles (h : ¬ ∀ c ∈ name, IsUnescaped c) :
    ¬ PlaceholderConvention.angles.Accepts name := by
  refine not_accepts_of_tokenName_ne rfl fun token htoken heq => h ?_
  obtain ⟨inner, rfl, -, hinner⟩ := Delimiters.exists_of_mem_matchesIn_token htoken
  rw [Delimiters.tokenName_tokenText] at heq
  subst heq
  -- a character in need of escaping is no blank, and so it would be in the token
  have hfree {a : Char} (hblank : isBlank a = false) (ha : a ∈ ['&', '<', '>']) :
      a ∉ Text.trim inner :=
    fun hmem => hinner a ((mem_trim_iff hblank).1 hmem) ha
  intro c hc
  refine ⟨?_, ?_, ?_⟩
  all_goals
    rintro rfl
    exact hfree (by decide) (by decide) hc

/-- **The names that a convention accepts.** Bare names are accepted whatever characters they hold.
Between delimiters a name is accepted if and only if none of its characters is escaped in markup. -/
theorem accepts_iff (hname : IsFieldName name) (convention : PlaceholderConvention) :
    convention.Accepts name ↔ convention = .bare ∨ ∀ c ∈ name, IsUnescaped c := by
  constructor
  · intro haccepts
    refine Classical.or_iff_not_imp_right.2 fun h => ?_
    cases convention with
    | braces => exact absurd haccepts (not_accepts_braces hname h)
    | angles => exact absurd haccepts (not_accepts_angles h)
    | bare => rfl
  · intro h
    cases hd : convention.delimiters? with
    | none =>
      obtain rfl : convention = .bare := by cases convention <;> first | rfl | cases hd
      exact fun s value hvalue => substitute_bareName hname.ne_nil hvalue
    | some d =>
      refine accepts_of_isUnescaped hname hd (h.resolve_left ?_)
      rintro rfl
      cases hd

theorem isFieldName_ampersand : IsFieldName "A & B" :=
  ⟨by decide, by decide, by decide, by decide⟩

/-- A name with an ampersand is accepted as a **bare name only**. -/
theorem accepts_ampersand_iff : IsFieldName "A & B" ∧
    PlaceholderConvention.bare.Accepts "A & B" ∧ ¬ PlaceholderConvention.braces.Accepts "A & B" ∧
      ¬ PlaceholderConvention.angles.Accepts "A & B" := by
  have hescaped : ¬ ∀ c ∈ ("A & B" : Text), IsUnescaped c := fun h => (h '&' (by decide)).1 rfl
  refine ⟨isFieldName_ampersand, (accepts_iff isFieldName_ampersand _).2 (.inl rfl), ?_, ?_⟩
  · intro haccepts
    rcases (accepts_iff isFieldName_ampersand _).1 haccepts with h | h
    · cases h
    · exact hescaped h
  · intro haccepts
    rcases (accepts_iff isFieldName_ampersand _).1 haccepts with h | h
    · cases h
    · exact hescaped h

/-- In braces the placeholder of such a name **becomes empty**, although the table has a value for
it. -/
theorem braces_lose_ampersand : IsFieldName "A & B" ∧
    Substitutions.lookup ⟨[], [("A & B", "v")]⟩ "A & B" = some "v" ∧
      PlaceholderConvention.braces.nameFragment "A & B" = "<w:t>\x7b\x7bA &amp; B\x7d\x7d</w:t>" ∧
      substitute .braces ⟨[], [("A & B", "v")]⟩
        (PlaceholderConvention.braces.nameFragment "A & B") =
        "<w:t></w:t>" :=
  ⟨isFieldName_ampersand, by decide +kernel⟩

end MailMerge
