import MailMerge.Placeholder.Substitute
import MailMerge.Proofs.CutTokens
import MailMerge.Proofs.TokenMatch

/-!
# Rows of tokens

A text between whose literals stand tokens is a row of tokens. Substituting puts the value of its
name in place of each token and leaves the literals as they are, and the scan for names lists the
names of the tokens.

Where a token stands is told from the first character of its opening delimiter. A literal may hold
that character, and even all of the delimiter but its end, with the next token close behind: `&l`
before `&lt;&lt;`. What keeps a match from beginning in the literal is that the first character of
the delimiter comes no second time in the spelling of a bracket, so that no token goes on where the
literal leaves off. Once the row is cut into its literals and tokens, both results are read off.

* `TokenRow` is a row of tokens as it is written, and `TokenRow.filled` what is asked of the result;
* `not_prefix_append_of_not_infix` — nothing begins in a literal;
* `TokenRow.segments_text` — the row is cut into its literals and its tokens;
* `FirstAppearances` says that names are listed once each in the order of their first appearance;
* `TokenRow.substitute_and_scan` — what substituting and scanning make of a row.
-/

namespace MailMerge

/-! ### The specification -/

/-- A **token as it is written**: a name with blanks around it, to stand between delimiters. -/
structure WrittenToken where
  before : Text
  name : Text
  after : Text
  deriving DecidableEq, Repr

/-- What stands between the delimiters of a token. -/
def WrittenToken.inner (token : WrittenToken) : Text := token.before ++ token.name ++ token.after

/-- The text of a token. -/
def WrittenToken.text (d : Delimiters) (token : WrittenToken) : Text := d.tokenText token.inner

/-- What is asked of a token: its **name has no blanks at its ends**, is not empty, and holds no
character that may not stand between the delimiters. -/
structure WrittenToken.IsProper (d : Delimiters) (token : WrittenToken) : Prop where
  before : ∀ c ∈ token.before, isBlank c = true
  after : ∀ c ∈ token.after, isBlank c = true
  ne_nil : token.name ≠ []
  trim_eq : Text.trim token.name = token.name
  name : ∀ c ∈ token.name, c ∉ d.excluded

/-- A **literal** holds neither of the brackets that delimiters are made of. -/
def PlaceholderConvention.IsLiteral (convention : PlaceholderConvention) (t : Text) : Prop :=
  ∀ spelling ∈ convention.delimiterSpellings, ¬ spelling <:+: t

instance (convention : PlaceholderConvention) (t : Text) : Decidable (convention.IsLiteral t) :=
  inferInstanceAs (Decidable (∀ spelling ∈ _, _))

/-- A **row of tokens**: a literal, and tokens with a literal behind each. -/
structure TokenRow where
  first : Text
  rest : List (WrittenToken × Text)
  deriving DecidableEq, Repr

/-- The **value of a name**: that of a structural entry, else of an ordinary one, else nothing. -/
def Substitutions.valueOf (s : Substitutions) (name : Text) : Text :=
  match s.structural.lookup name with
  | some value => value
  | none => (s.ordinary.lookup name).getD []

namespace TokenRow

/-- The text of a row. -/
def text (d : Delimiters) (row : TokenRow) : Text :=
  row.first ++ row.rest.flatMap fun p => p.1.text d ++ p.2

/-- A row **with the values of its names** in place of its tokens. -/
def filled (s : Substitutions) (row : TokenRow) : Text :=
  row.first ++ row.rest.flatMap fun p => s.valueOf p.1.name ++ p.2

/-- The names of the tokens, one after the other. -/
def names (row : TokenRow) : List Text := row.rest.map fun p => p.1.name

/-- A row of **literals and tokens of a convention**. -/
structure IsProper (convention : PlaceholderConvention) (d : Delimiters) (row : TokenRow) :
    Prop where
  first : convention.IsLiteral row.first
  token : ∀ p ∈ row.rest, p.1.IsProper d
  literal : ∀ p ∈ row.rest, convention.IsLiteral p.2

end TokenRow

/-- Whether a list has the **names of another one once each**, in the order of their first
appearance there. -/
structure FirstAppearances (names listed : List Text) : Prop where
  mem_iff : ∀ name, name ∈ listed ↔ name ∈ names
  order : listed.Pairwise fun m n => names.idxOf m < names.idxOf n

variable {convention : PlaceholderConvention} {d : Delimiters} {s : Substitutions}
  {names listed seen : List Text} {name needle t u : Text} {c : Char} {token : WrittenToken}
  {row : TokenRow}

/-! ### First appearances -/

/-- There is **one such list** at most. -/
theorem FirstAppearances.unique {listed' : List Text} (h : FirstAppearances names listed)
    (h' : FirstAppearances names listed') : listed = listed' := by
  have hnodup {listed : List Text} (h : FirstAppearances names listed) : listed.Nodup :=
    h.order.imp fun {m n} hlt => by
      rintro rfl
      exact Nat.lt_irrefl _ hlt
  have hperm := (List.perm_ext_iff_of_nodup (hnodup h) (hnodup h')).2 fun name =>
    (h.mem_iff name).trans (h'.mem_iff name).symm
  refine hperm.eq_of_pairwise (fun m n _ _ hmn hnm => ?_) h.order h'.order
  exact absurd hmn (Nat.lt_asymm hnm)

theorem mem_firstOccurrences (seen names : List Text) :
    name ∈ firstOccurrences seen names ↔ name ∈ names ∧ name ∉ seen := by
  induction names generalizing seen with
  | nil => simp [firstOccurrences]
  | cons first names ih =>
    rw [firstOccurrences]
    split
    case isTrue hseen =>
      -- a name that was there before is not the one looked for, if that was not
      rw [List.contains_eq_mem, decide_eq_true_iff] at hseen
      rw [ih, List.mem_cons]
      refine ⟨fun ⟨hmem, hnot⟩ => ⟨.inr hmem, hnot⟩, fun ⟨hmem, hnot⟩ => ⟨?_, hnot⟩⟩
      exact hmem.resolve_left fun heq => hnot (heq ▸ hseen)
    case isFalse hseen =>
      rw [List.contains_eq_mem, decide_eq_true_iff] at hseen
      rw [List.mem_cons, ih, List.mem_cons, List.mem_cons, not_or]
      by_cases heq : name = first
      · simp [heq, hseen]
      · simp [heq]

/-- What is kept of a list **stays in the order** in which it first appears. -/
theorem pairwise_firstOccurrences (seen names : List Text) :
    (firstOccurrences seen names).Pairwise fun m n => names.idxOf m < names.idxOf n := by
  induction names generalizing seen with
  | nil => exact List.Pairwise.nil
  | cons first names ih =>
    -- names other than the first one stand one place further back
    have hlater {name : Text} (h : name ≠ first) :
        (first :: names).idxOf name = names.idxOf name + 1 := List.idxOf_cons_ne _ h.symm
    have hrest {seen : List Text} (h : first ∈ seen) : (firstOccurrences seen names).Pairwise
        fun m n => (first :: names).idxOf m < (first :: names).idxOf n := by
      refine (ih seen).imp_of_mem fun {m n} hm hn hlt => ?_
      have hother {name : Text} (hname : name ∈ firstOccurrences seen names) : name ≠ first :=
        fun heq => ((mem_firstOccurrences seen names).1 hname).2 (heq ▸ h)
      rw [hlater (hother hm), hlater (hother hn)]
      exact Nat.succ_lt_succ hlt
    rw [firstOccurrences]
    split
    case isTrue hseen => exact hrest (by simpa using hseen)
    case isFalse =>
      refine List.pairwise_cons.2 ⟨fun n hn => ?_, hrest (List.mem_cons_self ..)⟩
      have hn := ((mem_firstOccurrences _ names).1 hn).2
      rw [List.idxOf_cons_self, hlater fun heq => hn (heq ▸ List.mem_cons_self ..)]
      exact Nat.succ_pos _

theorem firstAppearances_firstOccurrences (names : List Text) :
    FirstAppearances names (firstOccurrences [] names) where
  mem_iff name := by
    rw [mem_firstOccurrences]
    exact and_iff_left List.not_mem_nil
  order := pairwise_firstOccurrences [] names

/-! ### Names with blanks around them -/

/-- Trimming **takes the blanks** around a name, and leaves the name. -/
theorem trim_append {before after : Text} (hbefore : ∀ c ∈ before, isBlank c = true)
    (hafter : ∀ c ∈ after, isBlank c = true) (hne : name ≠ []) (hname : Text.trim name = name) :
    Text.trim (before ++ name ++ after) = name := by
  -- a name that nothing is taken from at all loses nothing at its start
  have hstart : name.dropWhile isBlank = name := by
    refine (List.dropWhile_suffix isBlank).eq_of_length_le ?_
    have hlength := congrArg List.length hname
    rw [Text.trim, Text.trimEnd, List.length_reverse, Text.trimStart] at hlength
    have hle := (List.dropWhile_suffix (l := (name.dropWhile isBlank).reverse) isBlank).length_le
    rw [List.length_reverse] at hle
    omega
  have hend : Text.trimEnd name = name := by rwa [Text.trim, Text.trimStart, hstart] at hname
  rw [Text.trim, Text.trimStart, List.append_assoc, List.dropWhile_append_of_pos hbefore,
    List.dropWhile_append, hstart, if_neg (by simpa using hne), Text.trimEnd, List.reverse_append,
    List.dropWhile_append_of_pos fun c hc => hafter c (List.mem_reverse.1 hc)]
  exact hend

namespace WrittenToken.IsProper

theorem trim_inner (h : token.IsProper d) : Text.trim token.inner = token.name :=
  trim_append h.before h.after h.ne_nil h.trim_eq

theorem inner_ne_nil (h : token.IsProper d) : token.inner ≠ [] :=
  List.append_ne_nil_of_left_ne_nil (List.append_ne_nil_of_right_ne_nil _ h.ne_nil) _

/-- Blanks **may stand between delimiters**, as well as the name. -/
theorem inner_not_excluded (h : token.IsProper d) (hd : convention.delimiters? = some d) :
    ∀ c ∈ token.inner, c ∉ d.excluded := by
  have hblank {c : Char} (hc : isBlank c = true) : c ∉ d.excluded := by
    intro hmem
    cases convention with
    | braces =>
      cases hd
      simp only [List.mem_cons, List.not_mem_nil, or_false] at hmem
      rcases hmem with rfl | rfl | rfl | rfl <;> exact absurd hc (by decide)
    | angles =>
      cases hd
      simp only [List.mem_cons, List.not_mem_nil, or_false] at hmem
      rcases hmem with rfl | rfl | rfl <;> exact absurd hc (by decide)
    | bare => cases hd
  intro c hc
  rcases List.mem_append.1 hc with hc | hc
  · rcases List.mem_append.1 hc with hc | hc
    · exact hblank (h.before c hc)
    · exact h.name c hc
  · exact hblank (h.after c hc)

end WrittenToken.IsProper

/-! ### Literals -/

/-- A text begins in no piece that does not hold it, if what follows the piece **does not go on as
the text does**. -/
theorem not_prefix_append_of_not_infix (hu : ¬ c :: needle <:+: u) (ht : ∀ a ∈ t.head?, a ∉ needle)
    {v : Text} (hne : v ≠ []) (hv : v <:+ u) : ¬ c :: needle <+: v ++ t := by
  rintro ⟨rest, hrest⟩
  rcases List.append_eq_append_iff.1 hrest with ⟨w, rfl, -⟩ | ⟨w, hneedle, rfl⟩
  · exact hu ((List.prefix_append _ w).isInfix.trans hv.isInfix)
  · cases w with
    | nil =>
      rw [List.append_nil] at hneedle
      exact hu (hneedle ▸ hv.isInfix)
    | cons a w =>
      obtain ⟨b, v, rfl⟩ := List.exists_cons_of_ne_nil hne
      obtain ⟨rfl, rfl⟩ := List.cons.inj hneedle
      exact ht a rfl (List.mem_append_right _ (List.mem_cons_self ..))

/-- An opening delimiter is **a bracket twice**, and the spelling of the bracket has its first
character once. -/
theorem exists_bracket (hd : convention.delimiters? = some d) :
    ∃ c needle, c :: needle ∈ convention.delimiterSpellings ∧ c ∉ needle ∧
      d.opening = c :: needle ++ c :: needle := by
  cases convention with
  | braces => cases hd; exact ⟨'\x7b', [], by decide, by decide, rfl⟩
  | angles => cases hd; exact ⟨'&', ['l', 't', ';'], by decide, by decide, rfl⟩
  | bare => cases hd

/-- A literal is **passed over**, if nothing follows it or a token. -/
theorem segments_append_of_literal (hd : convention.delimiters? = some d)
    (hu : convention.IsLiteral u) (ht : t = [] ∨ d.opening <+: t) :
    segments d.token (u ++ t) = u.map .plain ++ segments d.token t := by
  refine segments_append_of_passed fun v hne hv => ?_
  obtain ⟨c, needle, hspelling, hc, hopening⟩ := exists_bracket hd
  have hhead : ∀ a ∈ t.head?, a ∉ needle := by
    rcases ht with rfl | ⟨rest, rfl⟩
    · exact fun a ha => nomatch ha
    · intro a ha
      rw [hopening] at ha
      obtain rfl := Option.some.inj ha
      exact hc
  have hnone : Text.dropPrefix? d.opening (v ++ t) = none := by
    rw [Option.eq_none_iff_forall_ne_some]
    intro rest hrest
    refine not_prefix_append_of_not_infix (hu _ hspelling) hhead hne hv ?_
    rw [Text.dropPrefix?_eq_some_iff.1 hrest, hopening, List.append_assoc]
    exact List.prefix_append _ _
  rw [Delimiters.token, hnone]

/-! ### The scan of a row -/

/-- A row is cut into **its literals**, character by character, **and its tokens**, whatever stands
between the delimiters of these. -/
theorem segments_row (hd : convention.delimiters? = some d) {first : Text}
    {rest : List (Text × Text)} (hfirst : convention.IsLiteral first)
    (hinner : ∀ p ∈ rest, p.1 ≠ [] ∧ ∀ c ∈ p.1, c ∉ d.excluded)
    (hliteral : ∀ p ∈ rest, convention.IsLiteral p.2) :
    segments d.token (first ++ rest.flatMap fun p => d.tokenText p.1 ++ p.2) =
      first.map .plain ++ rest.flatMap fun p => .hit (d.tokenText p.1) :: p.2.map .plain := by
  have hproper := Delimiters.proper_of_mem hd
  -- token after token, each with the literal behind it; the literal before it comes first
  induction rest generalizing first with
  | nil =>
    rw [List.flatMap_nil, List.flatMap_nil, segments_append_of_literal hd hfirst (.inl rfl),
      segments_nil]
  | cons p rest ih =>
    obtain ⟨⟨hne, hinner⟩, hinners⟩ := List.forall_mem_cons.1 hinner
    obtain ⟨hliteral, hliterals⟩ := List.forall_mem_cons.1 hliteral
    have hbegins (t : Text) : d.opening <+: d.tokenText p.1 ++ t := by
      rw [Delimiters.tokenText, List.append_assoc, List.append_assoc]
      exact List.prefix_append _ _
    rw [List.flatMap_cons, List.flatMap_cons, List.append_assoc,
      segments_append_of_literal hd hfirst (.inr (hbegins _)),
      segments_append_of_match (Delimiters.tokenText_ne_nil hproper _)
        (Delimiters.token_append hproper hne hinner _), ih hliteral hinners hliterals]
    rfl

namespace TokenRow

/-- A row of tokens and literals is cut **into these**. -/
theorem segments_text (hd : convention.delimiters? = some d) (h : row.IsProper convention d) :
    segments d.token (row.text d) = row.first.map .plain ++
      row.rest.flatMap fun p => .hit (p.1.text d) :: p.2.map .plain := by
  have hinner : ∀ q ∈ row.rest.map fun p => (p.1.inner, p.2),
      q.1 ≠ [] ∧ ∀ c ∈ q.1, c ∉ d.excluded :=
    List.forall_mem_map.2 fun p hp =>
      ⟨(h.token p hp).inner_ne_nil, (h.token p hp).inner_not_excluded hd⟩
  have hscan := segments_row hd h.first hinner (List.forall_mem_map.2 h.literal)
  rw [List.flatMap_map, List.flatMap_map] at hscan
  exact hscan

theorem tokenName_text (h : token.IsProper d) : d.tokenName (token.text d) = token.name := by
  rw [WrittenToken.text, Delimiters.tokenName_tokenText, h.trim_inner]

/-- The matches of the scan **are the tokens**. -/
theorem matchesIn_text (hd : convention.delimiters? = some d) (h : row.IsProper convention d) :
    matchesIn d.token (row.text d) = row.rest.map fun p => p.1.text d := by
  have htexts : (row.rest.flatMap fun p => [p.1.text d]) = row.rest.map fun p => p.1.text d :=
    (List.map_eq_flatMap ..).symm
  rw [matchesIn, segments_text hd h, List.filterMap_append, List.filterMap_flatMap]
  simpa [List.filterMap_map] using htexts

/-- Replacing the matches **replaces the tokens**, and keeps the literals. -/
theorem rewriteMatches_text (hd : convention.delimiters? = some d) (h : row.IsProper convention d)
    (f : Text → Text) : rewriteMatches d.token f (row.text d) =
      row.first ++ row.rest.flatMap fun p => f (p.1.text d) ++ p.2 := by
  rw [rewriteMatches, segments_text hd h]
  simp [List.flatMap_assoc, List.flatMap_map]

end TokenRow

/-- A name has the value **that looking it up gives**, and none stands for nothing. -/
theorem Substitutions.valueOf_eq (s : Substitutions) (name : Text) :
    s.valueOf name = (s.lookup name).getD [] := by
  rw [valueOf, lookup, List.lookup_append]
  cases s.structural.lookup name <;> rfl

/-- **A row of tokens is filled in one pass.** Substituting puts the value of its name in place of
each token and leaves the literals as they are, and scanning lists the names once each, in the order
of their first appearance. -/
theorem TokenRow.substitute_and_scan (hd : convention.delimiters? = some d)
    (h : row.IsProper convention d) (s : Substitutions) :
    substitute convention s (row.text d) = row.filled s ∧
      FirstAppearances row.names (scanPlaceholders convention (row.text d)) := by
  constructor
  · unfold substitute
    rw [hd]
    dsimp only
    rw [substituteTokens, rewriteMatches_text hd h, filled]
    refine congrArg (row.first ++ ·) (List.flatMap_congr fun p hp => ?_)
    rw [tokenName_text (h.token p hp), s.valueOf_eq]
  · have hnames : (matchesIn d.token (row.text d)).map d.tokenName = row.names := by
      rw [matchesIn_text hd h, List.map_map, names]
      exact List.map_congr_left fun p hp => tokenName_text (h.token p hp)
    unfold scanPlaceholders
    rw [hd]
    dsimp only
    rw [hnames]
    exact firstAppearances_firstOccurrences _

/-- A value that holds a token **stays as it is**, next to literals that end and begin like
brackets. -/
theorem substitute_and_scan_angles :
    let d : Delimiters := ⟨"&lt;&lt;", "&gt;&gt;", ['&', '<', '>']⟩
    let row : TokenRow :=
      ⟨"&l", [(⟨" ", "Name", ""⟩, ""), (⟨"", "Kl", " "⟩, "gt;&"), (⟨"", "Name", ""⟩, "")]⟩
    let s : Substitutions := ⟨[("Name", "&lt;&lt;Kl&gt;&gt;")], [("Name", "-")]⟩
    PlaceholderConvention.angles.delimiters? = some d ∧ row.IsProper .angles d ∧
      row.filled s = "&l&lt;&lt;Kl&gt;&gt;gt;&&lt;&lt;Kl&gt;&gt;" ∧
      substitute .angles s (row.text d) = row.filled s ∧
      FirstAppearances ["Name", "Kl", "Name"] (scanPlaceholders .angles (row.text d)) := by
  intro d row s
  have hproper : row.IsProper .angles d := by
    have htokens : ∀ p ∈ row.rest, p.1.IsProper d := by
      simp only [row, List.forall_mem_cons]
      refine ⟨?_, ?_, ?_, List.forall_mem_nil _⟩
      all_goals exact ⟨by decide, by decide, by decide, by decide, by decide⟩
    exact ⟨by decide, htokens, by decide⟩
  have hd : PlaceholderConvention.angles.delimiters? = some d := rfl
  obtain ⟨hfilled, hlisted⟩ := TokenRow.substitute_and_scan hd hproper s
  exact ⟨hd, hproper, by decide, hfilled, hlisted⟩

end MailMerge
