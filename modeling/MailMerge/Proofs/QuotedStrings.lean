import MailMerge.Toml.Printer
import MailMerge.Toml.Token

/-!
# Written strings are read back

A string of TOML is written in one of four forms. In two of them every character stands for itself, and
the form is only chosen for texts in which none has to be escaped; in the other two the escapes are
undone one by one. The forms over several lines end at three quotes, but up to two more quotes before
them belong to the text, so what has to be shown is that nowhere in a written text there are three quotes
in a row.

* `Escapes` says that a character is written as an escape, and `escapes_of_escapeOf?` that the escapes of
  the writer are understood;
* `ShortRun` bounds the run of quotes at the head of a text, and `lines?_escapedLines` and
  `literalLines?_append` read the forms over several lines;
* `string?_stringText` — a written string is read back, whatever its characters are.
-/

namespace MailMerge

theorem Toml.le_longestRun (c : Char) (current : Nat) (t : Text) : current ≤ longestRun c current t := by
  induction t generalizing current with
  | nil => exact Nat.le_refl current
  | cons d t ih =>
    rw [longestRun]
    split
    case isTrue => exact Nat.le_trans (Nat.le_succ current) (ih (current + 1))
    case isFalse => exact Nat.le_max_left ..

namespace TomlToken

variable {c q : Char} {t u rest : Text} {n : Nat}

@[simp] theorem before_some (c : Char) (t rest : Text) : before c (some (t, rest)) = some (c :: t, rest) := rfl

/-! ### Escapes -/

/-- Whether a text behind a backslash is the **escape** of a character. It does not begin with a blank or
a line end, so that it joins no lines. -/
structure Escapes (u : Text) (c : Char) : Prop where
  reads : ∀ rest, escape? (u ++ rest) = some (c, rest)
  joins : ∀ rest, continuation? (u ++ rest) = none

theorem escapes_of_shortEscape? {letter : Char} (h : shortEscape? letter = some c)
    (hletter : isGap letter = false ∧ letter ≠ '\n' ∧ letter ≠ '\r' ∧ letter ≠ 'u' ∧ letter ≠ 'U') :
    Escapes [letter] c := by
  obtain ⟨hgap, hfeed, hreturn, hu, hU⟩ := hletter
  constructor
  · -- the letter begins no escape by number
    intro rest
    unfold escape?
    split
    case h_1 heq => exact absurd (List.cons.inj heq).1 hu
    case h_2 heq => exact absurd (List.cons.inj heq).1 hU
    case h_3 heq =>
      obtain ⟨rfl, rfl⟩ := List.cons.inj heq
      rw [h]
      rfl
    case h_4 heq => cases heq
  · -- and it is no blank, so that the line does not go on behind it
    intro rest
    have hskip : skipGaps (letter :: rest) = letter :: rest :=
      List.dropWhile_cons_of_neg (by rw [hgap]; decide)
    unfold continuation?
    rw [List.singleton_append, hskip]
    split
    case h_1 heq => exact absurd (List.cons.inj heq).1 hfeed
    case h_2 heq => exact absurd (List.cons.inj heq).1 hreturn
    case h_3 => rfl

/-- The escape of a character that **needs its code**. -/
def codeEscape (c : Char) : Text :=
  ['u', '0', '0', (Nat.digitChar (c.toNat / 16)).toUpper, (Nat.digitChar (c.toNat % 16)).toUpper]

theorem lt_of_needsCode (h : Toml.needsCode c = true) : c.toNat < 128 := by
  rw [Toml.needsCode, Bool.or_eq_true, Bool.and_eq_true, Bool.and_eq_true] at h
  rcases h with ⟨⟨h, -⟩, -⟩ | h
  · rw [decide_eq_true_eq] at h
    omega
  · rw [beq_iff_eq] at h
    omega

theorem charOfCode?_codeEscape (h : Toml.needsCode c = true) :
    charOfCode? ((codeEscape c).drop 1) = some c := by
  -- only the first 128 characters could need their codes, and each of them is tried
  have hall : ∀ n < 128, Toml.needsCode (Char.ofNat n) = true →
      charOfCode? ((codeEscape (Char.ofNat n)).drop 1) = some (Char.ofNat n) := by
    decide +kernel
  have hc := hall c.toNat (lt_of_needsCode h)
  rw [Char.ofNat_toNat] at hc
  exact hc h

theorem escapes_codeEscape (h : Toml.needsCode c = true) : Escapes (codeEscape c) c := by
  constructor
  · intro rest
    have hcode := charOfCode?_codeEscape h
    generalize hdigits : (codeEscape c).drop 1 = digits at hcode
    have hlength : digits.length = 4 := by
      rw [← hdigits]
      rfl
    have hsplit : codeEscape c ++ rest = 'u' :: (digits ++ rest) := by
      rw [← hdigits]
      rfl
    rw [hsplit, escape?, List.take_left' hlength, List.drop_left' hlength, hcode, if_neg]
    · rfl
    · rw [List.length_append]
      omega
  · intro rest
    rfl

/-- An escape of the writer is **understood**. -/
theorem escapes_of_escapeOf? {e : Text} (h : Toml.escapeOf? c = some e) :
    ∃ u, e = '\\' :: u ∧ Escapes u c := by
  unfold Toml.escapeOf? at h
  dsimp only at h
  split at h
  case h_1 letter hlookup =>
    cases h
    obtain ⟨before, behind, hshort, -⟩ := List.lookup_eq_some_iff.1 hlookup
    have hmem : (c, letter) ∈ [('\x08', 'b'), ('\t', 't'), ('\n', 'n'), ('\x0c', 'f'), ('\r', 'r'),
        ('\\', '\\')] := by
      rw [hshort]
      exact List.mem_append_right _ (List.mem_cons_self ..)
    -- each letter stands for the character that it was chosen for
    have hall : ∀ p ∈ [('\x08', 'b'), ('\t', 't'), ('\n', 'n'), ('\x0c', 'f'), ('\r', 'r'),
        ('\\', '\\')], shortEscape? p.2 = some p.1 ∧
          (isGap p.2 = false ∧ p.2 ≠ '\n' ∧ p.2 ≠ '\r' ∧ p.2 ≠ 'u' ∧ p.2 ≠ 'U') := by
      decide
    obtain ⟨hread, hletter⟩ := hall _ hmem
    exact ⟨[letter], rfl, escapes_of_shortEscape? hread hletter⟩
  case h_2 =>
    split at h
    case isTrue hcode =>
      cases h
      exact ⟨codeEscape c, rfl, escapes_codeEscape hcode⟩
    case isFalse => cases h

/-- A character that needs no code **stands for itself** in a line. -/
theorem isPlain_of_needsCode (h : Toml.needsCode c = false) (hfeed : c ≠ '\n') : isPlain c = true := by
  rw [Toml.needsCode, Bool.or_eq_false_iff] at h
  obtain ⟨hlow, hdelete⟩ := h
  rw [isPlain, Bool.or_eq_true]
  by_cases htab : c = '\t'
  · exact .inl (beq_iff_eq.2 htab)
  · right
    rw [bne_iff_ne.2 htab, bne_iff_ne.2 hfeed, Bool.and_true, Bool.and_true, decide_eq_false_iff_not] at hlow
    rw [Bool.and_eq_true, decide_eq_true_eq, bne_iff_ne]
    exact ⟨Nat.le_of_not_lt hlow, beq_eq_false_iff_ne.1 hdelete⟩

/-- A character without an escape stands for itself, and is no backslash. -/
theorem of_escapeOf?_eq_none (h : Toml.escapeOf? c = none) :
    isPlain c = true ∧ c ≠ '\\' ∧ c ≠ '\n' := by
  unfold Toml.escapeOf? at h
  dsimp only at h
  split at h
  case h_1 => cases h
  case h_2 hlookup =>
    split at h
    case isTrue => cases h
    case isFalse hcode =>
      -- both characters are in the table of short escapes
      rw [List.lookup_eq_none_iff] at hlookup
      have hfeed : c ≠ '\n' := by
        have := hlookup ('\n', 'n') (by decide)
        simpa using this
      have hslash : c ≠ '\\' := by
        have := hlookup ('\\', '\\') (by decide)
        simpa using this
      exact ⟨isPlain_of_needsCode (Bool.eq_false_iff.2 hcode) hfeed, hslash, hfeed⟩

theorem ne_return_of_isPlain (h : isPlain c = true) : c ≠ '\r' := by
  rintro rfl
  cases h

/-! ### Strings on one line -/

theorem basic?_quote (t : Text) : basic? ('"' :: t) = some ([], t) := by rw [basic?]

theorem basic?_escape (h : Escapes u c) (t : Text) :
    basic? ('\\' :: (u ++ t)) = before c (basic? t) := by
  rw [basic?]
  split
  case h_1 d r heq =>
    rw [h.reads] at heq
    cases heq
    rfl
  case h_2 heq =>
    rw [h.reads] at heq
    cases heq

theorem basic?_plain (h : isPlain c = true) (hquote : c ≠ '"') (hslash : c ≠ '\\') (t : Text) :
    basic? (c :: t) = before c (basic? t) := by
  rw [basic?, if_pos h]
  · exact hquote
  · exact hslash

/-- A string with escapes **is read back** up to the quote behind it. -/
theorem basic?_escaped (t rest : Text) : basic? (Toml.escaped t ++ '"' :: rest) = some (t, rest) := by
  induction t with
  | nil => exact basic?_quote rest
  | cons c t ih =>
    rw [Toml.escaped, List.flatMap_cons, ← Toml.escaped, List.append_assoc]
    split
    case isTrue hquote =>
      subst hquote
      have hescape : Escapes ['"'] '"' := escapes_of_shortEscape? rfl (by decide)
      refine (basic?_escape hescape _).trans ?_
      exact congrArg (before '"') ih
    case isFalse hquote =>
      cases he : Toml.escapeOf? c with
      | some e =>
        obtain ⟨u, rfl, hescape⟩ := escapes_of_escapeOf? he
        refine (basic?_escape hescape _).trans ?_
        exact congrArg (before c) ih
      | none =>
        obtain ⟨hplain, hslash, -⟩ := of_escapeOf?_eq_none he
        refine (basic?_plain hplain hquote hslash _).trans ?_
        exact congrArg (before c) ih

/-- A text of characters that stand for themselves **is read back** up to the quote behind it. -/
theorem literal?_append (h : ∀ c ∈ t, isPlain c = true ∧ c ≠ '\'') (rest : Text) :
    literal? (t ++ '\'' :: rest) = some (t, rest) := by
  induction t with
  | nil => rfl
  | cons c t ih =>
    obtain ⟨⟨hplain, hquote⟩, ht⟩ := List.forall_mem_cons.1 h
    rw [List.cons_append, literal?, if_neg hquote, if_pos hplain, ih ht, before_some]

/-! ### Runs of quotes -/

/-- Whether the run of a character at the head of a written text is **no longer than a bound**: it is the
whole text, which stands for itself, or it ends inside what was written. -/
def ShortRun (q : Char) (n : Nat) (written t : Text) : Prop :=
  (written = t ∧ t = List.replicate t.length q ∧ t.length ≤ n) ∨
    ∀ rest, ((written ++ rest).takeWhile (· == q)).length ≤ n

theorem ShortRun.mono {m : Nat} (h : ShortRun q n u t) (hle : n ≤ m) : ShortRun q m u t := by
  rcases h with ⟨hsame, hu, hlength⟩ | hrun
  · exact .inl ⟨hsame, hu, Nat.le_trans hlength hle⟩
  · exact .inr fun rest => Nat.le_trans (hrun rest) hle

theorem shortRun_nil (q : Char) (n : Nat) : ShortRun q n [] [] := .inl ⟨rfl, rfl, Nat.zero_le n⟩

theorem shortRun_cons_self (h : ShortRun q n u t) : ShortRun q (n + 1) (q :: u) (q :: t) := by
  rcases h with ⟨rfl, hu, hlength⟩ | hrun
  · left
    rw [List.length_cons, List.replicate_succ, ← hu]
    exact ⟨rfl, rfl, Nat.succ_le_succ hlength⟩
  · right
    intro rest
    rw [List.cons_append, List.takeWhile_cons, if_pos (beq_self_eq_true q), List.length_cons]
    exact Nat.succ_le_succ (hrun rest)

theorem shortRun_cons_of_ne (h : c ≠ q) (n : Nat) (u t : Text) : ShortRun q n (c :: u) t := by
  right
  intro rest
  have hne : ¬ (c == q) = true := by
    rw [beq_iff_eq]
    exact h
  rw [List.cons_append, List.takeWhile_cons, if_neg hne]
  exact Nat.zero_le n

/-- Three quotes end a string, and up to two quotes before them **belong to it**. -/
theorem closing?_replicate (hn : n ≤ 2) (hrest : rest.head? ≠ some q) :
    closing? q (List.replicate n q ++ q :: q :: q :: rest) = some (List.replicate n q, rest) := by
  have hnil : rest.takeWhile (· == q) = [] := by
    cases rest with
    | nil => rfl
    | cons c rest =>
      refine List.takeWhile_cons_of_neg ?_
      rw [beq_iff_eq]
      rintro rfl
      exact hrest rfl
  -- all quotes up to the rest are one run, of which the last three end the string
  have hjoin : List.replicate n q ++ q :: q :: q :: rest = List.replicate (n + 3) q ++ rest := by
    rw [← List.replicate_append_replicate, List.append_assoc]
    rfl
  have hcount : ((List.replicate (n + 3) q ++ rest).takeWhile (· == q)).length = n + 3 := by
    rw [List.takeWhile_append_of_pos, hnil, List.append_nil, List.length_replicate]
    intro c hc
    rw [List.eq_of_mem_replicate hc]
    exact beq_self_eq_true q
  have hinner : min (n + 3 - 3) 2 = n := by omega
  rw [hjoin, closing?]
  dsimp only
  rw [hcount, if_neg (by omega), hinner, List.drop_left' List.length_replicate]

/-- A string does not end **inside a short run** of quotes. -/
theorem closing?_of_shortRun (h : ShortRun q 2 u t) (hrest : rest.head? ≠ some q) :
    closing? q (u ++ q :: q :: q :: rest) = some (t, rest) ∨
      closing? q (u ++ q :: q :: q :: rest) = none := by
  rcases h with ⟨rfl, hu, hlength⟩ | hrun
  · left
    rw [hu]
    exact closing?_replicate hlength hrest
  · right
    have hcount := hrun (q :: q :: q :: rest)
    rw [closing?]
    exact if_pos (Nat.lt_succ_of_le hcount)

/-! ### Strings over several lines -/

theorem lines?_of_closing? (h : closing? '"' u = some (t, rest)) : lines? u = some (t, rest) := by
  rw [lines?.eq_def, h]

theorem literalLines?_of_closing? (h : closing? '\'' u = some (t, rest)) :
    literalLines? u = some (t, rest) := by
  rw [literalLines?.eq_def, h]

theorem lines?_escape (hclose : closing? '"' ('\\' :: (u ++ t)) = none) (h : Escapes u c) :
    lines? ('\\' :: (u ++ t)) = before c (lines? t) := by
  rw [lines?, hclose]
  dsimp only
  split
  case h_1 r heq =>
    rw [h.joins] at heq
    cases heq
  case h_2 =>
    split
    case h_1 d r heq =>
      rw [h.reads] at heq
      cases heq
      rfl
    case h_2 heq =>
      rw [h.reads] at heq
      cases heq

/-- Whether a character **stands for itself** in a string over several lines. -/
def IsLinePlain (c : Char) : Prop := isPlain c = true ∨ c = '\n'

theorem IsLinePlain.or_eq_true (h : IsLinePlain c) : (isPlain c || c == '\n') = true := by
  rw [Bool.or_eq_true, beq_iff_eq]
  exact h

theorem IsLinePlain.ne_return (h : IsLinePlain c) : c ≠ '\r' := by
  rintro rfl
  exact absurd h (by unfold IsLinePlain; decide)

theorem isLinePlain_of_needsCode (h : Toml.needsCode c = false) : IsLinePlain c := by
  by_cases hfeed : c = '\n'
  · exact .inr hfeed
  · exact .inl (isPlain_of_needsCode h hfeed)

theorem lines?_plain (hclose : closing? '"' (c :: t) = none) (h : IsLinePlain c) (hslash : c ≠ '\\') :
    lines? (c :: t) = before c (lines? t) := by
  rw [lines?, hclose]
  · exact if_pos h.or_eq_true
  · intro _ heq
    exact absurd heq h.ne_return
  · exact hslash

theorem literalLines?_plain (hclose : closing? '\'' (c :: t) = none) (h : IsLinePlain c) :
    literalLines? (c :: t) = before c (literalLines? t) := by
  rw [literalLines?, hclose]
  · exact if_pos h.or_eq_true
  · intro _ heq
    exact absurd heq h.ne_return

/-- With escapes there are **never three quotes in a row**, those before included. -/
theorem shortRun_escapedLines (quotes : Nat) (t : Text) :
    ShortRun '"' (2 - quotes) (Toml.escapedLines quotes t) t := by
  induction t generalizing quotes with
  | nil => exact shortRun_nil _ _
  | cons c t ih =>
    rw [Toml.escapedLines]
    split
    case isTrue hquote =>
      subst hquote
      -- a quote adds to the run as long as fewer than two stand before it, and is escaped then
      split
      case isTrue hlt =>
        have hsucc : 2 - quotes = 2 - (quotes + 1) + 1 := by omega
        rw [hsucc]
        exact shortRun_cons_self (ih (quotes + 1))
      case isFalse => exact shortRun_cons_of_ne (by decide) _ _ _
    case isFalse hquote =>
      split
      case isTrue hfeed =>
        subst hfeed
        exact shortRun_cons_of_ne (by decide) _ _ _
      case isFalse =>
        cases he : Toml.escapeOf? c with
        | some e =>
          obtain ⟨u, rfl, -⟩ := escapes_of_escapeOf? he
          exact shortRun_cons_of_ne (by decide) _ _ _
        | none => exact shortRun_cons_of_ne hquote _ _ _

/-- A string over several lines with escapes **is read back** up to the quotes behind it. -/
theorem lines?_escapedLines (quotes : Nat) (t : Text) (hrest : rest.head? ≠ some '"') :
    lines? (Toml.escapedLines quotes t ++ '"' :: '"' :: '"' :: rest) = some (t, rest) := by
  induction t generalizing quotes with
  | nil => exact lines?_of_closing? (closing?_replicate (Nat.zero_le 2) hrest)
  | cons c t ih =>
    have hrun : ShortRun '"' 2 (Toml.escapedLines quotes (c :: t)) (c :: t) :=
      (shortRun_escapedLines quotes (c :: t)).mono (Nat.sub_le 2 quotes)
    -- the string ends here only if nothing but quotes is left of the text
    rcases closing?_of_shortRun hrun hrest with hclose | hclose
    · exact lines?_of_closing? hclose
    rw [Toml.escapedLines] at hclose ⊢
    split at hclose
    case isTrue hquote =>
      subst hquote
      split at hclose
      case isTrue hlt =>
        rw [if_pos rfl, if_pos hlt]
        refine (lines?_plain hclose (.inl rfl) (by decide)).trans ?_
        exact congrArg (before '"') (ih (quotes + 1))
      case isFalse hlt =>
        -- two quotes stand before this one, which is therefore escaped
        rw [if_pos rfl, if_neg hlt]
        have hescape : Escapes ['"'] '"' := escapes_of_shortEscape? rfl (by decide)
        refine (lines?_escape (u := ['"']) hclose hescape).trans ?_
        exact congrArg (before '"') (ih (quotes + 1))
    case isFalse hquote =>
      rw [if_neg hquote]
      split at hclose
      case isTrue hfeed =>
        subst hfeed
        rw [if_pos rfl]
        refine (lines?_plain hclose (.inr rfl) (by decide)).trans ?_
        exact congrArg (before '\n') (ih 0)
      case isFalse hfeed =>
        rw [if_neg hfeed]
        cases he : Toml.escapeOf? c with
        | some e =>
          obtain ⟨u, rfl, hescape⟩ := escapes_of_escapeOf? he
          rw [he, Option.getD_some, List.append_assoc] at hclose
          rw [Option.getD_some, List.append_assoc]
          refine (lines?_escape hclose hescape).trans ?_
          exact congrArg (before c) (ih 0)
        | none =>
          obtain ⟨hplain, hslash, -⟩ := of_escapeOf?_eq_none he
          rw [he] at hclose
          refine (lines?_plain hclose (.inl hplain) hslash).trans ?_
          exact congrArg (before c) (ih 0)

/-- A text without long runs of quotes **begins with a short one**. -/
theorem shortRun_of_longestRun {current : Nat} (h : Toml.longestRun q current t ≤ n) :
    ShortRun q (n - current) t t := by
  -- the quotes that were counted before the text leave it so many fewer
  induction t generalizing current with
  | nil => exact shortRun_nil _ _
  | cons c t ih =>
    rw [Toml.longestRun] at h
    split at h
    case isTrue heq =>
      subst heq
      have hcurrent : current + 1 ≤ n := Nat.le_trans (Toml.le_longestRun c (current + 1) t) h
      have hsucc : n - current = n - (current + 1) + 1 := by omega
      rw [hsucc]
      exact shortRun_cons_self (ih h)
    case isFalse hne => exact shortRun_cons_of_ne hne _ _ _

/-- A text that needs no escapes and has no long runs of quotes **is read back** up to the quotes behind
it. -/
theorem literalLines?_append (hrest : rest.head? ≠ some '\'') (hplain : ∀ c ∈ t, IsLinePlain c)
    {current : Nat} (hrun : Toml.longestRun '\'' current t ≤ 2) :
    literalLines? (t ++ '\'' :: '\'' :: '\'' :: rest) = some (t, rest) := by
  induction t generalizing current with
  | nil => exact literalLines?_of_closing? (closing?_replicate (Nat.zero_le 2) hrest)
  | cons c t ih =>
    have hshort := (shortRun_of_longestRun hrun).mono (Nat.sub_le 2 current)
    -- the string ends here only if nothing but quotes is left of the text
    rcases closing?_of_shortRun hshort hrest with hclose | hclose
    · exact literalLines?_of_closing? hclose
    obtain ⟨hc, ht⟩ := List.forall_mem_cons.1 hplain
    have htail : ∃ current, Toml.longestRun '\'' current t ≤ 2 := by
      rw [Toml.longestRun] at hrun
      split at hrun
      case isTrue => exact ⟨_, hrun⟩
      case isFalse => exact ⟨0, Nat.le_trans (Nat.le_max_right ..) hrun⟩
    obtain ⟨_, htail⟩ := htail
    refine (literalLines?_plain hclose hc).trans ?_
    exact congrArg (before c) (ih ht htail)

/-! ### Strings in each form -/

/-- A text that does not begin with a line end **loses none**. -/
theorem dropLineEnd_of_head (h : ∀ c ∈ u.head?, c ≠ '\n' ∧ c ≠ '\r') : dropLineEnd u = u := by
  cases u with
  | nil => rfl
  | cons c u =>
    obtain ⟨hfeed, hreturn⟩ := h c rfl
    have hnone : lineEnd? (c :: u) = none := by
      unfold lineEnd?
      split
      case h_1 heq => exact absurd (List.cons.inj heq).1 hfeed
      case h_2 heq => exact absurd (List.cons.inj heq).1 hreturn
      case h_3 => rfl
    rw [dropLineEnd, hnone]
    rfl

/-- A quote that opens a string on one line is **not followed by two more**. -/
theorem quoted_ne (hu : u.head? ≠ some q) (hrest : rest.head? ≠ some q) (t : Text) :
    u ++ q :: rest ≠ q :: q :: t := by
  intro heq
  cases u with
  | nil =>
    rw [(List.cons.inj heq).2] at hrest
    exact hrest rfl
  | cons c u =>
    rw [(List.cons.inj heq).1] at hu
    exact hu rfl

theorem string?_basic (hu : u.head? ≠ some '"') (hrest : rest.head? ≠ some '"') :
    string? ('"' :: (u ++ '"' :: rest)) = basic? (u ++ '"' :: rest) := by
  have hne := quoted_ne hu hrest
  generalize u ++ '"' :: rest = t at hne
  unfold string?
  split
  case h_1 heq => exact absurd (List.cons.inj heq).2 (hne _)
  case h_2 heq => cases heq
  case h_3 heq => rw [(List.cons.inj heq).2]
  case h_4 heq => cases heq
  case h_5 h _ => exact absurd rfl (h t)

theorem string?_literal (hu : u.head? ≠ some '\'') (hrest : rest.head? ≠ some '\'') :
    string? ('\'' :: (u ++ '\'' :: rest)) = literal? (u ++ '\'' :: rest) := by
  have hne := quoted_ne hu hrest
  generalize u ++ '\'' :: rest = t at hne
  unfold string?
  split
  case h_1 heq => cases heq
  case h_2 heq => exact absurd (List.cons.inj heq).2 (hne _)
  case h_3 heq => cases heq
  case h_4 heq => rw [(List.cons.inj heq).2]
  case h_5 h => exact absurd rfl (h t)

theorem head?_escaped (t : Text) : (Toml.escaped t).head? ≠ some '"' := by
  cases t with
  | nil =>
    intro h
    cases h
  | cons c t =>
    have hslash : '\\' ≠ '"' := by decide
    rw [Toml.escaped, List.flatMap_cons]
    split
    case isTrue => exact fun h => hslash (Option.some.inj h)
    case isFalse hquote =>
      cases he : Toml.escapeOf? c with
      | some e =>
        obtain ⟨u, rfl, -⟩ := escapes_of_escapeOf? he
        exact fun h => hslash (Option.some.inj h)
      | none => exact fun h => hquote (Option.some.inj h)

theorem head?_escapedLines (h : '\n' ∉ t) (rest : Text) :
    ∀ c ∈ (Toml.escapedLines 0 t ++ '"' :: rest).head?, c ≠ '\n' ∧ c ≠ '\r' := by
  cases t with
  | nil =>
    intro d hd
    cases hd
    decide
  | cons c t =>
    have hfeed : c ≠ '\n' := fun heq => h (heq ▸ List.mem_cons_self ..)
    rw [Toml.escapedLines]
    intro d hd
    split at hd
    case isTrue hquote =>
      subst hquote
      cases hd
      decide
    case isFalse =>
      cases he : Toml.escapeOf? c with
      | some e =>
        obtain ⟨u, rfl, -⟩ := escapes_of_escapeOf? he
        rw [he] at hd
        cases hd
        decide
      | none =>
        rw [he] at hd
        cases hd
        exact ⟨hfeed, ne_return_of_isPlain (of_escapeOf?_eq_none he).1⟩

/-- What may stand **behind a string**: no quote of either kind. -/
def EndsString (rest : Text) : Prop := rest.head? ≠ some '"' ∧ rest.head? ≠ some '\''

theorem string?_writeAs_basic (h : EndsString rest) (t : Text) :
    string? (Toml.writeAs .basic t ++ rest) = some (t, rest) := by
  have htext : Toml.writeAs .basic t ++ rest = '"' :: (Toml.escaped t ++ '"' :: rest) := by
    simp [Toml.writeAs]
  rw [htext, string?_basic (head?_escaped t) h.1, basic?_escaped]

theorem string?_writeAs_literal (h : EndsString rest)
    (hplain : ∀ c ∈ t, isPlain c = true ∧ c ≠ '\'') :
    string? (Toml.writeAs .literal t ++ rest) = some (t, rest) := by
  have htext : Toml.writeAs .literal t ++ rest = '\'' :: (t ++ '\'' :: rest) := by
    simp [Toml.writeAs]
  have hhead : t.head? ≠ some '\'' := by
    intro hquote
    exact (hplain _ (List.mem_of_mem_head? hquote)).2 rfl
  rw [htext, string?_literal hhead h.2, literal?_append hplain]

theorem string?_writeAs_lines (h : EndsString rest) (t : Text) :
    string? (Toml.writeAs .lines t ++ rest) = some (t, rest) := by
  have hread := lines?_escapedLines 0 t h.1
  by_cases hfeed : '\n' ∈ t
  · have htext : Toml.writeAs .lines t ++ rest =
        '"' :: '"' :: '"' :: '\n' :: (Toml.escapedLines 0 t ++ '"' :: '"' :: '"' :: rest) := by
      simp [Toml.writeAs, hfeed]
    rw [htext]
    exact hread
  · have htext : Toml.writeAs .lines t ++ rest =
        '"' :: '"' :: '"' :: (Toml.escapedLines 0 t ++ '"' :: '"' :: '"' :: rest) := by
      simp [Toml.writeAs, hfeed]
    rw [htext, string?, dropLineEnd_of_head (head?_escapedLines hfeed _), hread]

theorem string?_writeAs_literalLines (h : EndsString rest) (hcodes : ∀ c ∈ t, Toml.needsCode c = false)
    (hrun : Toml.longestRun '\'' 0 t ≤ 2) :
    string? (Toml.writeAs .literalLines t ++ rest) = some (t, rest) := by
  have hread := literalLines?_append h.2 (fun c hc => isLinePlain_of_needsCode (hcodes c hc)) hrun
  by_cases hfeed : '\n' ∈ t
  · have htext : Toml.writeAs .literalLines t ++ rest =
        '\'' :: '\'' :: '\'' :: '\n' :: (t ++ '\'' :: '\'' :: '\'' :: rest) := by
      simp [Toml.writeAs, hfeed]
    rw [htext]
    exact hread
  · have htext : Toml.writeAs .literalLines t ++ rest =
        '\'' :: '\'' :: '\'' :: (t ++ '\'' :: '\'' :: '\'' :: rest) := by
      simp [Toml.writeAs, hfeed]
    have hhead : ∀ c ∈ (t ++ '\'' :: '\'' :: '\'' :: rest).head?, c ≠ '\n' ∧ c ≠ '\r' := by
      intro c hc
      cases t with
      | nil =>
        cases hc
        decide
      | cons d t =>
        cases hc
        have hplain := isLinePlain_of_needsCode (hcodes c (List.mem_cons_self ..))
        exact ⟨fun heq => hfeed (heq ▸ List.mem_cons_self ..), hplain.ne_return⟩
    rw [htext, string?, dropLineEnd_of_head hhead, hread]

/-- A **written string is read back**, whatever stands in it. -/
theorem string?_stringText (h : EndsString rest) (t : Text) :
    string? (Toml.stringText t ++ rest) = some (t, rest) := by
  have hcodes (hnone : (!t.any Toml.needsCode) = true) : ∀ c ∈ t, Toml.needsCode c = false := by
    intro c hc
    rw [Bool.not_eq_true', List.any_eq_false] at hnone
    exact Bool.eq_false_iff.2 (hnone c hc)
  unfold Toml.stringText Toml.formOf
  dsimp only
  -- the forms in the order in which the writer tries them
  split
  case isTrue => exact string?_writeAs_basic h t
  case isFalse =>
    split
    case isTrue hliteral =>
      simp only [Bool.and_eq_true] at hliteral
      obtain ⟨⟨hnone, hfeed⟩, hquote⟩ := hliteral
      refine string?_writeAs_literal h ?_
      intro c hc
      refine ⟨isPlain_of_needsCode (hcodes hnone c hc) ?_, ?_⟩
      · rintro rfl
        rw [List.elem_eq_true_of_mem hc] at hfeed
        cases hfeed
      · rintro rfl
        rw [List.elem_eq_true_of_mem hc] at hquote
        cases hquote
    case isFalse =>
      split
      case isTrue => exact string?_writeAs_lines h t
      case isFalse =>
        split
        case isTrue hliteral =>
          rw [Bool.and_eq_true, decide_eq_true_eq] at hliteral
          exact string?_writeAs_literalLines h (hcodes hliteral.1) hliteral.2
        case isFalse =>
          split
          case isTrue => exact string?_writeAs_lines h t
          case isFalse => exact string?_writeAs_basic h t

end TomlToken

end MailMerge
