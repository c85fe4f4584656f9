import MailMerge.Proofs.Digits
import MailMerge.Proofs.QuotedStrings
import MailMerge.Toml.Reader

/-!
# Written values are read back

A setting is written as a string, a list of strings, a number or a truth value, and a line ends behind it.
The reader tries moments and floats before integers, but a moment has a dash or a colon behind its first
digits and a float a point or an exponent, and behind written digits there is only the end of the line.

* `Spells` says that a text is read as a value where a line ends behind it;
* `spells_stringText`, `spells_stringsText`, `spells_booleanText` and `spells_ofInt` — the four kinds of
  written values are read back.
-/

namespace MailMerge

namespace TomlScalar

variable {u t rest r : Text} {n : Nat}

/-! ### Digits before the end of a line -/

/-- Whether a text is a run of **digits** and not empty. -/
structure AllDigits (u : Text) : Prop where
  nonempty : u ≠ []
  digits : ∀ c ∈ u, c.isDigit = true

theorem allDigits_ofNat (n : Nat) : AllDigits (Text.ofNat n) :=
  ⟨Text.ofNat_ne_nil n, fun _ hc => Text.isDigit_of_mem_ofNat hc⟩

theorem AllDigits.exists_cons (h : AllDigits u) : ∃ c t, u = c :: t ∧ c.isDigit = true := by
  obtain ⟨c, t, rfl⟩ := List.exists_cons_of_ne_nil h.nonempty
  exact ⟨c, t, rfl, h.digits c (List.mem_cons_self ..)⟩

theorem ne_of_isDigit {c d : Char} (hc : c.isDigit = true) (hd : d.isDigit = false) : c ≠ d := by
  rintro rfl
  rw [hc] at hd
  cases hd

/-- The number in a field **ends before a digit or the end of the line**. -/
theorem head_of_field? {count least most value : Nat} (hu : ∀ c ∈ u, c.isDigit = true)
    (h : field? count least most (u ++ '\n' :: rest) = some (value, r)) :
    ∃ c t, r = c :: t ∧ (c.isDigit = true ∨ c = '\n') := by
  unfold field? at h
  dsimp only at h
  split at h
  case isFalse => cases h
  case isTrue hfield =>
    cases h
    obtain ⟨hlength, hall, -⟩ := hfield
    rw [List.all_eq_true] at hall
    -- a longer field would contain the line feed
    have hle : count ≤ u.length := by
      by_contra hlt
      have hmem : '\n' ∈ (u ++ '\n' :: rest).take count := by
        rw [List.take_append, List.mem_append]
        right
        obtain ⟨k, hk⟩ : ∃ k, count - u.length = k + 1 := ⟨count - u.length - 1, by omega⟩
        rw [hk, List.take_succ_cons]
        exact List.mem_cons_self ..
      cases hall _ hmem
    rw [List.drop_append_of_le_length hle]
    cases hdrop : u.drop count with
    | nil => exact ⟨'\n', rest, rfl, .inr rfl⟩
    | cons c t =>
      refine ⟨c, t ++ '\n' :: rest, rfl, .inl (hu c ?_)⟩
      exact List.mem_of_mem_drop (hdrop ▸ List.mem_cons_self ..)

/-- Behind a field of written digits there is **no mark**. -/
theorem mark?_of_field? {count least most value : Nat} {mark : Char} (hu : ∀ c ∈ u, c.isDigit = true)
    (hmark : mark.isDigit = false ∧ mark ≠ '\n')
    (h : field? count least most (u ++ '\n' :: rest) = some (value, r)) : mark? [mark] r = none := by
  obtain ⟨c, t, rfl, hc⟩ := head_of_field? hu h
  have hne : c ≠ mark := by
    rcases hc with hdigit | rfl
    · exact ne_of_isDigit hdigit hmark.1
    · exact hmark.2.symm
  have helem : ¬ [mark].elem c = true := by
    intro helem
    exact hne (List.mem_singleton.1 (List.mem_of_elem_eq_true helem))
  rw [mark?, if_neg helem]

theorem date?_digits (hu : ∀ c ∈ u, c.isDigit = true) (rest : Text) : date? (u ++ '\n' :: rest) = none := by
  cases hyear : field? 4 0 9999 (u ++ '\n' :: rest) with
  | none => rw [date?, hyear]; rfl
  | some p =>
    obtain ⟨year, r⟩ := p
    have hmark : mark? "-" r = none := mark?_of_field? hu (by decide) hyear
    rw [date?, hyear]
    simp only [Option.bind_eq_bind, Option.bind_some, hmark, Option.bind_none]

theorem time?_digits (hu : ∀ c ∈ u, c.isDigit = true) (rest : Text) : time? (u ++ '\n' :: rest) = none := by
  cases hhour : field? 2 0 23 (u ++ '\n' :: rest) with
  | none => rw [time?, hhour]; rfl
  | some p =>
    obtain ⟨hour, r⟩ := p
    have hmark : mark? ":" r = none := mark?_of_field? hu (by decide) hhour
    rw [time?, hhour]
    simp only [Option.bind_eq_bind, Option.bind_some, hmark, Option.bind_none]

/-- Written digits are **no moment**. -/
theorem moment?_digits (hu : ∀ c ∈ u, c.isDigit = true) (rest : Text) :
    moment? (u ++ '\n' :: rest) = none := by
  rw [moment?, pastMoment?, date?_digits hu]
  dsimp only
  rw [time?_digits hu]
  rfl

theorem field?_of_head {count least most : Nat} {c : Char} (hc : c.isDigit = false) (hcount : 0 < count)
    (t : Text) : field? count least most (c :: t) = none := by
  obtain ⟨k, rfl⟩ : ∃ k, count = k + 1 := ⟨count - 1, by omega⟩
  refine if_neg ?_
  rintro ⟨-, hall, -⟩
  rw [List.take_succ_cons, List.all_cons, hc] at hall
  cases hall

/-- What begins with no digit is **no moment**. -/
theorem moment?_of_head {c : Char} (hc : c.isDigit = false) (t : Text) : moment? (c :: t) = none := by
  have hdate : date? (c :: t) = none := by
    rw [date?, field?_of_head hc (by decide)]
    rfl
  have htime : time? (c :: t) = none := by
    rw [time?, field?_of_head hc (by decide)]
    rfl
  rw [moment?, pastMoment?, hdate]
  dsimp only
  rw [htime]
  rfl

/-! ### Numbers -/

theorem moreDigits_append (hu : ∀ c ∈ u, c.isDigit = true) (rest : Text) :
    moreDigits Char.isDigit (u ++ '\n' :: rest) = (u, '\n' :: rest) := by
  induction u with
  | nil => rfl
  | cons c u ih =>
    obtain ⟨hc, hu⟩ := List.forall_mem_cons.1 hu
    rw [List.cons_append, moreDigits, if_pos hc, ih hu]
    intro d r hunderscore
    exact absurd hunderscore (ne_of_isDigit hc rfl)

theorem digits?_append (hu : AllDigits u) (rest : Text) :
    digits? Char.isDigit (u ++ '\n' :: rest) = some (u, '\n' :: rest) := by
  obtain ⟨c, t, rfl, hc⟩ := hu.exists_cons
  obtain ⟨-, ht⟩ := List.forall_mem_cons.1 hu.digits
  rw [List.cons_append, digits?, if_pos hc, moreDigits_append ht]

/-- Written digits are **a whole number** of a numeral. -/
theorem whole?_ofNat (n : Nat) (rest : Text) :
    whole? (Text.ofNat n ++ '\n' :: rest) = some (Text.ofNat n, '\n' :: rest) := by
  rcases Nat.eq_zero_or_pos n with rfl | hpos
  · rfl
  · have hread := digits?_append (allDigits_ofNat n) rest
    unfold whole?
    split
    case h_1 r heq =>
      -- only zero is written with a zero at its head
      exfalso
      obtain ⟨c, t, hcons, -⟩ := (allDigits_ofNat n).exists_cons
      rw [hcons] at heq
      refine Text.head?_ofNat_ne hpos ?_
      rw [hcons, (List.cons.inj heq).1]
      rfl
    case h_2 => exact hread

theorem sign_digits (hu : AllDigits u) (rest : Text) : sign (u ++ rest) = (false, u ++ rest) := by
  obtain ⟨c, t, rfl, hc⟩ := hu.exists_cons
  unfold sign
  split
  case h_1 heq => exact absurd (List.cons.inj heq).1 (ne_of_isDigit hc rfl)
  case h_2 heq => exact absurd (List.cons.inj heq).1 (ne_of_isDigit hc rfl)
  case h_3 => rfl

theorem fraction?_newLine (rest : Text) : fraction? ('\n' :: rest) = none := rfl

theorem exponent?_newLine (rest : Text) : exponent? ('\n' :: rest) = none := rfl

/-- A whole number before the end of a line is **no float**. -/
theorem decimal?_of_whole? {digits : Text} {isNegative : Bool} (hsign : sign t = (isNegative, r))
    (hwhole : whole? r = some (digits, '\n' :: rest)) : decimal? t = none := by
  rw [decimal?, hsign]
  dsimp only
  simp only [Option.bind_eq_bind, hwhole, Option.bind_some, fraction?_newLine, exponent?_newLine,
    Option.bind_none]

theorem dropPrefix?_digits {c : Char} {name : Text} (hu : AllDigits u) (hc : c.isDigit = false) :
    Text.dropPrefix? (c :: name) (u ++ rest) = none := by
  obtain ⟨d, t, rfl, hd⟩ := hu.exists_cons
  rw [List.cons_append, Text.dropPrefix?, if_neg (ne_of_isDigit hd hc).symm]

/-- Behind a sign, digits are **no name** of a float. -/
theorem named?_digits {isNegative : Bool} (hu : AllDigits u) (hsign : sign t = (isNegative, u ++ rest)) :
    named? t = none := by
  have hinf : Text.dropPrefix? "inf" (u ++ rest) = none := dropPrefix?_digits hu rfl
  have hnan : Text.dropPrefix? "nan" (u ++ rest) = none := dropPrefix?_digits hu rfl
  rw [named?, hsign]
  dsimp only
  rw [hinf, hnan]

theorem float?_ofNat {isNegative : Bool} (hsign : sign t = (isNegative, Text.ofNat n ++ '\n' :: rest)) :
    float? t = none := by
  rw [float?, decimal?_of_whole? hsign (whole?_ofNat n rest), named?_digits (allDigits_ofNat n) hsign]
  rfl

/-- Decimal digits **spell the same number** to this reader. -/
theorem valueIn_ten (hu : ∀ c ∈ u, c.isDigit = true) : valueIn 10 u = Text.digitsValue u := by
  have hdigit : ∀ c : Char, c.isDigit = true → (Text.digitValue? 10 c).getD 0 = c.toNat - '0'.toNat := by
    intro c hc
    rw [Char.isDigit, Bool.and_eq_true, decide_eq_true_eq, decide_eq_true_eq] at hc
    have hrange : '0' ≤ c ∧ c ≤ '9' := hc
    have hhigh : c.toNat ≤ 57 := hc.2
    have hlt : c.toNat - '0'.toNat < 10 := by
      show c.toNat - 48 < 10
      omega
    rw [Text.digitValue?, if_pos hrange, Option.filter_some, if_pos (decide_eq_true hlt)]
    rfl
  unfold valueIn Text.digitsValue
  apply List.foldl_ext
  intro n c hc
  rw [hdigit c (hu c hc)]

/-- Whether a number **fits** into 64 bits with a sign. -/
def Fits (n : Int) : Prop := -9223372036854775808 ≤ n ∧ n ≤ 9223372036854775807

/-- A signed whole number that fits into 64 bits **is read back**. -/
theorem integer?_of_sign {isNegative : Bool}
    (hsign : sign t = (isNegative, Text.ofNat n ++ '\n' :: rest))
    (hbase : ∀ c d r, t = c :: d :: r → c = '0' → d = '\n')
    (hfit : Fits (if isNegative then -(n : Int) else n)) :
    integer? t = some (if isNegative then -(n : Int) else n, '\n' :: rest) := by
  have hvalue : valueIn 10 (Text.ofNat n) = n := by
    rw [valueIn_ten (allDigits_ofNat n).digits, Text.digitsValue_ofNat]
  have hfitted : fitted? (if isNegative then -(n : Int) else n) =
      some (if isNegative then -(n : Int) else n) := if_pos hfit
  unfold integer?
  split
  -- another base is told by a letter behind a zero, and there is none
  case h_1 => cases hbase _ _ _ rfl rfl
  case h_2 => cases hbase _ _ _ rfl rfl
  case h_3 => cases hbase _ _ _ rfl rfl
  case h_4 =>
    rw [hsign]
    dsimp only
    simp only [Option.bind_eq_bind, whole?_ofNat, Option.bind_some, hvalue, hfitted]
    rfl

/-- No other digits stand **behind a zero** at the head of a number. -/
theorem eq_of_ofNat_zero {c d : Char} (h : Text.ofNat n ++ '\n' :: rest = c :: d :: r) (hc : c = '0') :
    d = '\n' := by
  rcases Nat.eq_zero_or_pos n with rfl | hpos
  · have hzero : '0' :: '\n' :: rest = c :: d :: r := h
    cases hzero
    rfl
  · exfalso
    obtain ⟨e, t, hcons, -⟩ := (allDigits_ofNat n).exists_cons
    rw [hcons] at h
    refine Text.head?_ofNat_ne hpos ?_
    rw [hcons, (List.cons.inj h).1, hc]
    rfl

/-- A scalar that is no truth value, moment or float **is an integer**. -/
theorem scalar?_of_integer? {v : Int} (htrue : Text.dropPrefix? "true" t = none)
    (hfalse : Text.dropPrefix? "false" t = none) (hmoment : moment? t = none) (hfloat : float? t = none)
    (h : integer? t = some (v, rest)) : scalar? t = some (.integer v, rest) := by
  rw [scalar?, htrue, hfalse]
  dsimp only
  rw [hmoment, hfloat, h]
  rfl

/-- A **written number is read back** where it fits into 64 bits and a line ends behind it. -/
theorem scalar?_ofInt {v : Int} (hv : Fits v) (rest : Text) :
    scalar? (Text.ofInt v ++ '\n' :: rest) = some (.integer v, '\n' :: rest) := by
  cases v with
  | ofNat n =>
    have hu := allDigits_ofNat n
    have hsign := sign_digits hu ('\n' :: rest)
    refine scalar?_of_integer? (dropPrefix?_digits hu rfl) (dropPrefix?_digits hu rfl)
      (moment?_digits hu.digits rest) (float?_ofNat hsign) ?_
    exact integer?_of_sign hsign (fun _ _ _ heq hc => eq_of_ofNat_zero heq hc) hv
  | negSucc n =>
    have hsign : sign ('-' :: (Text.ofNat (n + 1) ++ '\n' :: rest)) =
        (true, Text.ofNat (n + 1) ++ '\n' :: rest) := rfl
    refine scalar?_of_integer? rfl rfl (moment?_of_head rfl _) (float?_ofNat hsign) ?_
    refine integer?_of_sign hsign ?_ hv
    intro c d r heq hc
    rw [hc] at heq
    cases (List.cons.inj heq).1

end TomlScalar

namespace TomlReader

open TomlToken

variable {u t rest r : Text} {v : Toml} {items : List Toml} {fuel depth : Nat}

/-! ### Strings -/

theorem exists_cons_stringText (t : Text) :
    ∃ q u, Toml.stringText t = q :: u ∧ (q = '"' ∨ q = '\'') := by
  unfold Toml.stringText
  cases Toml.formOf t with
  | basic => exact ⟨_, _, rfl, .inl rfl⟩
  | literal => exact ⟨_, _, rfl, .inr rfl⟩
  | lines => exact ⟨_, _, rfl, .inl rfl⟩
  | literalLines => exact ⟨_, _, rfl, .inr rfl⟩

/-- A **written string is read** as a value. -/
theorem value?_stringText (hrest : EndsString rest) (t : Text) :
    value? (fuel + 1) depth (Toml.stringText t ++ rest) = some (.text t, rest) := by
  have hread := string?_stringText hrest t
  obtain ⟨q, u, hcons, hq⟩ := exists_cons_stringText t
  rw [hcons, List.cons_append] at hread ⊢
  rcases hq with rfl | rfl
  · rw [value?, hread]
    rfl
  · rw [value?, hread]
    rfl

/-! ### Lists of strings -/

theorem skipFiller_blank {c : Char} (h : c = ' ' ∨ c = '\n') (t : Text) :
    skipFiller (c :: t) = skipFiller t := by
  have hblank : (isGap c || c == '\n') = true ∧ c ≠ '#' ∧ c ≠ '\r' := by
    rcases h with rfl | rfl
    · decide
    · decide
  rw [skipFiller, if_pos hblank.1]
  · exact hblank.2.1
  · intro _ h
    exact absurd h hblank.2.2

theorem skipFiller_stop {c : Char} (hblank : (isGap c || c == '\n') = false)
    (hmark : c ≠ '#' ∧ c ≠ '\r') (t : Text) : skipFiller (c :: t) = c :: t := by
  rw [skipFiller, hblank, if_neg (by decide)]
  · exact hmark.1
  · intro _ h
    exact absurd h hmark.2

/-- There is **nothing to skip** before a string. -/
theorem skipFiller_stringText (t rest : Text) :
    skipFiller (Toml.stringText t ++ rest) = Toml.stringText t ++ rest := by
  obtain ⟨q, u, hcons, hq⟩ := exists_cons_stringText t
  rw [hcons, List.cons_append]
  rcases hq with rfl | rfl
  · exact skipFiller_stop (by decide) (by decide) _
  · exact skipFiller_stop (by decide) (by decide) _

theorem items?_nil (h : skipFiller t = ']' :: rest) : items? (fuel + 1) depth t = some ([], rest) := by
  rw [items?, h]
  rfl

theorem endsString_cons {c : Char} (h : c ≠ '"' ∧ c ≠ '\'') (rest : Text) : EndsString (c :: rest) :=
  ⟨fun heq => h.1 (Option.some.inj heq), fun heq => h.2 (Option.some.inj heq)⟩

/-- A string **is no end** of a list. -/
theorem ne_bracket_of_stringText (h : skipFiller t = Toml.stringText u ++ rest) (r : Text) :
    skipFiller t ≠ ']' :: r := by
  intro heq
  obtain ⟨q, v, hcons, hq⟩ := exists_cons_stringText u
  rw [h, hcons, List.cons_append] at heq
  rw [(List.cons.inj heq).1] at hq
  exact absurd hq (by decide)

/-- The **last item** of a list is read with the bracket behind it. -/
theorem items?_last (h : skipFiller t = Toml.stringText u ++ ']' :: rest) :
    items? (fuel + 2) depth t = some ([.text u], rest) := by
  have hvalue : value? (fuel + 1) depth (skipFiller t) = some (.text u, ']' :: rest) := by
    rw [h]
    exact value?_stringText (endsString_cons (by decide) _) u
  have hbracket : skipFiller (']' :: rest) = ']' :: rest := skipFiller_stop (by decide) (by decide) _
  rw [items?]
  split
  case h_1 heq => exact absurd heq (ne_bracket_of_stringText h _)
  case h_2 =>
    rw [hvalue]
    simp only [Option.bind_eq_bind, Option.bind_some, hbracket]
    rfl

/-- An item with a comma is read **before the others** of its list. -/
theorem items?_cons (h : skipFiller t = Toml.stringText u ++ ',' :: rest)
    (hitems : items? (fuel + 1) depth rest = some (items, r)) :
    items? (fuel + 2) depth t = some (.text u :: items, r) := by
  have hvalue : value? (fuel + 1) depth (skipFiller t) = some (.text u, ',' :: rest) := by
    rw [h]
    exact value?_stringText (endsString_cons (by decide) _) u
  have hcomma : skipFiller (',' :: rest) = ',' :: rest := skipFiller_stop (by decide) (by decide) _
  rw [items?]
  split
  case h_1 heq => exact absurd heq (ne_bracket_of_stringText h _)
  case h_2 =>
    rw [hvalue]
    simp only [Option.bind_eq_bind, Option.bind_some, hcomma, hitems]
    rfl

/-- Strings on **lines of their own** are read up to the bracket behind them. -/
theorem items?_itemLines (ts : List Text) (rest : Text) :
    items? (fuel + ts.length + 1) depth ('\n' :: (ts.flatMap Toml.itemLine ++ ']' :: rest)) =
      some (ts.map .text, rest) := by
  induction ts with
  | nil =>
    refine items?_nil ?_
    rw [skipFiller_blank (.inr rfl)]
    exact skipFiller_stop (by decide) (by decide) rest
  | cons t ts ih =>
    have hskip : skipFiller ('\n' :: ((t :: ts).flatMap Toml.itemLine ++ ']' :: rest)) =
        Toml.stringText t ++ ',' :: '\n' :: (ts.flatMap Toml.itemLine ++ ']' :: rest) := by
      have htext : (t :: ts).flatMap Toml.itemLine ++ ']' :: rest =
          ' ' :: ' ' :: ' ' :: ' ' :: (Toml.stringText t ++
            ',' :: '\n' :: (ts.flatMap Toml.itemLine ++ ']' :: rest)) := by
        simp [Toml.itemLine]
      rw [htext, skipFiller_blank (.inr rfl)]
      iterate 4 rw [skipFiller_blank (.inl rfl)]
      exact skipFiller_stringText _ _
    exact items?_cons hskip ih

/-! ### Spelled values -/

/-- Whether a text **is read as a value** where a line ends behind it, if there is fuel for its length. It
does not begin with a blank. -/
structure Spells (u : Text) (v : Toml) : Prop where
  begins : ∀ c ∈ u.head?, isGap c = false
  nonempty : u ≠ []
  reads : ∀ fuel rest, u.length ≤ fuel →
    value? (fuel + 1) maxDepth (u ++ '\n' :: rest) = some (v, '\n' :: rest)

/-- A **written string** is read back. -/
theorem spells_stringText (t : Text) : Spells (Toml.stringText t) (.text t) := by
  obtain ⟨q, u, hcons, hq⟩ := exists_cons_stringText t
  refine ⟨?_, ?_, ?_⟩
  · intro c hc
    rw [hcons] at hc
    cases hc
    rcases hq with rfl | rfl
    · rfl
    · rfl
  · rw [hcons]
    exact List.cons_ne_nil _ _
  · intro fuel rest _
    exact value?_stringText (endsString_cons (by decide) _) t

/-- A list of more strings takes a line for each. -/
theorem le_length_itemLines (ts : List Text) : ts.length ≤ (ts.flatMap Toml.itemLine).length := by
  induction ts with
  | nil => exact Nat.le_refl 0
  | cons t ts ih =>
    rw [List.flatMap_cons, List.length_append, List.length_cons, Toml.itemLine]
    simp only [List.length_append]
    have hcomma : (",\n" : Text).length = 2 := rfl
    omega

theorem value?_list (h : items? fuel 78 t = some (items, rest)) :
    value? (fuel + 1) maxDepth ('[' :: t) = some (.array items, rest) := by
  show (items? fuel 78 t).map (fun p => (Toml.array p.1, p.2)) = _
  rw [h]
  rfl

/-- A **written list of strings** is read back, in each of its three forms. -/
theorem spells_stringsText (ts : List Text) : Spells (Toml.stringsText ts) (.array (ts.map .text)) := by
  match ts with
  | [] =>
    refine ⟨fun c hc => by cases hc; rfl, List.cons_ne_nil _ _, ?_⟩
    intro fuel rest hfuel
    obtain ⟨k, rfl⟩ : ∃ k, fuel = k + 2 := ⟨fuel - 2, (Nat.sub_add_cancel hfuel).symm⟩
    exact value?_list (items?_nil (skipFiller_stop (by decide) (by decide) _))
  | [t] =>
    have htext (rest : Text) :
        Toml.stringsText [t] ++ rest = '[' :: (Toml.stringText t ++ ']' :: rest) := by
      simp [Toml.stringsText]
    refine ⟨fun c hc => by cases hc; rfl, List.cons_ne_nil _ _, ?_⟩
    intro fuel rest hfuel
    have hlength := congrArg List.length (htext [])
    rw [List.append_nil, List.length_cons, List.length_append, List.length_singleton] at hlength
    obtain ⟨k, rfl⟩ : ∃ k, fuel = k + 2 := ⟨fuel - 2, by omega⟩
    rw [htext]
    exact value?_list (items?_last (skipFiller_stringText _ _))
  | t :: u :: ts =>
    have htext (rest : Text) : Toml.stringsText (t :: u :: ts) ++ rest =
        '[' :: '\n' :: ((t :: u :: ts).flatMap Toml.itemLine ++ ']' :: rest) := by
      simp [Toml.stringsText]
    refine ⟨fun c hc => by cases hc; rfl, List.cons_ne_nil _ _, ?_⟩
    intro fuel rest hfuel
    have hlength := congrArg List.length (htext [])
    rw [List.append_nil, List.length_cons, List.length_cons, List.length_append,
      List.length_singleton] at hlength
    -- each string takes one of the fuel, and no less of the length
    have hlines := le_length_itemLines (t :: u :: ts)
    obtain ⟨k, rfl⟩ : ∃ k, fuel = k + (t :: u :: ts).length + 1 :=
      ⟨fuel - (t :: u :: ts).length - 1, by omega⟩
    rw [htext]
    exact value?_list (items?_itemLines _ _)

/-- A **written truth value** is read back. -/
theorem spells_booleanText (b : Bool) : Spells (Toml.booleanText b) (.boolean b) := by
  cases b with
  | false => exact ⟨fun c hc => by cases hc; rfl, List.cons_ne_nil _ _, fun _ _ _ => rfl⟩
  | true => exact ⟨fun c hc => by cases hc; rfl, List.cons_ne_nil _ _, fun _ _ _ => rfl⟩

/-- A value that begins with no bracket, brace or quote **is a scalar**. -/
theorem value?_scalar {c : Char} (h : c ≠ '[' ∧ c ≠ '\x7b' ∧ c ≠ '"' ∧ c ≠ '\'') (t : Text) :
    value? (fuel + 1) depth (c :: t) = TomlScalar.scalar? (c :: t) := by
  obtain ⟨hbracket, hbrace, hquote, hsingle⟩ := h
  rw [value?]
  · intro _ heq
    exact hbracket (List.cons.inj heq).1
  · intro _ heq
    exact hbrace (List.cons.inj heq).1
  · intro _ heq
    exact hquote (List.cons.inj heq).1
  · intro _ heq
    exact hsingle (List.cons.inj heq).1

/-- A **written number** is read back, if it fits into 64 bits. -/
theorem spells_ofInt {n : Int} (hn : TomlScalar.Fits n) : Spells (Text.ofInt n) (.integer n) := by
  obtain ⟨c, u, hcons, hc⟩ : ∃ c u, Text.ofInt n = c :: u ∧ (c.isDigit = true ∨ c = '-') := by
    cases n with
    | ofNat n =>
      obtain ⟨c, u, hcons, hc⟩ := (TomlScalar.allDigits_ofNat n).exists_cons
      exact ⟨c, u, hcons, .inl hc⟩
    | negSucc n => exact ⟨'-', _, rfl, .inr rfl⟩
  -- By its first character, a number is none of the values that open with a mark of their own.
  have hne (d : Char) (hd : d.isDigit = false ∧ d ≠ '-') : c ≠ d := by
    rcases hc with hdigit | rfl
    · exact TomlScalar.ne_of_isDigit hdigit hd.1
    · exact hd.2.symm
  refine ⟨?_, ?_, ?_⟩
  · intro d hd
    rw [hcons] at hd
    cases hd
    rw [isGap, Bool.or_eq_false_iff, beq_eq_false_iff_ne, beq_eq_false_iff_ne]
    exact ⟨hne _ (by decide), hne _ (by decide)⟩
  · rw [hcons]
    exact List.cons_ne_nil _ _
  · intro fuel rest _
    have hread := TomlScalar.scalar?_ofInt hn rest
    rw [hcons, List.cons_append] at hread ⊢
    rw [value?_scalar ⟨hne _ (by decide), hne _ (by decide), hne _ (by decide), hne _ (by decide)⟩, hread]

end TomlReader

end MailMerge
