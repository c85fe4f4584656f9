import Mathlib.Data.List.TakeWhile
import MailMerge.Placeholder.Substitute
import MailMerge.Markup.Reference
import MailMerge.Proofs.Segments

/-!
# References that resolve

A reference is an ampersand, its inside and a semicolon. Its inside holds letters, digits and the
number sign alone, whence all other characters stand between references. A resolving reference is
passed over whole when bare names are looked for.

* `Resolves` says of the inside of a reference that it resolves;
* `Resolves.not_mem` — what a resolving reference does not hold;
* `IsReference` is a reference as it is written, whether it resolves or not;
* `IsReference.reference_append` and `exists_of_reference` — the matcher of references takes these
  and nothing else.
-/

namespace MailMerge

/-- Whether a text is the inside of a reference that **resolves**. -/
def Resolves (inside : Text) : Prop := checkReference 0 inside = .ok ()

theorem checkReference_eq_ok_iff {start : Nat} {inside : Text} :
    checkReference start inside = .ok () ↔ Resolves inside := by
  unfold Resolves checkReference
  split
  · exact Iff.rfl
  · split <;> simp

/-- The characters of a number that can be read are its digits. -/
theorem digit_of_readCode {base value n : Nat} {t : Text} (h : readCode base value t = .ok n) :
    ∀ c ∈ t, (Text.digitValue? base c).isSome := by
  fun_induction readCode base value t with
  | case1 => simp
  | case2 => cases h
  | case3 => cases h
  | case4 value c t d hd _ ih =>
    intro e he
    rcases List.mem_cons.1 he with rfl | he
    · rw [hd]; rfl
    · exact ih h e he

/-- Letters and digits are **three ranges** of characters. -/
theorem isAlphanum_eq (c : Char) : c.isAlphanum = (decide (65 ≤ c.val ∧ c.val ≤ 90) ||
    (decide (97 ≤ c.val) && decide (c.val ≤ 122)) || (decide (48 ≤ c.val) && decide (c.val ≤ 57))) := rfl

theorem isAlphanum_of_digitValue? {base : Nat} {c : Char} (h : (Text.digitValue? base c).isSome) :
    c.isAlphanum = true := by
  simp only [isAlphanum_eq, Bool.or_eq_true, Bool.and_eq_true, decide_eq_true_eq]
  -- the three ranges of digits lie in the three ranges of alphanumeric characters
  unfold Text.digitValue? at h
  dsimp only at h
  split at h
  case isTrue hd => exact .inr hd
  case isFalse =>
    split at h
    case isTrue hd => exact .inl (.inr ⟨hd.1, UInt32.le_trans hd.2 (by decide)⟩)
    case isFalse =>
      split at h
      case isTrue hd => exact .inl (.inl ⟨hd.1, UInt32.le_trans hd.2 (by decide)⟩)
      case isFalse => cases h

theorem isDigit_of_digitValue? {c : Char} (h : (Text.digitValue? 10 c).isSome) :
    c.isDigit = true := by
  simp only [Char.isDigit, Bool.and_eq_true, decide_eq_true_eq]
  unfold Text.digitValue? at h
  dsimp only at h
  split at h
  case isTrue hd => exact hd
  case isFalse =>
    -- a letter stands for ten or more
    split at h
    case isTrue =>
      simp only [Option.filter_some] at h
      split at h
      case isTrue hlt => exact absurd (of_decide_eq_true hlt) (by omega)
      case isFalse => cases h
    case isFalse =>
      split at h
      case isTrue =>
        simp only [Option.filter_some] at h
        split at h
        case isTrue hlt => exact absurd (of_decide_eq_true hlt) (by omega)
        case isFalse => cases h
      case isFalse => cases h

/-- The number of a character reference: hexadecimal digits behind an `x`, or decimal ones. -/
theorem digits_of_checkCharacter {number : Text} (h : checkCharacter number = .ok ()) :
    ∃ digits, digits ≠ [] ∧
      ((number = 'x' :: digits ∧ ∀ c ∈ digits, (Text.digitValue? 16 c).isSome) ∨
        (number = digits ∧ ∀ c ∈ digits, (Text.digitValue? 10 c).isSome)) := by
  unfold checkCharacter at h
  split at h
  rename_i base digits heq
  -- the digits are read in the same way, whatever the base
  have hread : digits ≠ [] ∧ ∀ c ∈ digits, (Text.digitValue? base c).isSome := by
    cases digits with
    | nil => cases h
    | cons c digits =>
      dsimp only at h
      split at h
      case isTrue => cases h
      case isFalse =>
        cases hcode : readCode base 0 (c :: digits) with
        | error => rw [hcode] at h; cases h
        | ok n => exact ⟨List.cons_ne_nil _ _, digit_of_readCode hcode⟩
  obtain ⟨hne, hdigits⟩ := hread
  -- the mark `x` decides the base
  split at heq
  case h_1 r =>
    cases heq
    exact ⟨digits, hne, .inl ⟨rfl, hdigits⟩⟩
  case h_2 r _ =>
    cases heq
    exact ⟨_, hne, .inr ⟨rfl, hdigits⟩⟩

/-- The characters that a reference may hold between `&` and `;`. -/
def isReferenceChar (c : Char) : Bool := c == '#' || c.isAlphanum

theorem Resolves.forall_isReferenceChar {inside : Text} (h : Resolves inside) :
    ∀ c ∈ inside, isReferenceChar c = true := by
  unfold Resolves checkReference at h
  split at h
  -- a character reference: a number sign, maybe an `x`, and digits
  case h_1 number =>
    have hnumber : checkCharacter number = .ok () := by
      cases hc : checkCharacter number with
      | error => rw [hc] at h; cases h
      | ok => rfl
    obtain ⟨digits, -, ⟨rfl, hdigits⟩ | ⟨rfl, hdigits⟩⟩ := digits_of_checkCharacter hnumber
    · intro c hc
      simp only [List.mem_cons] at hc
      rcases hc with rfl | rfl | hc
      · rfl
      · rfl
      · simp [isReferenceChar, isAlphanum_of_digitValue? (hdigits c hc)]
    · intro c hc
      rcases List.mem_cons.1 hc with rfl | hc
      · rfl
      · simp [isReferenceChar, isAlphanum_of_digitValue? (hdigits c hc)]
  case h_2 =>
    split at h
    case isTrue hname =>
      -- a name: each of the predefined ones is made of letters
      have all : (entityNames.all fun name => name.all isReferenceChar) = true := by decide
      exact List.all_eq_true.1 (List.all_eq_true.1 all inside hname)
    case isFalse => cases h

/-- No reference holds a character that may not stand in one. -/
theorem Resolves.not_mem {inside : Text} (h : Resolves inside) {c : Char}
    (hc : isReferenceChar c = false) : c ∉ inside := fun hmem => by
  rw [h.forall_isReferenceChar c hmem] at hc
  cases hc

/-- The predefined entities resolve. -/
theorem resolves_of_mem_entityNames {name : Text} (h : name ∈ entityNames) : Resolves name := by
  have hhead : ∀ name ∈ entityNames, name.head? ≠ some '#' := by decide
  unfold Resolves checkReference
  split
  case h_1 number => exact absurd rfl (hhead _ h)
  case h_2 => rw [if_pos h]

/-! ### Matching -/

/-- A **reference as it is written**: to a character by its number, decimal or hexadecimal, or to an
entity by its name, a letter with letters and digits behind it. -/
inductive IsReference : Text → Prop
  | decimal {digits : Text} (hne : digits ≠ []) (h : ∀ c ∈ digits, c.isDigit = true) :
      IsReference ('&' :: '#' :: (digits ++ [';']))
  | hexadecimal {digits : Text} (hne : digits ≠ [])
      (h : ∀ c ∈ digits, (Text.digitValue? 16 c).isSome) :
      IsReference ('&' :: '#' :: 'x' :: (digits ++ [';']))
  | entity {first : Char} {name : Text} (hfirst : first.isAlpha = true)
      (h : ∀ c ∈ name, c.isAlphanum = true) : IsReference ('&' :: first :: (name ++ [';']))

/-- References that resolve **are references**. -/
theorem isReference_of_resolves {inside : Text} (h : Resolves inside) :
    IsReference ('&' :: inside ++ [';']) := by
  unfold Resolves checkReference at h
  split at h
  case h_1 number =>
    have hnumber : checkCharacter number = .ok () := by
      cases hc : checkCharacter number with
      | error => rw [hc] at h; cases h
      | ok => rfl
    obtain ⟨digits, hne, ⟨rfl, hdigits⟩ | ⟨rfl, hdigits⟩⟩ := digits_of_checkCharacter hnumber
    · exact .hexadecimal hne hdigits
    · exact .decimal hne fun c hc => isDigit_of_digitValue? (hdigits c hc)
  case h_2 =>
    split at h
    case isTrue hname =>
      simp only [entityNames, List.mem_cons, List.not_mem_nil, or_false] at hname
      rcases hname with rfl | rfl | rfl | rfl | rfl
      all_goals exact .entity (by decide) (by decide)
    case isFalse => cases h

theorem IsReference.ne_nil {t : Text} (h : IsReference t) : t ≠ [] := by
  cases h <;> exact List.cons_ne_nil _ _

/-- A character that no reference holds in its inside is **in no reference**, save for its ends. -/
theorem IsReference.not_mem {c : Char} {t : Text} (h : IsReference t) (hc : isReferenceChar c = false)
    (hamp : c ≠ '&') (hsemi : c ≠ ';') : c ∉ t := by
  rw [isReferenceChar, Bool.or_eq_false_iff, beq_eq_false_iff_ne] at hc
  obtain ⟨hnumber, halphanum⟩ := hc
  have hx : c ≠ 'x' := by
    rintro rfl
    exact absurd halphanum (by decide)
  cases h with
  | decimal _ h =>
    have hdigits : c ∉ _ := fun hmem => by
      rw [Char.isAlphanum, h c hmem, Bool.or_true] at halphanum
      cases halphanum
    simp [hamp, hnumber, hsemi, hdigits]
  | hexadecimal _ h =>
    have hdigits : c ∉ _ := fun hmem => by
      rw [isAlphanum_of_digitValue? (h c hmem)] at halphanum
      cases halphanum
    simp [hamp, hnumber, hsemi, hx, hdigits]
  | @entity first name hfirst h =>
    have hhead : c ≠ first := by
      rintro rfl
      rw [Char.isAlphanum, hfirst, Bool.true_or] at halphanum
      cases halphanum
    have hname : c ∉ name := fun hmem => by
      rw [h c hmem] at halphanum
      cases halphanum
    simp [hamp, hhead, hsemi, hname]

/-- The matcher of references takes a reference **whole**, whatever follows it. -/
theorem IsReference.reference_append {u : Text} (h : IsReference u) (t : Text) :
    reference (u ++ t) = u.length := by
  cases h with
  | @hexadecimal digits hne h =>
    have htake : (digits ++ ';' :: t).takeWhile (fun c => (Text.digitValue? 16 c).isSome) =
        digits := takeWhile_append_cons h (by decide)
    simp [reference, htake, hne, Text.startsWith, Text.dropPrefix?]
  | @decimal digits hne h =>
    have htake : (digits ++ ';' :: t).takeWhile Char.isDigit = digits :=
      takeWhile_append_cons h (by decide)
    obtain ⟨d, digits, rfl⟩ := List.exists_cons_of_ne_nil hne
    -- decimal digits begin with no `x`, so that they are not taken for hexadecimal ones
    have hx : d ≠ 'x' := by
      rintro rfl
      exact absurd (h 'x' (List.mem_cons_self ..)) (by decide)
    simp only [List.cons_append, List.append_assoc, List.nil_append] at htake ⊢
    unfold reference
    split
    case h_1 heq => cases heq; exact absurd rfl hx
    case h_2 heq =>
      cases heq
      simp [htake, Text.startsWith, Text.dropPrefix?]
    case h_3 hnumber heq =>
      cases heq
      exact (hnumber rfl).elim
    case h_4 hother => exact (hother _ _ rfl).elim
  | @entity first name hfirst h =>
    have htake : (name ++ ';' :: t).takeWhile isAsciiAlphanumeric = name :=
      takeWhile_append_cons h (by decide)
    have hfirst' : first ≠ '#' := by
      rintro rfl
      exact absurd hfirst (by decide)
    simp only [List.cons_append, List.append_assoc, List.nil_append]
    unfold reference
    split
    case h_1 heq => exact absurd (List.cons.inj (List.cons.inj heq).2).1 hfirst'
    case h_2 heq => exact absurd (List.cons.inj (List.cons.inj heq).2).1 hfirst'
    case h_3 heq =>
      cases heq
      simp [htake, hfirst, Text.startsWith, Text.dropPrefix?]
    case h_4 hother => exact (hother _ _ rfl).elim

/-- What the matcher of references takes **is a reference**. -/
theorem exists_of_reference {n : Nat} {t : Text} (h : reference t = n + 1) :
    ∃ u rest, t = u ++ rest ∧ IsReference u ∧ n + 1 = u.length := by
  -- what is read off is of one kind, and followed by the semicolon
  have hends {p : Char → Bool} {t : Text}
      (hsemi : Text.startsWith ";" (t.drop (t.takeWhile p).length) = true) :
      (∃ rest, t = t.takeWhile p ++ ';' :: rest) ∧ ∀ c ∈ t.takeWhile p, p c = true := by
    obtain ⟨rest, hrest⟩ := Text.startsWith_iff.1 hsemi
    exact ⟨⟨rest, eq_takeWhile_append hrest⟩, fun c hc => List.mem_takeWhile_imp hc⟩
  unfold reference at h
  split at h
  case h_1 r =>
    dsimp only at h
    split at h
    case isFalse => cases h
    case isTrue hread =>
      rw [Bool.and_eq_true] at hread
      obtain ⟨⟨rest, hrest⟩, hkind⟩ := hends hread.2
      refine ⟨_, rest, ?_, .hexadecimal ?_ hkind, ?_⟩
      · rw [List.cons_append, List.cons_append, List.cons_append, List.append_assoc]
        exact congrArg (fun r => '&' :: '#' :: 'x' :: r) hrest
      · simpa using hread.1
      · rw [← h]
        simp
  case h_2 r _ =>
    dsimp only at h
    split at h
    case isFalse => cases h
    case isTrue hread =>
      rw [Bool.and_eq_true] at hread
      obtain ⟨⟨rest, hrest⟩, hkind⟩ := hends hread.2
      refine ⟨_, rest, ?_, .decimal ?_ hkind, ?_⟩
      · rw [List.cons_append, List.cons_append, List.append_assoc]
        exact congrArg (fun r => '&' :: '#' :: r) hrest
      · simpa using hread.1
      · rw [← h]
        simp
  case h_3 c r _ _ =>
    dsimp only at h
    split at h
    case isFalse => cases h
    case isTrue hread =>
      rw [Bool.and_eq_true] at hread
      obtain ⟨⟨rest, hrest⟩, hkind⟩ := hends hread.2
      refine ⟨_, rest, ?_, .entity hread.1 hkind, ?_⟩
      · rw [List.cons_append, List.cons_append, List.append_assoc]
        exact congrArg (fun r => '&' :: c :: r) hrest
      · rw [← h]
        simp
  case h_4 => cases h

/-- No reference begins where **the matcher finds none**. -/
theorem reference_eq_zero_iff {t : Text} :
    reference t = 0 ↔ ∀ u, IsReference u → ¬ u <+: t := by
  constructor
  · rintro h u hu ⟨rest, rfl⟩
    rw [hu.reference_append] at h
    exact hu.ne_nil (List.eq_nil_of_length_eq_zero h)
  · intro h
    cases hmatch : reference t with
    | zero => rfl
    | succ n =>
      obtain ⟨u, rest, rfl, hu, -⟩ := exists_of_reference hmatch
      exact absurd (List.prefix_append u rest) (h u hu)

/-- The matcher of references takes a resolving reference whole. -/
theorem reference_of_resolves {inside : Text} (h : Resolves inside) (t : Text) :
    reference ('&' :: inside ++ ';' :: t) = inside.length + 2 := by
  have hmatch := (isReference_of_resolves h).reference_append t
  rw [List.append_assoc, List.singleton_append] at hmatch
  rw [hmatch]
  simp

end MailMerge
