import Mathlib.Data.Nat.Digits.Defs
import MailMerge.Proofs.CheckedMarkup
import MailMerge.Proofs.FilledTemplate
import MailMerge.Proofs.Merging

/-!
# References that stand for characters

A reference resolves if its inside is the name of a predefined entity or the number of a character.
Where every ampersand of a text begins such a reference, so does every ampersand of what is behind
some place in the text, and of what is before a character that no reference holds. Hence such texts
can be cut at tags and at tokens.

* `StandsForCharacter` says what the inside of a reference may be, and `resolves_iff` that these
  references are the ones that the check accepts;
* `Referenced` says that every ampersand of a text begins such a reference;
* `Referenced.before` and `Referenced.behind` — where a text can be cut;
* `Referenced.head` — what a scan for bare names passes over.
-/

namespace MailMerge

/-! ### The specification -/

/-- Whether digits are the number of a **Unicode character** other than the null character. -/
def IsCharacterCode (base : Nat) (digits : Text) : Prop :=
  ∃ values, digits.mapM (Text.digitValue? base) = some values ∧
    Nat.ofDigits base values.reverse ≠ 0 ∧ (Nat.ofDigits base values.reverse).isValidChar

/-- Whether a text is the inside of a reference that **stands for a character**: the name of a
predefined entity, or the number of a character, decimal or, behind an `x`, hexadecimal. -/
def StandsForCharacter (inside : Text) : Prop :=
  inside ∈ entityNames ∨
    ∃ digits, (inside = '#' :: digits ∧ IsCharacterCode 10 digits) ∨
      (inside = '#' :: 'x' :: digits ∧ IsCharacterCode 16 digits)

/-- Whether **every ampersand** of a text begins a reference that stands for a character. -/
def Referenced (t : Text) : Prop :=
  ∀ a b, t = a ++ '&' :: b → ∃ inside rest, b = inside ++ ';' :: rest ∧ StandsForCharacter inside

variable {base value n : Nat} {a b t u inside : Text} {c : Char}

/-! ### Numbers of characters -/

theorem ofDigits_reverse (base : Nat) (values : List Nat) :
    Nat.ofDigits base values.reverse = values.foldl (fun n d => base * n + d) 0 := by
  rw [Nat.ofDigits_eq_foldr, List.foldr_reverse]
  simp [Nat.add_comm]

theorem le_foldl_digits (hbase : 0 < base) (values : List Nat) (value : Nat) :
    value ≤ values.foldl (fun n d => base * n + d) value := by
  induction values generalizing value with
  | nil => exact Nat.le_refl value
  | cons d values ih =>
    calc value ≤ base * value := Nat.le_mul_of_pos_left value hbase
      _ ≤ base * value + d := Nat.le_add_right _ _
      _ ≤ _ := ih _

/-- A number is read if it is made of digits and **fits into 32 bits**. -/
theorem readCode_eq_ok_iff (hbase : 0 < base) (hvalue : value < UInt32.size) :
    readCode base value t = .ok n ↔ ∃ values, t.mapM (Text.digitValue? base) = some values ∧
      values.foldl (fun n d => base * n + d) value = n ∧ n < UInt32.size := by
  induction t generalizing value with
  | nil =>
    simp only [readCode, List.mapM_nil]
    constructor
    · intro h
      cases h
      exact ⟨[], rfl, rfl, hvalue⟩
    · rintro ⟨values, hvalues, rfl, -⟩
      cases hvalues
      rfl
  | cons c t ih =>
    rw [readCode, List.mapM_cons]
    simp only [Option.bind_eq_bind, Option.bind_eq_some_iff, Option.pure_def, Option.some.injEq]
    cases hd : Text.digitValue? base c with
    | none => simp
    | some d =>
      dsimp only
      split
      case isTrue hlarge =>
        constructor
        · intro h
          cases h
        · rintro ⟨_, ⟨_, hsome, values, -, rfl⟩, rfl, hlt⟩
          cases hsome
          -- digits that follow make the number no smaller
          exact absurd (hlarge.trans (le_foldl_digits hbase values _)) (Nat.not_le.2 hlt)
      case isFalse hsmall =>
        rw [ih (Nat.not_le.1 hsmall)]
        constructor
        · rintro ⟨values, hvalues, hn⟩
          exact ⟨d :: values, ⟨d, rfl, values, hvalues, rfl⟩, hn⟩
        · rintro ⟨_, ⟨_, hsome, values, hvalues, rfl⟩, hn⟩
          cases hsome
          exact ⟨values, hvalues, hn⟩

/-- The check of the digits of a number in a base. -/
def checkCode (base : Nat) (digits : Text) : Except CharacterFault Unit := do
  let code ←
    match digits with
    | [] => .error .empty
    | c :: _ => if c = '+' ∨ c = '-' then .error .sign else readCode base 0 digits
  if code = 0 then .error .null
  else if isScalarValue code then .ok ()
  else .error (.notACharacter code)

theorem checkCharacter_hexadecimal (digits : Text) :
    checkCharacter ('x' :: digits) = checkCode 16 digits := rfl

theorem checkCharacter_decimal {digits : Text} (h : ∀ r, digits ≠ 'x' :: r) :
    checkCharacter digits = checkCode 10 digits := by
  unfold checkCharacter
  split
  rename_i base digits' heq
  split at heq
  case h_1 r => exact absurd rfl (h r)
  case h_2 =>
    cases heq
    rfl

theorem isScalarValue_iff (n : Nat) : isScalarValue n = true ↔ n.isValidChar := by
  simp [isScalarValue, Nat.isValidChar]

/-- Digits **pass the check** if they are the number of a character. -/
theorem checkCode_eq_ok_iff (hbase : base = 10 ∨ base = 16) {digits : Text} :
    checkCode base digits = .ok () ↔ IsCharacterCode base digits := by
  have hpos : 0 < base := by omega
  unfold checkCode
  cases digits with
  | nil =>
    constructor
    · intro h
      cases h
    · rintro ⟨values, hvalues, hne, -⟩
      cases hvalues
      exact absurd rfl hne
  | cons c digits =>
    dsimp only
    split
    case isTrue hsign =>
      -- a sign is no digit
      have hnone : Text.digitValue? base c = none := by
        rcases hbase with rfl | rfl <;> rcases hsign with rfl | rfl <;> decide
      constructor
      · intro h
        cases h
      · rintro ⟨values, hvalues, -⟩
        rw [List.mapM_cons, hnone] at hvalues
        cases hvalues
    case isFalse =>
      rw [bind_eq_ok_iff]
      simp only [readCode_eq_ok_iff hpos (show 0 < UInt32.size by decide)]
      constructor
      · rintro ⟨n, ⟨values, hvalues, rfl, -⟩, h⟩
        rw [← ofDigits_reverse] at h
        split at h
        case isTrue => cases h
        case isFalse hne =>
          split at h
          case isTrue hvalid => exact ⟨values, hvalues, hne, (isScalarValue_iff _).1 hvalid⟩
          case isFalse => cases h
      · rintro ⟨values, hvalues, hne, hvalid⟩
        refine ⟨_, ⟨values, hvalues, (ofDigits_reverse base values).symm, ?_⟩, ?_⟩
        · -- the numbers of characters fit into 32 bits
          have hsize : UInt32.size = 4294967296 := rfl
          unfold Nat.isValidChar at hvalid
          omega
        · rw [if_neg hne, if_pos ((isScalarValue_iff _).2 hvalid)]

theorem checkCharacter_eq_ok_iff {number : Text} : checkCharacter number = .ok () ↔
    ∃ digits, (number = digits ∧ IsCharacterCode 10 digits) ∨
      (number = 'x' :: digits ∧ IsCharacterCode 16 digits) := by
  by_cases hx : ∃ r, number = 'x' :: r
  · obtain ⟨r, rfl⟩ := hx
    -- a number that begins with an `x` is no decimal one
    have hdecimal : ¬ IsCharacterCode 10 ('x' :: r) := by
      rintro ⟨values, hvalues, -⟩
      rw [List.mapM_cons, show Text.digitValue? 10 'x' = none by decide] at hvalues
      cases hvalues
    rw [checkCharacter_hexadecimal, checkCode_eq_ok_iff (.inr rfl)]
    constructor
    · exact fun h => ⟨r, .inr ⟨rfl, h⟩⟩
    · rintro ⟨_, ⟨rfl, h⟩ | ⟨heq, h⟩⟩
      · exact absurd h hdecimal
      · cases heq
        exact h
  · have hne (r : Text) : number ≠ 'x' :: r := fun h => hx ⟨r, h⟩
    rw [checkCharacter_decimal hne, checkCode_eq_ok_iff (.inl rfl)]
    constructor
    · exact fun h => ⟨_, .inl ⟨rfl, h⟩⟩
    · rintro ⟨digits, ⟨rfl, h⟩ | ⟨heq, -⟩⟩
      · exact h
      · exact absurd heq (hne digits)

/-- A reference **resolves** if it stands for a character. -/
theorem resolves_iff : Resolves inside ↔ StandsForCharacter inside := by
  unfold Resolves checkReference StandsForCharacter
  split
  case h_1 number =>
    have hname : '#' :: number ∉ entityNames := by
      intro hmem
      have hhead : ∀ name ∈ entityNames, name.head? ≠ some '#' := by decide
      exact hhead _ hmem rfl
    rw [mapError_eq_ok_iff, checkCharacter_eq_ok_iff]
    simp [hname]
  case h_2 hnot =>
    constructor
    · intro h
      split at h
      case isTrue hname => exact .inl hname
      case isFalse => cases h
    · rintro (hname | ⟨digits, ⟨rfl, -⟩ | ⟨rfl, -⟩⟩)
      · rw [if_pos hname]
      · exact absurd rfl (hnot _)
      · exact absurd rfl (hnot _)

/-! ### Texts of references -/

theorem StandsForCharacter.not_mem (h : StandsForCharacter inside)
    (hc : isReferenceChar c = false) :
    c ∉ inside := (resolves_iff.2 h).not_mem hc

/-- A text **without ampersands** has no references at all. -/
theorem referenced_of_not_mem (h : '&' ∉ t) : Referenced t := by
  rintro a b rfl
  exact absurd (List.mem_append_right a (List.mem_cons_self ..)) h

namespace Referenced

/-- What is **behind some place** in a text. -/
theorem behind (h : Referenced (a ++ b)) : Referenced b := by
  rintro u v rfl
  exact h (a ++ u) v (by rw [List.append_assoc])

theorem append (ha : Referenced a) (hb : Referenced b) : Referenced (a ++ b) := by
  intro u v huv
  rcases List.append_eq_append_iff.1 huv with ⟨w, -, hb'⟩ | ⟨w, rfl, hw⟩
  · exact hb w v hb'
  · cases w with
    | nil => exact hb [] v hw.symm
    | cons d w =>
      obtain ⟨rfl, rfl⟩ := List.cons.inj hw
      -- the reference ends in the first text
      obtain ⟨inside, rest, rfl, hinside⟩ := ha u w rfl
      exact ⟨inside, rest ++ b, by simp, hinside⟩

theorem cons (hc : c ≠ '&') (h : Referenced t) : Referenced (c :: t) :=
  (referenced_of_not_mem (t := [c]) (by simpa using hc.symm)).append h

theorem reference (h : StandsForCharacter inside) : Referenced ('&' :: inside ++ [';']) := by
  intro u v huv
  cases u with
  | nil => exact ⟨inside, [], (List.cons.inj huv).2.symm, h⟩
  | cons d u =>
    have hmem : '&' ∉ inside ++ [';'] := by simpa using h.not_mem (by decide)
    have hinside : inside ++ [';'] = u ++ '&' :: v := (List.cons.inj huv).2
    rw [hinside] at hmem
    exact absurd (List.mem_append_right u (List.mem_cons_self ..)) hmem

/-- What is **before a character** that no reference holds. -/
theorem before (h : Referenced (a ++ c :: b)) (hc : isReferenceChar c = false) (hsemi : c ≠ ';') :
    Referenced a := by
  rintro u v rfl
  rw [List.append_assoc, List.cons_append] at h
  obtain ⟨inside, rest, heq, hinside⟩ := h u (v ++ c :: b) rfl
  -- the reference is over before the character
  have hmem : c ∉ ('&' :: inside ++ [';']).tail := by simpa [hsemi] using hinside.not_mem hc
  have htext : ('&' :: inside ++ [';']) ++ rest = ('&' :: v) ++ c :: b := by simp [heq]
  rcases Markup.exists_of_append_eq htext hmem with hnil | ⟨w, hv, -⟩
  · cases hnil
  · exact ⟨inside, w, by simpa using hv, hinside⟩

/-- What a scan for bare names **passes over** at the head of a text. -/
theorem head (h : Referenced (c :: t)) :
    Referenced (c :: t.take (MailMerge.reference (c :: t) - 1)) := by
  by_cases hamp : c = '&'
  · subst hamp
    obtain ⟨inside, rest, rfl, hinside⟩ := h [] t rfl
    have hlength := reference_of_resolves (resolves_iff.2 hinside) rest
    rw [List.cons_append] at hlength
    have htake : (inside ++ ';' :: rest).take (inside.length + 2 - 1) = inside ++ [';'] := by
      have htext : inside ++ ';' :: rest = (inside ++ [';']) ++ rest := by simp
      rw [htext, show inside.length + 2 - 1 = (inside ++ [';']).length by simp, List.take_left]
    rw [hlength, htake]
    exact .reference hinside
  · rw [reference_eq_zero hamp]
    exact .cons hamp (referenced_of_not_mem List.not_mem_nil)

end Referenced

/-- Character data that **passes the check**. -/
theorem referenced_of_checkReferences (h : checkReferences t = .ok ()) : Referenced t := by
  unfold checkReferences at h
  generalize Text.utf8Size t = length at h
  generalize 0 = offset at h
  fun_induction checkReferencesFrom length offset t with
  | case1 => exact referenced_of_not_mem List.not_mem_nil
  | case2 offset rest inside after hdrop hcheck ih =>
    have hinside := resolves_iff.1 (checkReference_eq_ok_iff.1 hcheck)
    have hrest : '&' :: rest = ('&' :: inside ++ [';']) ++ after := by
      rw [eq_takeWhile_append hdrop]
      simp [inside]
    rw [hrest]
    exact (Referenced.reference hinside).append (ih h)
  | case3 => cases h
  | case4 => cases h
  | case5 offset c rest hamp ih => exact .cons hamp (ih h)

/-- **Sound markup** whose tags have no ampersands. -/
theorem Markup.referenced {tags : List Text} (h : Markup tags t) (htags : ∀ tag ∈ tags, '&' ∉ tag) :
    Referenced t := by
  induction h with
  | nil => exact referenced_of_not_mem List.not_mem_nil
  | char _ _ hamp _ ih => exact .cons hamp (ih htags)
  | @reference tags inside t hr _ ih =>
    have htext : '&' :: inside ++ ';' :: t = ('&' :: inside ++ [';']) ++ t := by simp
    rw [htext]
    exact (Referenced.reference (resolves_iff.1 hr)).append (ih htags)
  | tag _ _ ih =>
    obtain ⟨htag, htags⟩ := List.forall_mem_cons.1 htags
    exact (referenced_of_not_mem htag).append (ih htags)

end MailMerge
