import Mathlib.Data.List.TakeWhile
import MailMerge.Proofs.Segments
import MailMerge.Proofs.SoundMarkup

/-!
# Matching tokens

A token is an opening delimiter, a name without certain characters, and a closing delimiter that
begins with one of them. Hence a token is matched the same way whatever follows it, never reaches
over a character that neither delimiters nor names hold, and can be cut out of character data.

* `Delimiters.token_append` and `Delimiters.exists_of_token` — what a token is;
* `Delimiters.token_stopsAt` — no token reaches over a character that it cannot hold;
* `Delimiters.markup_of_token` — character data behind a token is character data.
-/

namespace MailMerge

namespace Delimiters

/-- What is true of the delimiters of every convention. -/
structure Proper (d : Delimiters) : Prop where
  opening_ne_nil : d.opening ≠ []
  closing_head : ∃ c t, d.closing = c :: t ∧ c ∈ d.excluded

theorem proper_of_mem {convention : PlaceholderConvention} {d : Delimiters}
    (h : convention.delimiters? = some d) : d.Proper := by
  cases convention with
  | braces =>
    cases h
    exact ⟨List.cons_ne_nil _ _, _, _, rfl, by decide⟩
  | angles =>
    cases h
    exact ⟨List.cons_ne_nil _ _, _, _, rfl, by decide⟩
  | bare => cases h

variable {d : Delimiters} {inner rest t : Text}

/-- The text of a token. -/
def tokenText (d : Delimiters) (inner : Text) : Text := d.opening ++ inner ++ d.closing

theorem length_tokenText :
    (d.tokenText inner).length = d.opening.length + inner.length + d.closing.length := by
  rw [tokenText, List.length_append, List.length_append]

theorem tokenText_ne_nil (hd : d.Proper) (inner : Text) : d.tokenText inner ≠ [] := by
  unfold tokenText
  rw [List.append_assoc]
  exact List.append_ne_nil_of_left_ne_nil hd.opening_ne_nil _

/-- A **token is matched** whatever follows it. -/
theorem token_append (hd : d.Proper) (hne : inner ≠ []) (hinner : ∀ c ∈ inner, c ∉ d.excluded)
    (rest : Text) : d.token (d.tokenText inner ++ rest) = (d.tokenText inner).length := by
  obtain ⟨c, closing, hclosing, hc⟩ := hd.closing_head
  have hprefix : Text.dropPrefix? d.opening (d.tokenText inner ++ rest) =
      some (inner ++ (d.closing ++ rest)) :=
    Text.dropPrefix?_eq_some_iff.2 (by simp [tokenText])
  have htake : (inner ++ (d.closing ++ rest)).takeWhile (fun c => !d.excluded.contains c) =
      inner := by
    rw [hclosing, List.cons_append]
    exact takeWhile_append_cons (fun a ha => by simpa using hinner a ha) (by simpa using hc)
  have hstart : Text.startsWith d.closing (d.closing ++ rest) = true := by
    rw [Text.startsWith, Text.dropPrefix?_eq_some_iff.2 rfl]
    rfl
  rw [token, hprefix]
  dsimp only
  rw [htake, List.drop_left, hstart, length_tokenText]
  simp [hne]

/-- What is **matched is a token**. -/
theorem exists_of_token {n : Nat} (h : d.token t = n + 1) :
    ∃ inner rest, t = d.tokenText inner ++ rest ∧ inner ≠ [] ∧ (∀ c ∈ inner, c ∉ d.excluded) ∧
      n + 1 = (d.tokenText inner).length := by
  unfold token at h
  split at h
  case h_1 => cases h
  case h_2 rest hprefix =>
    dsimp only at h
    generalize hinner : rest.takeWhile (fun c => !d.excluded.contains c) = inner at h
    split at h
    case isTrue => cases h
    case isFalse hne =>
      split at h
      case isFalse => cases h
      case isTrue hstart =>
        -- the longest run of characters that may stand inside is followed by the closing delimiter
        obtain ⟨after, hafter⟩ := Option.isSome_iff_exists.1 hstart
        have hdrop := Text.dropPrefix?_eq_some_iff.1 hafter
        rw [← hinner] at hdrop
        have hrest := eq_takeWhile_append hdrop
        rw [hinner] at hrest
        refine ⟨inner, after, ?_, ?_, ?_, ?_⟩
        · rw [Text.dropPrefix?_eq_some_iff.1 hprefix, hrest, tokenText]
          simp
        · intro hnil
          exact hne (by rw [hnil]; rfl)
        · intro c hc
          rw [← hinner] at hc
          simpa using List.mem_takeWhile_imp hc
        · rw [length_tokenText]
          exact h.symm

theorem tokenName_tokenText (inner : Text) : d.tokenName (d.tokenText inner) = Text.trim inner := by
  have hsize : (d.tokenText inner).length - d.opening.length - d.closing.length = inner.length := by
    rw [Delimiters.length_tokenText]
    omega
  rw [Delimiters.tokenName, hsize, Delimiters.tokenText, List.append_assoc, List.drop_left,
    List.take_left]

/-- All matches of the matcher of tokens **are tokens**. -/
theorem exists_of_mem_matchesIn_token {t piece : Text} (h : piece ∈ matchesIn d.token t) :
    ∃ inner, piece = d.tokenText inner ∧ inner ≠ [] ∧ ∀ c ∈ inner, c ∉ d.excluded := by
  rw [matchesIn, List.mem_filterMap] at h
  obtain ⟨segment, hsegment, hpiece⟩ := h
  fun_induction segments d.token t with
  | case1 => cases hsegment
  | case2 c t _ ih =>
    rcases List.mem_cons.1 hsegment with rfl | hsegment
    · cases hpiece
    · exact ih hsegment
  | case3 c t n hmatch ih =>
    rcases List.mem_cons.1 hsegment with rfl | hsegment
    · cases hpiece
      obtain ⟨inner, rest, htext, hne, hinner, hlength⟩ := Delimiters.exists_of_token hmatch
      refine ⟨inner, ?_, hne, hinner⟩
      have htake := congrArg (List.take (n + 1)) htext
      rwa [hlength, List.take_left, ← hlength, List.take_succ_cons] at htake
    · exact ih hsegment

/-- The characters that a token cannot hold. -/
def Free (d : Delimiters) (c : Char) : Prop := c ∉ d.opening ∧ c ∉ d.closing ∧ c ∈ d.excluded

theorem free_open {convention : PlaceholderConvention} (h : convention.delimiters? = some d) :
    d.Free '<' := by
  cases convention with
  | braces => cases h; exact ⟨by decide, by decide, by decide⟩
  | angles => cases h; exact ⟨by decide, by decide, by decide⟩
  | bare => cases h

theorem free_close {convention : PlaceholderConvention} (h : convention.delimiters? = some d) :
    d.Free '>' := by
  cases convention with
  | braces => cases h; exact ⟨by decide, by decide, by decide⟩
  | angles => cases h; exact ⟨by decide, by decide, by decide⟩
  | bare => cases h

theorem Free.not_mem_tokenText {c : Char} (hc : d.Free c) (hinner : ∀ c ∈ inner, c ∉ d.excluded) :
    c ∉ d.tokenText inner := by
  intro hmem
  rw [tokenText, List.mem_append, List.mem_append] at hmem
  rcases hmem with (hmem | hmem) | hmem
  · exact hc.1 hmem
  · exact hinner c hmem hc.2.2
  · exact hc.2.1 hmem

/-- No token reaches over **a character that it cannot hold**. -/
theorem token_stopsAt (hd : d.Proper) {c : Char} (hc : d.Free c) : Matcher.StopsAt d.token c where
  append := fun u v => by
    -- a token that is there stays, and a new one would have to hold the character
    cases hu : d.token u with
    | succ n =>
      obtain ⟨inner, rest, rfl, hne, hinner, hlength⟩ := exists_of_token hu
      rw [List.append_assoc, token_append hd hne hinner, hlength]
    | zero =>
      cases huv : d.token (u ++ c :: v) with
      | zero => rfl
      | succ n =>
        obtain ⟨inner, rest, htext, hne, hinner, -⟩ := exists_of_token huv
        have hmem := hc.not_mem_tokenText hinner
        rcases Markup.exists_of_append_eq htext.symm fun h => hmem (List.mem_of_mem_tail h) with
          rfl | ⟨u', rfl, -⟩
        · -- the token would begin with that character
          obtain ⟨a, token, htoken⟩ := List.exists_cons_of_ne_nil (tokenText_ne_nil hd inner)
          rw [htoken] at htext hmem
          exact absurd ((List.cons.inj htext).1 ▸ List.mem_cons_self ..) hmem
        · rw [token_append hd hne hinner] at hu
          exact absurd (List.eq_nil_of_length_eq_zero hu) (tokenText_ne_nil hd inner)
  length_le := fun t => by
    cases ht : d.token t with
    | zero => exact Nat.zero_le _
    | succ n =>
      obtain ⟨inner, rest, rfl, -, -, hlength⟩ := exists_of_token ht
      rw [hlength, List.length_append]
      exact Nat.le_add_right _ _

/-! ### Tokens in character data -/

/-- A token begins with the first character of the opening delimiter. -/
theorem token_opensWith {opening : Char} {t : Text} (h : d.opening = opening :: t) :
    d.token.OpensWith opening := fun c u hc => by
  rw [token, h, Text.dropPrefix?, if_neg hc.symm]

/-- What stands behind a token in **character data** is character data. -/
theorem markup_of_token {convention : PlaceholderConvention}
    (hd : convention.delimiters? = some d)
    {inner rest : Text} (h : Markup [] (d.tokenText inner ++ rest)) : Markup [] rest := by
  -- the closing delimiter begins with a character that no reference holds
  cases convention with
  | braces =>
    cases hd
    have htext : tokenText ⟨"\x7b\x7b", "\x7d\x7d", ['\x7b', '\x7d', '<', '>']⟩ inner ++ rest =
        ("\x7b\x7b" ++ inner) ++ '\x7d' :: '\x7d' :: rest := by simp [tokenText]
    rw [htext] at h
    have hclosing := (h.split_data (by decide) (by decide)).2
    exact ((hclosing.of_char (by decide) (by decide)).2.of_char (by decide) (by decide)).2
  | angles =>
    cases hd
    have htext : tokenText ⟨"&lt;&lt;", "&gt;&gt;", ['&', '<', '>']⟩ inner ++ rest =
        ("&lt;&lt;" ++ inner) ++ '&' :: ("gt;&gt;" ++ rest) := by simp [tokenText]
    rw [htext] at h
    have hclosing := (h.split_data (by decide) (by decide)).2
    have gt {t : Text} (h : Markup [] ('&' :: 'g' :: 't' :: ';' :: t)) : Markup [] t := by
      have hgt : Markup [] ('&' :: "gt" ++ [';']) :=
        .reference (resolves_of_mem_entityNames (by decide)) .nil
      obtain ⟨tags, htags, ht⟩ := hgt.cancel h
      rw [List.nil_append] at htags
      exact htags ▸ ht
    exact gt (gt hclosing)
  | bare => cases hd

end Delimiters

end MailMerge
