import MailMerge.Proofs.Segments

/-!
# Texts in which brackets only delimit tags

Where `<` and `>` only delimit tags, a text falls into characters and tags, and a matcher that takes a tag
whole or not at all finds in a part of the text what it finds there in the whole. So the first match of two
texts put together is the first match of the one or, if there is none, the first match of the other; and a
match stays the first one whatever is put behind it, and whatever is put before it that holds none.

* `Bracketed` says that `<` and `>` only delimit tags, and `bracketed_iff` decides it;
* `CutsAtBrackets` says that texts of some kind can be put together, and cut before `<` and behind `>`;
* `Matcher.TakesBrackets` says that all matches begin with `<` and end with `>`, and
  `Matcher.TakesTags` that they are single tags;
* `CutsOut` says in addition that matches between brackets, and blanks at the ends, can be dropped;
* `findMatch?_append` — the first match in two texts, and `matchesIn_append` — all matches in them;
* `findMatch?_replace` — what is around a match may change.
-/

namespace MailMerge

/-! ### Brackets -/

/-- `<` and `>` **only delimit tags** in a text. -/
inductive Bracketed : Text → Prop
  | nil : Bracketed []
  | char {c : Char} {t : Text} (hopen : c ≠ '<') (hclose : c ≠ '>') : Bracketed t → Bracketed (c :: t)
  | tag {inner t : Text} (hopen : '<' ∉ inner) (hclose : '>' ∉ inner) :
      Bracketed t → Bracketed ('<' :: inner ++ '>' :: t)

/-- What a character does to the place in a text, inside a tag or not. There is no bracket inside a tag
but its end, and no end of a tag outside. -/
def bracketStep (inTag : Bool) (c : Char) : Option Bool :=
  if c = '<' then (if inTag then none else some true)
  else if c = '>' then (if inTag then some false else none)
  else some inTag

/-- The place behind a text, inside a tag or not, if its brackets stand in turns. -/
def bracketScan (inTag : Bool) (t : Text) : Option Bool := t.foldlM bracketStep inTag

variable {t u v inner : Text} {c : Char} {inTag : Bool}

theorem bracketScan_cons (inTag : Bool) (c : Char) (t : Text) :
    bracketScan inTag (c :: t) = (bracketStep inTag c).bind fun q => bracketScan q t := rfl

theorem bracketScan_append (inTag : Bool) (t u : Text) :
    bracketScan inTag (t ++ u) = (bracketScan inTag t).bind fun q => bracketScan q u := by
  rw [bracketScan, List.foldlM_append]
  rfl

theorem bracketStep_of_ne (hopen : c ≠ '<') (hclose : c ≠ '>') (inTag : Bool) :
    bracketStep inTag c = some inTag := by
  rw [bracketStep, if_neg hopen, if_neg hclose]

theorem bracketScan_of_not_mem (hopen : '<' ∉ u) (hclose : '>' ∉ u) (inTag : Bool) :
    bracketScan inTag u = some inTag := by
  induction u with
  | nil => rfl
  | cons c u ih =>
    rw [bracketScan_cons, bracketStep_of_ne (List.ne_of_not_mem_cons hopen).symm
      (List.ne_of_not_mem_cons hclose).symm]
    exact ih (List.not_mem_of_not_mem_cons hopen) (List.not_mem_of_not_mem_cons hclose)

/-- Inside a tag, a text goes on with the `>` that closes it. -/
theorem exists_of_bracketScan (h : bracketScan true t = some false) :
    ∃ inner u, t = inner ++ '>' :: u ∧ '<' ∉ inner ∧ '>' ∉ inner ∧
      bracketScan false u = some false := by
  induction t with
  | nil => cases h
  | cons c t ih =>
    rw [bracketScan_cons] at h
    by_cases hopen : c = '<'
    · -- no tag opens inside of a tag
      subst hopen
      cases h
    · by_cases hclose : c = '>'
      · subst hclose
        exact ⟨[], t, rfl, List.not_mem_nil, List.not_mem_nil, h⟩
      · rw [bracketStep_of_ne hopen hclose] at h
        obtain ⟨inner, u, rfl, hinner, hinner', hu⟩ := ih h
        exact ⟨c :: inner, u, rfl, by simp [hinner, Ne.symm hopen], by simp [hinner', Ne.symm hclose],
          hu⟩

/-- Brackets only delimit tags **if they stand in turns**. -/
theorem bracketed_iff : Bracketed t ↔ bracketScan false t = some false := by
  constructor
  · intro h
    induction h with
    | nil => rfl
    | char hopen hclose _ ih =>
      rw [bracketScan_cons, bracketStep_of_ne hopen hclose]
      exact ih
    | tag hopen hclose _ ih =>
      rw [List.cons_append, bracketScan_cons, show bracketStep false '<' = some true from rfl,
        Option.bind_some, bracketScan_append, bracketScan_of_not_mem hopen hclose]
      exact ih
  · intro h
    -- behind a tag the text is shorter
    induction hlen : t.length using Nat.strongRecOn generalizing t with
    | ind n ih =>
      cases t with
      | nil => exact .nil
      | cons c t =>
        rw [bracketScan_cons] at h
        by_cases hopen : c = '<'
        · subst hopen
          obtain ⟨inner, u, rfl, hinner, hinner', hu⟩ := exists_of_bracketScan h
          exact .tag hinner hinner' (ih u.length (by simp [← hlen]; omega) hu rfl)
        · by_cases hclose : c = '>'
          · subst hclose
            cases h
          · rw [bracketStep_of_ne hopen hclose] at h
            exact .char hopen hclose (ih t.length (by simp [← hlen]) h rfl)

instance : Decidable (Bracketed t) := decidable_of_iff _ bracketed_iff.symm

/-- A **single tag**: a text between brackets that holds none itself. -/
def IsSingleTag (tag : Text) : Prop := ∃ inner, tag = '<' :: inner ++ ['>'] ∧ '<' ∉ inner ∧ '>' ∉ inner

theorem IsSingleTag.bracketed {tag : Text} (h : IsSingleTag tag) : Bracketed tag := by
  obtain ⟨inner, rfl, hopen, hclose⟩ := h
  exact .tag hopen hclose .nil

/-! ### Cuts -/

/-- Texts of a kind can be **put together, and cut** before `<` and behind `>`. -/
structure CutsAtBrackets (P : Text → Prop) : Prop where
  nil : P []
  append : ∀ {a b : Text}, P a → P b → P (a ++ b)
  split_open : ∀ {a b : Text}, P (a ++ '<' :: b) → P a ∧ P ('<' :: b)
  split_close : ∀ {a b : Text}, P (a ++ '>' :: b) → P (a ++ ['>']) ∧ P b

/-- Where brackets only delimit tags, a text **can be cut at the tags**: before `<` no tag is open, and
behind `>` neither. -/
theorem Bracketed.cutsAtBrackets : CutsAtBrackets Bracketed where
  nil := .nil
  append ha hb := by
    rw [bracketed_iff] at ha hb ⊢
    rw [bracketScan_append, ha]
    exact hb
  split_open {a b} h := by
    rw [bracketed_iff] at h
    rw [bracketed_iff, bracketed_iff]
    rw [bracketScan_append] at h
    obtain ⟨inTag, ha, hb⟩ := Option.bind_eq_some_iff.1 h
    -- the scan of the first part ends outside of a tag, or the bracket would not be allowed
    cases inTag with
    | true => cases hb
    | false => exact ⟨ha, hb⟩
  split_close {a b} h := by
    rw [bracketed_iff] at h
    rw [bracketed_iff, bracketed_iff]
    rw [bracketScan_append] at h ⊢
    obtain ⟨inTag, ha, hb⟩ := Option.bind_eq_some_iff.1 h
    cases inTag with
    | true =>
      rw [ha]
      exact ⟨rfl, hb⟩
    | false => cases hb

/-! ### Matches between brackets -/

variable {m : Matcher} {p : Text → Bool} {f : Found}

/-- Whether all matches **begin with** `<` **and end with** `>`. -/
structure Matcher.TakesBrackets (m : Matcher) : Prop where
  opens : m.OpensWith '<'
  closes : ∀ t n, m ('<' :: t) = n + 1 → ∃ u v, t = u ++ '>' :: v ∧ n = u.length + 1

/-- Texts of a kind can be **cut out** of one another: they can be cut at the brackets, and neither dropping matches
between brackets nor dropping the blanks at both ends makes them texts of another kind. -/
structure CutsOut (P : Text → Prop) : Prop extends CutsAtBrackets P where
  rewriteMatches : ∀ {m : Matcher} {f : Text → Text} {t : Text}, m.TakesBrackets →
    (∀ piece, f piece = [] ∨ f piece = piece) → P t → P (rewriteMatches m f t)
  trim : ∀ {t : Text}, P t → P (Text.trim t)

namespace Matcher.TakesBrackets

variable (hm : m.TakesBrackets)
include hm

/-- A match between brackets, as it stands at the head of a text. -/
theorem exists_of_succ {c : Char} {t : Text} {n : Nat} (h : m (c :: t) = n + 1) :
    c = '<' ∧ ∃ u v, t = u ++ '>' :: v ∧ t.take n = u ++ ['>'] ∧ t.drop n = v := by
  have hc : c = '<' := by
    refine Decidable.byContradiction fun hc => ?_
    rw [hm.opens c t hc] at h
    cases h
  subst hc
  obtain ⟨u, v, rfl, rfl⟩ := hm.closes t n h
  have htext : u ++ '>' :: v = (u ++ ['>']) ++ v := by simp
  have hlength : u.length + 1 = (u ++ ['>']).length := by simp
  exact ⟨rfl, u, v, rfl, by rw [htext, hlength, List.take_left], by rw [htext, hlength, List.drop_left]⟩

/-- A match between brackets at the head of a text **is bracketed**. -/
theorem eq_of_match (hne : u ≠ []) (h : m (u ++ v) = u.length) : ∃ w, u = '<' :: w ++ ['>'] := by
  obtain ⟨c, u, rfl⟩ := List.exists_cons_of_ne_nil hne
  obtain ⟨rfl, w, -, -, htake, -⟩ := hm.exists_of_succ h
  rw [show List.append u v = u ++ v from rfl, List.take_left] at htake
  exact ⟨w, by rw [htake]; rfl⟩

/-- A match between brackets is **no longer than the text**. -/
theorem length_le (c : Char) (t : Text) : m (c :: t) ≤ (c :: t).length := by
  cases hmatch : m (c :: t) with
  | zero => exact Nat.zero_le _
  | succ n =>
    obtain ⟨rfl, -⟩ := hm.exists_of_succ hmatch
    obtain ⟨u, v, rfl, rfl⟩ := hm.closes t n hmatch
    simp

/-- What is found is **bracketed**. -/
theorem piece_of_findMatch? (h : findMatch? m p t = some f) : ∃ u, f.piece = '<' :: u ++ ['>'] := by
  fun_induction findMatch? m p t generalizing f with
  | case1 => cases h
  | case2 c t _ ih =>
    obtain ⟨g, hg, rfl⟩ := Option.map_eq_some_iff.1 h
    have hpiece := ih hg
    exact hpiece
  | case3 c t n hn _ =>
    cases h
    obtain ⟨rfl, u, v, -, htake, -⟩ := hm.exists_of_succ hn
    exact ⟨u, by rw [htake]; rfl⟩
  | case4 c t n _ _ ih =>
    obtain ⟨g, hg, rfl⟩ := Option.map_eq_some_iff.1 h
    have hpiece := ih hg
    exact hpiece

/-- A text around a match falls into **three texts of its kind**. -/
theorem cut_findMatch? {P : Text → Prop} (hP : CutsAtBrackets P) (h : findMatch? m p t = some f)
    (ht : P t) : P f.before ∧ P f.piece ∧ P f.after := by
  obtain ⟨u, hu⟩ := hm.piece_of_findMatch? h
  rw [← text_of_findMatch? h, Found.text, hu, List.append_assoc] at ht
  obtain ⟨hbefore, hrest⟩ := hP.split_open ht
  have hrest' : P (('<' :: u) ++ '>' :: f.after) := by simpa using hrest
  obtain ⟨hpiece, hafter⟩ := hP.split_close hrest'
  exact ⟨hbefore, hu ▸ hpiece, hafter⟩

end Matcher.TakesBrackets

/-! ### Matchers of tags -/

/-- A **matcher of tags** takes a tag whole or not at all, whatever follows the tag. -/
structure Matcher.TakesTags (m : Matcher) : Prop extends m.TakesBrackets where
  whole : ∀ inner, '>' ∉ inner →
    (∀ t, m ('<' :: inner ++ '>' :: t) = inner.length + 2) ∨ ∀ t, m ('<' :: inner ++ '>' :: t) = 0

/-- A found piece with **more behind** it. -/
def Found.followedBy (f : Found) (t : Text) : Found := { f with after := f.after ++ t }

/-- A found piece with **more before** it. -/
def Found.behind (u : Text) (f : Found) : Found := { f with before := u ++ f.before }

@[simp] theorem Found.behind_nil : Found.behind [] = id := rfl

theorem findMatch?_cons_of_zero (h : m (c :: t) = 0) :
    findMatch? m p (c :: t) = (findMatch? m p t).map (Found.behind [c]) := by
  rw [findMatch?, h]
  rfl

theorem findMatch?_append_of_match (hne : u ≠ []) (h : m (u ++ t) = u.length) :
    findMatch? m p (u ++ t) =
      if p u then some ⟨[], u, t⟩ else (findMatch? m p t).map (Found.behind u) := by
  obtain ⟨c, u, rfl⟩ := List.exists_cons_of_ne_nil hne
  rw [List.cons_append] at h ⊢
  rw [findMatch?, h, List.length_cons]
  dsimp only
  rw [List.take_left, List.drop_left]
  rfl

theorem findMatch?_append_of_not_mem {opening : Char} (hm : m.OpensWith opening) (h : opening ∉ u)
    (t : Text) : findMatch? m p (u ++ t) = (findMatch? m p t).map (Found.behind u) := by
  induction u with
  | nil => simp
  | cons c u ih =>
    rw [List.cons_append, findMatch?_cons_of_zero (hm _ _ (List.ne_of_not_mem_cons h).symm),
      ih (List.not_mem_of_not_mem_cons h), Option.map_map]
    rfl

/-- Whether **nothing is found** at a tag, whatever follows it. -/
def Matcher.Passes (m : Matcher) (inner : Text) : Prop := ∀ t, m ('<' :: inner ++ '>' :: t) = 0

namespace Matcher.Passes

variable (hm : m.OpensWith '<') (h : m.Passes inner) (hopen : '<' ∉ inner)
include h

theorem eq_zero (t : Text) : m ('<' :: ((inner ++ ['>']) ++ t)) = 0 := by
  have hzero := h t
  simpa using hzero

include hm hopen

theorem findMatch?_eq (t : Text) : findMatch? m p (('<' :: inner ++ ['>']) ++ t) =
    (findMatch? m p t).map (Found.behind ('<' :: inner ++ ['>'])) := by
  have hrest : '<' ∉ inner ++ ['>'] := by simpa using hopen
  rw [List.cons_append, List.cons_append, findMatch?_cons_of_zero (h.eq_zero t),
    findMatch?_append_of_not_mem hm hrest, Option.map_map]
  rfl

theorem findMatch?_eq_none : findMatch? m p ('<' :: inner ++ ['>']) = none := by
  have hfind := h.findMatch?_eq (p := p) hm hopen []
  rwa [List.append_nil, findMatch?_nil, Option.map_none] at hfind

theorem matchesIn_eq (t : Text) : matchesIn m (('<' :: inner ++ ['>']) ++ t) = matchesIn m t := by
  have hrest : '<' ∉ inner ++ ['>'] := by simpa using hopen
  rw [List.cons_append, List.cons_append, matchesIn_cons_of_zero (h.eq_zero t),
    matchesIn_append_of_not_mem hm hrest]

theorem matchesIn_eq_nil : matchesIn m ('<' :: inner ++ ['>']) = [] := by
  have hmatches := h.matchesIn_eq hm hopen []
  rwa [List.append_nil, matchesIn_nil] at hmatches

end Matcher.Passes

namespace Matcher.TakesTags

variable (hm : m.TakesTags)
include hm

/-- At a tag, **the tag is found or passed over**, whatever follows it. -/
theorem findMatch?_tag (p : Text → Bool) (hopen : '<' ∉ inner) (hclose : '>' ∉ inner) :
    (∀ t, findMatch? m p (('<' :: inner ++ ['>']) ++ t) = some ⟨[], '<' :: inner ++ ['>'], t⟩) ∨
      ∀ t, findMatch? m p (('<' :: inner ++ ['>']) ++ t) =
        (findMatch? m p t).map (Found.behind ('<' :: inner ++ ['>'])) := by
  have htext (t : Text) : ('<' :: inner ++ ['>']) ++ t = '<' :: inner ++ '>' :: t := by simp
  rcases hm.whole inner hclose with hmatch | hpassed
  · have hlength (t : Text) : m (('<' :: inner ++ ['>']) ++ t) = ('<' :: inner ++ ['>']).length := by
      rw [htext, hmatch]
      simp
    have hfind (t : Text) :
        findMatch? m p (('<' :: inner ++ ['>']) ++ t) =
          if p ('<' :: inner ++ ['>']) then some ⟨[], '<' :: inner ++ ['>'], t⟩
          else (findMatch? m p t).map (Found.behind ('<' :: inner ++ ['>'])) :=
      findMatch?_append_of_match (List.cons_ne_nil _ _) (hlength t)
    -- a tag that is a match is found if it has the property
    by_cases hp : p ('<' :: inner ++ ['>']) = true
    · exact .inl fun t => by rw [hfind, if_pos hp]
    · exact .inr fun t => by rw [hfind, if_neg hp]
  · exact .inr (Passes.findMatch?_eq hm.opens hpassed hopen)

/-- The **first match in two texts** is that of the first text or, if it has none, that of the
second. -/
theorem findMatch?_append (hu : Bracketed u) (t : Text) :
    findMatch? m p (u ++ t) =
      ((findMatch? m p u).map (·.followedBy t)).or ((findMatch? m p t).map (Found.behind u)) := by
  -- a tag is taken or passed over whole, whatever follows it
  induction hu with
  | nil => simp
  | @char c u hopen hclose _ ih =>
    rw [List.cons_append, findMatch?_cons_of_zero (hm.opens _ _ hopen),
      findMatch?_cons_of_zero (hm.opens _ _ hopen), ih]
    cases findMatch? m p u <;> cases findMatch? m p t <;> rfl
  | @tag inner u hopen hclose _ ih =>
    have htext : '<' :: inner ++ '>' :: u = ('<' :: inner ++ ['>']) ++ u := by simp
    rw [htext, List.append_assoc]
    rcases hm.findMatch?_tag p hopen hclose with hfound | hpassed
    · rw [hfound, hfound]
      rfl
    · rw [hpassed, hpassed, ih]
      cases findMatch? m p u <;> cases findMatch? m p t <;> simp [Found.behind, Found.followedBy]

/-- There is a match in two texts **if there is one in either**. -/
theorem isSome_findMatch?_append (hu : Bracketed u) (t : Text) :
    (findMatch? m p (u ++ t)).isSome = ((findMatch? m p u).isSome || (findMatch? m p t).isSome) := by
  rw [hm.findMatch?_append hu, Option.isSome_or, Option.isSome_map, Option.isSome_map]

/-- A match is the first one **because there is none before it**, and it is a match whatever follows. -/
theorem of_findMatch? (ht : Bracketed t) (h : findMatch? m p t = some f) :
    findMatch? m p f.before = none ∧
      ∀ rest, findMatch? m p (f.piece ++ rest) = some ⟨[], f.piece, rest⟩ := by
  -- by induction on the text: the first tag that is taken is what is found
  induction ht generalizing f with
  | nil => simp at h
  | @char c t hopen hclose _ ih =>
    rw [findMatch?_cons_of_zero (hm.opens _ _ hopen)] at h
    obtain ⟨g, hg, rfl⟩ := Option.map_eq_some_iff.1 h
    obtain ⟨hbefore, hpiece⟩ := ih hg
    refine ⟨?_, hpiece⟩
    rw [Found.behind, List.singleton_append, findMatch?_cons_of_zero (hm.opens _ _ hopen), hbefore]
    rfl
  | @tag inner t hopen hclose _ ih =>
    have htext : '<' :: inner ++ '>' :: t = ('<' :: inner ++ ['>']) ++ t := by simp
    rw [htext] at h
    rcases hm.findMatch?_tag p hopen hclose with hfound | hpassed
    · rw [hfound] at h
      cases h
      exact ⟨findMatch?_nil m p, hfound⟩
    · rw [hpassed] at h
      obtain ⟨g, hg, rfl⟩ := Option.map_eq_some_iff.1 h
      obtain ⟨hbefore, hpiece⟩ := ih hg
      refine ⟨?_, hpiece⟩
      rw [Found.behind, hpassed, hbefore]
      rfl

/-- What is found at the head of a text **is found behind another** that holds no match. -/
theorem findMatch?_behind (hu : Bracketed u) (hnone : findMatch? m p u = none) {piece rest : Text}
    (hfound : findMatch? m p t = some ⟨[], piece, rest⟩) :
    findMatch? m p (u ++ t) = some ⟨u, piece, rest⟩ := by
  rw [hm.findMatch?_append hu, hnone, hfound]
  simp [Found.behind]

/-- A first match **stays the first** whatever is put behind it, and before it what holds none. -/
theorem findMatch?_replace (ht : Bracketed t) (h : findMatch? m p t = some f) (hu : Bracketed u)
    (hnone : findMatch? m p u = none) (rest : Text) :
    findMatch? m p (u ++ f.piece ++ rest) = some ⟨u, f.piece, rest⟩ := by
  rw [List.append_assoc]
  exact hm.findMatch?_behind hu hnone ((hm.of_findMatch? ht h).2 rest)

/-- What has been found **is found again**, whatever follows it. -/
theorem findMatch?_again (ht : Bracketed t) (h : findMatch? m p t = some f) (rest : Text) :
    findMatch? m p (f.before ++ f.piece ++ rest) = some { f with after := rest } :=
  hm.findMatch?_replace ht h (hm.cut_findMatch? Bracketed.cutsAtBrackets h ht).1
    (hm.of_findMatch? ht h).1 rest

/-- The matches in two texts are **those of the one and those of the other**. -/
theorem matchesIn_append (hu : Bracketed u) (t : Text) :
    matchesIn m (u ++ t) = matchesIn m u ++ matchesIn m t := by
  induction hu with
  | nil => simp
  | @char c u hopen _ _ ih =>
    rw [List.cons_append, matchesIn_cons_of_zero (hm.opens _ _ hopen),
      matchesIn_cons_of_zero (hm.opens _ _ hopen), ih]
  | @tag inner u hopen hclose _ ih =>
    have htext (t : Text) : '<' :: inner ++ '>' :: t = ('<' :: inner ++ ['>']) ++ t := by simp
    rw [htext, List.append_assoc]
    rcases hm.whole inner hclose with hmatch | hpassed
    · have htag (t : Text) : matchesIn m (('<' :: inner ++ ['>']) ++ t) =
          ('<' :: inner ++ ['>']) :: matchesIn m t := by
        refine matchesIn_append_of_match (List.cons_ne_nil _ _) ?_
        rw [← htext, hmatch]
        simp
      rw [htag, htag, ih]
      rfl
    · rw [Passes.matchesIn_eq hm.opens hpassed hopen, Passes.matchesIn_eq hm.opens hpassed hopen, ih]

/-- Two matchers of tags, **one tried after the other**, are a matcher of tags. -/
theorem orElse {m' : Matcher} (hm' : m'.TakesTags) :
    Matcher.TakesTags fun t => match m t with | 0 => m' t | n => n where
  opens := fun c t hc => by
    dsimp only
    rw [hm.opens c t hc, hm'.opens c t hc]
    rfl
  closes := fun t n h => by
    cases hmatch : m ('<' :: t) with
    | zero =>
      rw [hmatch] at h
      exact hm'.closes t n h
    | succ k =>
      rw [hmatch] at h
      exact hm.closes t n (hmatch.trans h)
  whole := fun inner hinner => by
    rcases hm.whole inner hinner with htaken | hpassed
    · refine .inl fun t => ?_
      rw [htaken]
      rfl
    · simp only [hpassed]
      exact hm'.whole inner hinner

end Matcher.TakesTags

end MailMerge
