import MailMerge.Proofs.WrittenValues

/-!
# Written lines are read back

A document is written line by line. A line gives a key a value or opens a table or a row, and the text
that is written for it is read as this line with whatever follows left over. So the lines of texts behind
each other are the lines of the one and then those of the other, and the reader has enough fuel for all of
them, since each line has a character at least.

* `IsBareName` says that a name needs no quotes in a key;
* `SpellsLines` says that a text is read as some lines, whatever follows it, and
  `SpellsLines.append` that texts may follow each other;
* `spellsLines_pairLine`, `spellsLines_tableLine` and `spellsLines_rowLine` — the three kinds of lines
  are read back.
-/

namespace MailMerge

namespace TomlToken

variable {name t rest r : Text} {names : List Text} {parts : Nat}

/-! ### Keys -/

/-- Whether a name **needs no quotes** in a key. -/
structure IsBareName (name : Text) : Prop where
  nonempty : name ≠ []
  bare : ∀ c ∈ name, isBare c = true

theorem isBareName_iff : IsBareName name ↔ name ≠ [] ∧ ∀ c ∈ name, isBare c = true :=
  ⟨fun h => ⟨h.1, h.2⟩, fun h => ⟨h.1, h.2⟩⟩

instance (name : Text) : Decidable (IsBareName name) := decidable_of_iff _ isBareName_iff.symm

theorem ne_of_isBare {c d : Char} (hc : isBare c = true) (hd : isBare d = false) : c ≠ d := by
  rintro rfl
  rw [hc] at hd
  cases hd

theorem IsBareName.exists_cons (h : IsBareName name) : ∃ c t, name = c :: t ∧ isBare c = true := by
  obtain ⟨c, t, rfl⟩ := List.exists_cons_of_ne_nil h.nonempty
  exact ⟨c, t, rfl, h.bare c (List.mem_cons_self ..)⟩

/-- There are **no blanks before a name**. -/
theorem skipGaps_name (h : IsBareName name) (rest : Text) : skipGaps (name ++ rest) = name ++ rest := by
  obtain ⟨c, t, rfl, hc⟩ := h.exists_cons
  have hgap : ¬ isGap c = true := by
    rw [isGap, Bool.or_eq_true, beq_iff_eq, beq_iff_eq]
    rintro (rfl | rfl)
    · cases hc
    · cases hc
  exact List.dropWhile_cons_of_neg hgap

/-- A name is read as **a part of a key**, up to the first character that may not stand in it. -/
theorem keyPart?_name (h : IsBareName name) (hrest : ∀ c ∈ rest.head?, isBare c = false) :
    keyPart? (name ++ rest) = some (name, rest) := by
  have hstop : rest.takeWhile isBare = [] ∧ rest.dropWhile isBare = rest := by
    cases rest with
    | nil => exact ⟨rfl, rfl⟩
    | cons c rest =>
      have hc : ¬ isBare c = true := by
        rw [hrest c rfl]
        decide
      exact ⟨List.takeWhile_cons_of_neg hc, List.dropWhile_cons_of_neg hc⟩
  have htake : (name ++ rest).takeWhile isBare = name := by
    rw [List.takeWhile_append_of_pos h.bare, hstop.1, List.append_nil]
  have hdrop : (name ++ rest).dropWhile isBare = rest := by
    rw [List.dropWhile_append_of_pos h.bare, hstop.2]
  -- a bare name begins with no quote
  obtain ⟨c, t, hcons, hc⟩ := h.exists_cons
  unfold keyPart?
  split
  case h_1 heq =>
    rw [hcons] at heq
    exact absurd (List.cons.inj heq).1 (ne_of_isBare hc rfl)
  case h_2 heq =>
    rw [hcons] at heq
    exact absurd (List.cons.inj heq).1 (ne_of_isBare hc rfl)
  case h_3 =>
    dsimp only
    rw [htake, hdrop, List.isEmpty_eq_false_iff.2 h.nonempty]
    rfl

/-- The **last part of a key** is read with the blanks behind it. -/
theorem keyParts?_last (h : IsBareName name) (hrest : ∀ c ∈ rest.head?, isBare c = false)
    (hskip : skipGaps rest = r) (hdot : r.head? ≠ some '.') :
    keyParts? (parts + 1) (name ++ rest) = some ([name], r) := by
  rw [keyParts?, skipGaps_name h, keyPart?_name h hrest]
  simp only [Option.bind_eq_bind, Option.bind_some, hskip]
  split
  case h_1 => exact absurd rfl hdot
  case h_2 => rfl

/-- A part of a key is read **before the others**, with the dot behind it. -/
theorem keyParts?_cons (h : IsBareName name) (hparts : keyParts? parts t = some (names, r)) :
    keyParts? (parts + 1) (name ++ '.' :: t) = some (name :: names, r) := by
  have hrest : ∀ c ∈ ('.' :: t).head?, isBare c = false := by
    intro c hc
    cases hc
    rfl
  have hskip : skipGaps ('.' :: t) = '.' :: t := List.dropWhile_cons_of_neg (by decide)
  rw [keyParts?, skipGaps_name h, keyPart?_name h hrest]
  simp only [Option.bind_eq_bind, Option.bind_some, hskip, hparts]
  rfl

end TomlToken

namespace TomlReader

open TomlToken

variable {u t rest r key path : Text} {names : List Text} {l : Line} {ls ms : List Line} {v : Toml}

/-! ### Lines -/

/-- Whether a text **is read as some lines**, whatever follows it, if there is fuel for them. There is, if
there is fuel for its length. -/
structure SpellsLines (u : Text) (ls : List Line) : Prop where
  reads : ∀ fuel rest, lines? (fuel + ls.length) (u ++ rest) = (lines? fuel rest).map (ls ++ ·)
  length_le : ls.length ≤ u.length

theorem spellsLines_nil : SpellsLines [] [] := by
  refine ⟨?_, Nat.le_refl 0⟩
  intro fuel rest
  show lines? fuel rest = (lines? fuel rest).map id
  rw [Option.map_id_fun, id]

/-- Texts may **follow each other**. -/
theorem SpellsLines.append (hu : SpellsLines u ls) (ht : SpellsLines t ms) :
    SpellsLines (u ++ t) (ls ++ ms) := by
  constructor
  · intro fuel rest
    have hfuel : fuel + (ls ++ ms).length = fuel + ms.length + ls.length := by
      rw [List.length_append]
      omega
    rw [hfuel, List.append_assoc, hu.reads, ht.reads, Option.map_map]
    congr 1
    funext more
    exact (List.append_assoc ls ms more).symm
  · rw [List.length_append, List.length_append]
    exact Nat.add_le_add hu.length_le ht.length_le

/-- Texts for the members of a list may follow each other. -/
theorem spellsLines_flatMap {α : Type} {f : α → Text} {g : α → List Line} (as : List α)
    (h : ∀ a ∈ as, SpellsLines (f a) (g a)) : SpellsLines (as.flatMap f) (as.flatMap g) := by
  induction as with
  | nil => exact spellsLines_nil
  | cons a as ih =>
    obtain ⟨ha, has⟩ := List.forall_mem_cons.1 h
    exact ha.append (ih has)

/-- An **empty line** says nothing. -/
theorem spellsLines_newLine : SpellsLines ['\n'] [] := by
  refine ⟨?_, Nat.zero_le _⟩
  intro fuel rest
  show lines? fuel ('\n' :: rest) = (lines? fuel rest).map id
  rw [Option.map_id_fun, id]
  cases fuel with
  | zero => rfl
  | succ fuel => rw [lines?, lines?, skipFiller_blank (.inr rfl)]

/-- The **whole of a text** is read as its lines. -/
theorem SpellsLines.lines?_eq (h : SpellsLines u ls) : lines? (u.length + 1) u = some ls := by
  -- what the lines leave of the fuel is enough to find the end of the text
  have hfuel : u.length + 1 = u.length - ls.length + 1 + ls.length := by
    have := h.length_le
    omega
  have hread := h.reads (u.length - ls.length + 1) []
  rw [List.append_nil, ← hfuel] at hread
  rw [hread, lines?, skipFiller]
  exact congrArg some (List.append_nil ls)

/-- A text that is read as one line **with the end of the line left over** is read as this line. -/
theorem spellsLines_of_line? {c : Char} (hcons : u = c :: t)
    (hblank : (isGap c || c == '\n') = false) (hmark : c ≠ '#' ∧ c ≠ '\r')
    (h : ∀ rest, line? (u ++ '\n' :: rest) = some (l, '\n' :: rest)) :
    SpellsLines (u ++ ['\n']) [l] := by
  constructor
  · intro fuel rest
    have hskip : skipFiller (u ++ '\n' :: rest) = u ++ '\n' :: rest := by
      rw [hcons]
      exact skipFiller_stop hblank hmark _
    have hfinish : finishLine? ('\n' :: rest) = some rest := rfl
    rw [List.append_assoc, List.singleton_append, List.length_singleton, lines?, hskip]
    have hline := h rest
    rw [hcons, List.cons_append] at hline ⊢
    simp only [Option.bind_eq_bind, hline, Option.bind_some, hfinish]
    cases lines? fuel rest with
    | none => rfl
    | some more => rfl
  · rw [List.length_append, List.length_singleton]
    exact Nat.le_add_left 1 u.length

/-- A line that begins with no bracket gives **a key its value**. -/
theorem line?_pair {c : Char} (hcons : t = c :: u) (hc : c ≠ '[')
    (hkey : key? t = some (names, '=' :: ' ' :: r))
    (hvalue : value? (t.length + 1) maxDepth (skipGaps (' ' :: r)) = some (v, rest)) :
    line? t = some (.pair names v, rest) := by
  have hequals : Text.dropPrefix? "=" ('=' :: ' ' :: r) = some (' ' :: r) := rfl
  unfold line?
  split
  case h_1 =>
    cases hcons
    exact absurd rfl hc
  case h_2 =>
    cases hcons
    exact absurd rfl hc
  case h_3 =>
    simp only [Option.bind_eq_bind, hkey, Option.bind_some, hequals, hvalue]
    rfl

/-- The line of a **key and its value** is read back. -/
theorem spellsLines_pairLine (hkey : IsBareName key) (hv : Spells u v) :
    SpellsLines (Toml.pairLine key u) [.pair [key] v] := by
  obtain ⟨c, k, hcons, hc⟩ := hkey.exists_cons
  have hne {d : Char} (hd : isBare d = false) : c ≠ d := ne_of_isBare hc hd
  have htext : Toml.pairLine key u = key ++ ' ' :: '=' :: ' ' :: u ++ ['\n'] := by
    simp [Toml.pairLine]
  have hblank : (isGap c || c == '\n') = false := by
    rw [isGap, beq_false_of_ne (hne rfl), beq_false_of_ne (hne rfl), beq_false_of_ne (hne rfl)]
    rfl
  have hhead : key ++ ' ' :: '=' :: ' ' :: u = c :: (k ++ ' ' :: '=' :: ' ' :: u) := by
    rw [hcons]
    rfl
  rw [htext]
  refine spellsLines_of_line? hhead hblank ⟨hne rfl, hne rfl⟩ ?_
  intro rest
  have hread : key? (key ++ (' ' :: '=' :: ' ' :: (u ++ '\n' :: rest))) =
      some ([key], '=' :: ' ' :: (u ++ '\n' :: rest)) := by
    refine keyParts?_last hkey ?_ rfl ?_
    · intro d hd
      cases hd
      rfl
    · exact fun h => absurd (Option.some.inj h) (by decide)
  have hskip : skipGaps (' ' :: (u ++ '\n' :: rest)) = u ++ '\n' :: rest := by
    obtain ⟨d, t, rfl⟩ := List.exists_cons_of_ne_nil hv.nonempty
    have hgap : ¬ isGap d = true := by
      rw [hv.begins d rfl]
      decide
    exact (List.dropWhile_cons_of_pos rfl).trans (List.dropWhile_cons_of_neg hgap)
  have hsplit : key ++ ' ' :: '=' :: ' ' :: u ++ '\n' :: rest =
      key ++ (' ' :: '=' :: ' ' :: (u ++ '\n' :: rest)) := List.append_assoc ..
  rw [hsplit]
  refine line?_pair (c := c) (by rw [hcons]; rfl) (hne rfl) hread ?_
  -- the text of the value is shorter than its line
  rw [hskip]
  refine hv.reads _ rest ?_
  simp only [List.length_append, List.length_cons]
  omega

/-! ### Lines in brackets -/

/-- Whether a text **is read as a key** where a bracket stands behind it. -/
structure SpellsKey (path : Text) (names : List Text) : Prop where
  begins : ∃ c t, path = c :: t ∧ isBare c = true
  reads : ∀ rest, key? (path ++ ']' :: rest) = some (names, ']' :: rest)

theorem keyParts?_bracket {parts : Nat} (h : IsBareName key) (rest : Text) :
    keyParts? (parts + 1) (key ++ ']' :: rest) = some ([key], ']' :: rest) := by
  refine keyParts?_last h ?_ rfl ?_
  · intro d hd
    cases hd
    rfl
  · exact fun h => absurd (Option.some.inj h) (by decide)

theorem spellsKey_name (h : IsBareName key) : SpellsKey key [key] :=
  ⟨h.exists_cons, fun rest => keyParts?_bracket h rest⟩

theorem spellsKey_dot {inner : Text} (h : IsBareName key) (hinner : IsBareName inner) :
    SpellsKey (key ++ '.' :: inner) [key, inner] := by
  obtain ⟨c, t, hcons, hc⟩ := h.exists_cons
  refine ⟨⟨c, t ++ '.' :: inner, by rw [hcons]; rfl, hc⟩, ?_⟩
  intro rest
  rw [List.append_assoc]
  exact keyParts?_cons h (keyParts?_bracket hinner rest)

/-- The line that **opens a table** is read back. -/
theorem spellsLines_tableLine (h : SpellsKey path names) :
    SpellsLines (Toml.tableLine path) [.table names] := by
  have htext : Toml.tableLine path = '[' :: (path ++ [']']) ++ ['\n'] := by
    simp [Toml.tableLine]
  rw [htext]
  refine spellsLines_of_line? rfl (by decide) (by decide) ?_
  intro rest
  have hsplit : '[' :: (path ++ [']']) ++ '\n' :: rest = '[' :: (path ++ ']' :: '\n' :: rest) := by
    simp
  have hkey := h.reads ('\n' :: rest)
  have hbracket : Text.dropPrefix? "]" (']' :: '\n' :: rest) = some ('\n' :: rest) := rfl
  obtain ⟨c, t, hcons, hc⟩ := h.begins
  rw [hsplit]
  unfold line?
  split
  case h_1 heq =>
    -- a name does not begin with a second bracket
    rw [hcons] at heq
    cases (List.cons.inj (List.cons.inj heq).2).1
    cases hc
  case h_2 heq =>
    rw [(List.cons.inj heq).2] at hkey
    simp only [Option.bind_eq_bind, hkey, Option.bind_some, hbracket]
    rfl
  case h_3 hbrackets => exact absurd rfl (hbrackets _)

/-- The line that **opens a row** is read back. -/
theorem spellsLines_rowLine (h : SpellsKey path names) :
    SpellsLines (Toml.rowLine path) [.row names] := by
  have htext : Toml.rowLine path = '[' :: '[' :: (path ++ [']', ']']) ++ ['\n'] := by
    simp [Toml.rowLine]
  rw [htext]
  refine spellsLines_of_line? rfl (by decide) (by decide) ?_
  intro rest
  have hsplit : '[' :: '[' :: (path ++ [']', ']']) ++ '\n' :: rest =
      '[' :: '[' :: (path ++ ']' :: ']' :: '\n' :: rest) := by
    simp
  have hkey := h.reads (']' :: '\n' :: rest)
  have hbrackets : Text.dropPrefix? "]]" (']' :: ']' :: '\n' :: rest) = some ('\n' :: rest) := rfl
  rw [hsplit, line?]
  simp only [Option.bind_eq_bind, hkey, Option.bind_some, hbrackets]
  rfl

end TomlReader

end MailMerge
