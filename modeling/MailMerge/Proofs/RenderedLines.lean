import MailMerge.Proofs.Merging
import MailMerge.Proofs.TableOrder

/-!
# Rendered lines

What is put into a copy for a text can be read back. Escaping leaves no character that could begin or end a
tag, so that the markup of a line break comes from line feeds alone: cut at that markup, a rendered text
falls into its lines, and each of them is read back by resolving its references.

Escaping goes on within the lines, and so does dropping a carriage return at the end of one. The two rewrites
of line breaks are therefore told by the lines of the text: a text is its lines joined by line feeds, and it
becomes its lines joined by line breaks.

* `Text.pieces` cuts a text around another one, and `Text.replace_eq_join` says that replacing is joining
  the pieces by something else; `Text.pieces_join` cuts what was joined;
* `Text.lines` are the lines of a text, and `replace_returns` says that they are left when the carriage
  returns before line feeds are dropped;
* `escapeMarkupChar_eq` — an escaped character is a plain one or one of the five references;
* `withLineBreaks_escapeMarkup` — an escaped text with line breaks is its lines, escaped and joined by them;
* `renderValue_readsBack` — rendered text reads back.
-/

namespace MailMerge

/-! ### Pieces -/

namespace Text

variable {first : Char} {separator t : Text} {ps : List Text}

/-- The **pieces** of a text around the occurrences of another one, from left to right. An empty one occurs
nowhere. -/
def pieces (separator : Text) : Text → List Text
  | [] => [[]]
  | c :: t =>
    if separator ≠ [] ∧ startsWith separator (c :: t) then
      [] :: pieces separator (t.drop (separator.length - 1))
    else (pieces separator t).modifyHead (c :: ·)
termination_by t => t.length

theorem pieces_ne_nil (separator t : Text) : pieces separator t ≠ [] := by
  fun_induction pieces separator t with
  | case1 => exact List.cons_ne_nil _ _
  | case2 => exact List.cons_ne_nil _ _
  | case3 c t _ ih => exact mt List.modifyHead_eq_nil_iff.1 ih

theorem join_cons (separator t : Text) (h : ps ≠ []) :
    join separator (t :: ps) = t ++ separator ++ join separator ps := by
  rw [join]
  exact h

theorem join_modifyHead (separator : Text) (c : Char) (h : ps ≠ []) :
    join separator (ps.modifyHead (c :: ·)) = c :: join separator ps := by
  obtain ⟨p, ps, rfl⟩ := List.exists_cons_of_ne_nil h
  rw [List.modifyHead_cons]
  cases ps with
  | nil => rfl
  | cons q ps => rw [join_cons _ _ (List.cons_ne_nil _ _), join_cons _ _ (List.cons_ne_nil _ _)]; rfl

/-- **Replacing** is joining the pieces by something else. -/
theorem replace_eq_join (old new t : Text) : replace old new t = join new (pieces old t) := by
  fun_induction pieces old t with
  | case1 => rw [replace, join]
  | case2 c t h ih =>
    rw [replace, if_pos h, ih, join_cons _ _ (pieces_ne_nil _ _), List.nil_append]
  | case3 c t h ih => rw [replace, if_neg h, ih, join_modifyHead _ _ (pieces_ne_nil _ _)]

theorem pieces_cons_of_ne {c : Char} (h : c ≠ first) (t : Text) :
    pieces (first :: separator) (c :: t) = (pieces (first :: separator) t).modifyHead (c :: ·) := by
  have hstart : startsWith (first :: separator) (c :: t) = false := by
    rw [startsWith, dropPrefix?, if_neg h.symm]
    rfl
  rw [pieces, if_neg]
  rintro ⟨-, hstart'⟩
  rw [hstart] at hstart'
  cases hstart'

theorem pieces_of_not_mem (h : first ∉ t) : pieces (first :: separator) t = [t] := by
  induction t with
  | nil => rw [pieces]
  | cons c t ih =>
    rw [pieces_cons_of_ne (List.ne_of_not_mem_cons h).symm, ih (List.not_mem_of_not_mem_cons h),
      List.modifyHead_cons]

/-- A piece **ends at the separator**, where that begins with a character that the piece does not hold. -/
theorem pieces_append {piece : Text} (h : first ∉ piece) (t : Text) :
    pieces (first :: separator) (piece ++ first :: separator ++ t) =
      piece :: pieces (first :: separator) t := by
  induction piece with
  | nil =>
    have hstart : startsWith (first :: separator) (first :: (separator ++ t)) = true :=
      startsWith_iff.2 ⟨t, rfl⟩
    rw [List.nil_append, List.cons_append, pieces, if_pos ⟨List.cons_ne_nil _ _, hstart⟩,
      List.length_cons, Nat.add_sub_cancel, List.drop_left]
  | cons c piece ih =>
    rw [List.cons_append, List.cons_append, pieces_cons_of_ne (List.ne_of_not_mem_cons h).symm,
      ih (List.not_mem_of_not_mem_cons h), List.modifyHead_cons]

/-- What was **joined** is cut again. -/
theorem pieces_join (h : ∀ p ∈ ps, first ∉ p) (hne : ps ≠ []) :
    pieces (first :: separator) (join (first :: separator) ps) = ps := by
  induction ps with
  | nil => exact absurd rfl hne
  | cons p ps ih =>
    obtain ⟨hp, hps⟩ := List.forall_mem_cons.1 h
    by_cases hlast : ps = []
    · subst hlast
      exact pieces_of_not_mem hp
    · rw [join_cons _ _ hlast, pieces_append hp, ih hps hlast]

/-! ### Lines -/

theorem not_mem_of_mem_split {separator : Char} {p : Text} (h : p ∈ split separator t) : separator ∉ p := by
  induction t generalizing p with
  | nil =>
    obtain rfl := List.mem_singleton.1 h
    exact List.not_mem_nil
  | cons c t ih =>
    rw [split] at h
    split at h
    case isTrue =>
      rcases List.mem_cons.1 h with rfl | h
      · exact List.not_mem_nil
      · exact ih h
    case isFalse hc =>
      split at h
      case h_1 =>
        obtain rfl := List.mem_singleton.1 h
        exact fun hmem => hc (List.mem_singleton.1 hmem).symm
      case h_2 q qs hsplit =>
        rcases List.mem_cons.1 h with rfl | h
        · rintro hmem
          rcases List.mem_cons.1 hmem with rfl | hmem
          · exact hc rfl
          · exact ih (hsplit ▸ List.mem_cons_self ..) hmem
        · exact ih (hsplit ▸ List.mem_cons_of_mem _ h)

theorem length_split (separator : Char) (t : Text) : (split separator t).length = t.count separator + 1 := by
  induction t with
  | nil => rfl
  | cons c t ih =>
    rw [split_eq_splitOn] at ih ⊢
    rw [List.splitOn_cons_eq_if_modifyHead, List.count_cons]
    by_cases h : (c == separator) = true
    · rw [if_pos h, if_pos h, List.length_cons, ih]
    · rw [if_neg h, if_neg h, List.length_modifyHead, ih]

theorem join_split (separator : Char) (t : Text) : join [separator] (split separator t) = t := by
  rw [join_eq_intercalate, split_eq_splitOn, List.intercalate_splitOn]

/-- A text without **one carriage return at its end**. -/
def dropReturn (t : Text) : Text := if t.getLast? = some '\r' then t.dropLast else t

/-- Texts without a carriage return at the end of each **but the last**. -/
def dropReturns : List Text → List Text
  | [] => []
  | [last] => [last]
  | part :: next :: parts => dropReturn part :: dropReturns (next :: parts)

/-- The **lines** of a text: what stands between its line feeds, without one carriage return directly before
each. -/
def lines (t : Text) : List Text := dropReturns (split '\n' t)

theorem dropReturn_concat (t : Text) (c : Char) : dropReturn (t ++ [c]) = if c = '\r' then t else t ++ [c] := by
  simp only [dropReturn, List.getLast?_concat, List.dropLast_concat, Option.some_inj]

theorem dropReturn_cons_cons (c d : Char) (t : Text) : dropReturn (c :: d :: t) = c :: dropReturn (d :: t) := by
  rw [dropReturn, dropReturn, List.getLast?_cons_cons, List.dropLast_cons_cons]
  split <;> rfl

theorem length_dropReturns (parts : List Text) : (dropReturns parts).length = parts.length := by
  fun_induction dropReturns parts with
  | case1 => rfl
  | case2 => rfl
  | case3 part next parts ih => rw [List.length_cons, ih, List.length_cons (a := part)]

theorem dropReturn_prefix (t : Text) : dropReturn t <+: t := by
  rw [dropReturn]
  split
  case isTrue => exact List.dropLast_prefix t
  case isFalse => exact List.prefix_refl t

theorem exists_prefix_of_mem_dropReturns {parts : List Text} {line : Text} (h : line ∈ dropReturns parts) :
    ∃ part ∈ parts, line <+: part := by
  fun_induction dropReturns parts with
  | case1 => cases h
  | case2 last => exact ⟨last, List.mem_singleton_self _, (List.mem_singleton.1 h) ▸ List.prefix_refl _⟩
  | case3 part next parts ih =>
    rcases List.mem_cons.1 h with rfl | h
    · exact ⟨part, List.mem_cons_self .., dropReturn_prefix part⟩
    · obtain ⟨whole, hwhole, hline⟩ := ih h
      exact ⟨whole, List.mem_cons_of_mem _ hwhole, hline⟩

/-- No **line feed** is left in a line. -/
theorem not_mem_of_mem_lines {line : Text} (h : line ∈ lines t) : '\n' ∉ line := by
  obtain ⟨part, hpart, hline⟩ := exists_prefix_of_mem_dropReturns h
  exact fun hmem => not_mem_of_mem_split hpart (hline.subset hmem)

theorem length_lines (t : Text) : (lines t).length = t.count '\n' + 1 := by
  rw [lines, length_dropReturns, length_split]

end Text

/-! ### Carriage returns -/

variable {s t part : Text}

theorem startsWith_return (c : Char) (t : Text) :
    Text.startsWith "\r\n" (c :: t) = true ↔ c = '\r' ∧ t.head? = some '\n' := by
  rw [Text.startsWith_iff]
  constructor
  · rintro ⟨rest, hrest⟩
    obtain ⟨rfl, rfl⟩ := List.cons.inj hrest
    exact ⟨rfl, rfl⟩
  · rintro ⟨rfl, hhead⟩
    obtain ⟨rest, rfl⟩ := List.head?_eq_some_iff.1 hhead
    exact ⟨rest, rfl⟩

/-- A character **is passed over**, unless it is a carriage return before a line feed. -/
theorem replace_return_cons {c : Char} (h : ¬ (c = '\r' ∧ t.head? = some '\n')) :
    Text.replace "\r\n" "\n" (c :: t) = c :: Text.replace "\r\n" "\n" t := by
  rw [Text.replace, if_neg]
  rintro ⟨-, hstart⟩
  exact h ((startsWith_return c t).1 hstart)

/-- A **part without line feeds** is left as it is at the end of a text, and loses a carriage return before a
line feed. -/
theorem replace_return_of_not_mem (h : '\n' ∉ part) : Text.replace "\r\n" "\n" part = part := by
  induction part with
  | nil => rw [Text.replace]
  | cons c part ih =>
    have hpart := List.not_mem_of_not_mem_cons h
    rw [replace_return_cons, ih hpart]
    rintro ⟨-, hhead⟩
    exact hpart (List.mem_of_mem_head? hhead)

theorem replace_return_append (h : '\n' ∉ part) (t : Text) :
    Text.replace "\r\n" "\n" (part ++ '\n' :: t) =
      Text.dropReturn part ++ '\n' :: Text.replace "\r\n" "\n" t := by
  have hfeed : Text.replace "\r\n" "\n" ('\n' :: t) = '\n' :: Text.replace "\r\n" "\n" t :=
    replace_return_cons fun hreturn => absurd hreturn.1 (by decide)
  induction part with
  | nil => exact hfeed
  | cons c part ih =>
    have hpart := List.not_mem_of_not_mem_cons h
    cases part with
    | nil =>
      show Text.replace "\r\n" "\n" (c :: '\n' :: t) = Text.dropReturn ([] ++ [c]) ++ _
      rw [Text.dropReturn_concat]
      by_cases hc : c = '\r'
      · -- the carriage return goes with the line feed
        subst hc
        rw [Text.replace, if_pos ⟨List.cons_ne_nil _ _, (startsWith_return _ _).2 ⟨rfl, rfl⟩⟩, if_pos rfl]
        rfl
      · rw [replace_return_cons fun hreturn => hc hreturn.1, hfeed, if_neg hc]
        rfl
    | cons d part =>
      have hd : ¬ (c = '\r' ∧ (d :: part ++ '\n' :: t).head? = some '\n') := by
        rintro ⟨-, hhead⟩
        exact List.ne_of_not_mem_cons hpart (Option.some.inj hhead).symm
      rw [List.cons_append, replace_return_cons hd, ih hpart, Text.dropReturn_cons_cons, List.cons_append]

/-- Without **the carriage returns before line feeds**, the lines of a text are left. -/
theorem replace_returns {parts : List Text} (h : ∀ part ∈ parts, '\n' ∉ part) :
    Text.replace "\r\n" "\n" (Text.join "\n" parts) = Text.join "\n" (Text.dropReturns parts) := by
  fun_induction Text.dropReturns parts with
  | case1 => rw [Text.join, Text.replace]
  | case2 last => exact replace_return_of_not_mem (h last (List.mem_singleton_self _))
  | case3 part next parts ih =>
    obtain ⟨hpart, hparts⟩ := List.forall_mem_cons.1 h
    have hne : Text.dropReturns (next :: parts) ≠ [] := by
      rw [← List.length_pos_iff, Text.length_dropReturns, List.length_cons]
      exact Nat.succ_pos _
    have hfeed (p t : Text) : p ++ "\n" ++ t = p ++ '\n' :: t := List.append_assoc p _ t
    rw [Text.join_cons _ _ (List.cons_ne_nil _ _), Text.join_cons _ _ hne, hfeed, hfeed,
      replace_return_append hpart, ih hparts]

/-! ### Escaped lines -/

/-- An **escaped character** is that character, if it is none of the five, and else a reference. -/
theorem escapeMarkupChar_eq (c : Char) :
    (escapeMarkupChar c = [c] ∧ c ∉ ['&', '<', '>', '"', '\'']) ∨
      ∃ name ∈ entityNames, escapeMarkupChar c = '&' :: name ++ [';'] := by
  unfold escapeMarkupChar
  split
  case h_1 => exact .inr ⟨"amp", by decide, rfl⟩
  case h_2 => exact .inr ⟨"lt", by decide, rfl⟩
  case h_3 => exact .inr ⟨"gt", by decide, rfl⟩
  case h_4 => exact .inr ⟨"quot", by decide, rfl⟩
  case h_5 => exact .inr ⟨"apos", by decide, rfl⟩
  case h_6 hamp hopen hclose hquot hapos =>
    refine .inl ⟨rfl, fun hmem => ?_⟩
    rcases List.mem_cons.1 hmem with h | hmem
    · exact hamp h
    rcases List.mem_cons.1 hmem with h | hmem
    · exact hopen h
    rcases List.mem_cons.1 hmem with h | hmem
    · exact hclose h
    rcases List.mem_cons.1 hmem with h | hmem
    · exact hquot h
    · exact hapos (List.mem_singleton.1 hmem)

/-- A character that is **in no reference** is in an escaped text only if it was in the text, and is none of
the five. -/
theorem of_mem_escapeMarkup {d : Char} (hd : ∀ name ∈ entityNames, d ∉ '&' :: name ++ [';'])
    (h : d ∈ escapeMarkup s) : d ∈ s ∧ d ∉ ['&', '<', '>', '"', '\''] := by
  obtain ⟨c, hc, hmem⟩ := List.mem_flatMap.1 h
  rcases escapeMarkupChar_eq c with ⟨heq, hplain⟩ | ⟨name, hname, heq⟩
  · rw [heq] at hmem
    obtain rfl := List.mem_singleton.1 hmem
    exact ⟨hc, hplain⟩
  · rw [heq] at hmem
    exact absurd hmem (hd name hname)

/-- Each ampersand of an escaped text **begins one of the five references**. -/
theorem prefix_of_escapeMarkup_eq {before after : Text} (h : escapeMarkup s = before ++ '&' :: after) :
    ∃ name ∈ entityNames, name ++ [';'] <+: after := by
  induction s generalizing before with
  | nil => exact absurd h.symm (List.append_ne_nil_of_right_ne_nil _ (List.cons_ne_nil _ _))
  | cons c s ih =>
    rw [escapeMarkup_cons] at h
    rcases List.append_eq_append_iff.1 h with ⟨rest, -, hs⟩ | ⟨rest, hc, hs⟩
    · exact ih hs
    · cases rest with
      | nil =>
        have hbegin : escapeMarkup s = [] ++ '&' :: after := hs.symm
        exact ih hbegin
      | cons d rest =>
        -- the ampersand is in the first character, and that is a reference
        obtain ⟨rfl, rfl⟩ := List.cons.inj hs
        rcases escapeMarkupChar_eq c with ⟨heq, hplain⟩ | ⟨name, hname, heq⟩
        · rw [heq] at hc
          have hmem : '&' ∈ [c] := hc ▸ List.mem_append_right _ (List.mem_cons_self ..)
          obtain rfl := List.mem_singleton.1 hmem
          exact absurd (List.mem_cons_self ..) hplain
        · rw [heq, List.cons_append] at hc
          cases before with
          | nil =>
            obtain ⟨-, rfl⟩ := List.cons.inj hc
            exact ⟨name, hname, List.prefix_append _ _⟩
          | cons b before =>
            have hmem : '&' ∈ name ++ [';'] :=
              (List.cons.inj hc).2 ▸ List.mem_append_right _ (List.mem_cons_self ..)
            have hno : ∀ name ∈ entityNames, '&' ∉ name ++ [';'] := by decide
            exact absurd hmem (hno name hname)

/-- Escaping **goes on within** texts that are joined. -/
theorem escapeMarkup_join {separator : Text} (h : escapeMarkup separator = separator) (parts : List Text) :
    escapeMarkup (Text.join separator parts) = Text.join separator (parts.map escapeMarkup) := by
  fun_induction Text.join separator parts with
  | case1 => rfl
  | case2 => rfl
  | case3 t ts hne ih =>
    rw [List.map_cons, Text.join_cons _ _ (mt List.map_eq_nil_iff.1 hne), escapeMarkup_append,
      escapeMarkup_append, h, ih]

theorem dropReturn_escapeMarkup (t : Text) :
    Text.dropReturn (escapeMarkup t) = escapeMarkup (Text.dropReturn t) := by
  rcases List.eq_nil_or_concat t with rfl | ⟨front, c, rfl⟩
  · rfl
  · rw [List.concat_eq_append, Text.dropReturn_concat, escapeMarkup_append]
    show Text.dropReturn (escapeMarkup front ++ (escapeMarkupChar c ++ [])) = _
    rw [List.append_nil]
    by_cases hc : c = '\r'
    · subst hc
      exact Text.dropReturn_concat _ _
    · -- a reference ends with a semicolon, any other character is left
      rw [if_neg hc, escapeMarkup_append]
      show _ = escapeMarkup front ++ (escapeMarkupChar c ++ [])
      rw [List.append_nil]
      rcases escapeMarkupChar_eq c with ⟨heq, -⟩ | ⟨name, -, heq⟩
      · rw [heq, Text.dropReturn_concat, if_neg hc]
      · rw [heq, ← List.append_assoc, Text.dropReturn_concat, if_neg (by decide)]

theorem dropReturns_map_escapeMarkup (parts : List Text) :
    Text.dropReturns (parts.map escapeMarkup) = (Text.dropReturns parts).map escapeMarkup := by
  fun_induction Text.dropReturns parts with
  | case1 => rfl
  | case2 => rfl
  | case3 part next parts ih =>
    rw [List.map_cons, List.map_cons, Text.dropReturns, dropReturn_escapeMarkup, ← List.map_cons, ih,
      List.map_cons]

theorem feed_not_mem_map {parts : List Text} (h : ∀ part ∈ parts, '\n' ∉ part) :
    ∀ part ∈ parts.map escapeMarkup, '\n' ∉ part := by
  intro part hpart hmem
  obtain ⟨raw, hraw, rfl⟩ := List.mem_map.1 hpart
  exact h raw hraw (of_mem_escapeMarkup (by decide) hmem).1

/-- An escaped text **with line breaks** is its lines, escaped and joined by line breaks. -/
theorem withLineBreaks_escapeMarkup (s : Text) :
    withLineBreaks (escapeMarkup s) = Text.join lineBreak ((Text.lines s).map escapeMarkup) := by
  have hparts := feed_not_mem_map fun part (h : part ∈ Text.split '\n' s) => Text.not_mem_of_mem_split h
  have hlines := feed_not_mem_map fun line (h : line ∈ Text.lines s) => Text.not_mem_of_mem_lines h
  have hne : (Text.lines s).map escapeMarkup ≠ [] := by
    rw [← List.length_pos_iff, List.length_map, Text.length_lines]
    exact Nat.succ_pos _
  calc withLineBreaks (escapeMarkup s)
    _ = Text.replace "\n" lineBreak (Text.replace "\r\n" "\n"
          (escapeMarkup (Text.join "\n" (Text.split '\n' s)))) := by
        rw [show Text.join "\n" (Text.split '\n' s) = s from Text.join_split '\n' s, withLineBreaks]
    _ = Text.replace "\n" lineBreak (Text.replace "\r\n" "\n"
          (Text.join "\n" ((Text.split '\n' s).map escapeMarkup))) := by rw [escapeMarkup_join rfl]
    _ = Text.replace "\n" lineBreak (Text.join "\n" ((Text.lines s).map escapeMarkup)) := by
        rw [replace_returns hparts, dropReturns_map_escapeMarkup, Text.lines]
    _ = Text.join lineBreak (Text.pieces "\n" (Text.join "\n" ((Text.lines s).map escapeMarkup))) :=
        Text.replace_eq_join _ _ _
    _ = Text.join lineBreak ((Text.lines s).map escapeMarkup) :=
        congrArg _ (Text.pieces_join hlines hne)

/-- Cut **at the line breaks**, it is its lines, escaped. -/
theorem pieces_withLineBreaks (s : Text) :
    Text.pieces lineBreak (withLineBreaks (escapeMarkup s)) = (Text.lines s).map escapeMarkup := by
  have hopen : ∀ piece ∈ (Text.lines s).map escapeMarkup, '<' ∉ piece := by
    intro piece hpiece hmem
    obtain ⟨line, -, rfl⟩ := List.mem_map.1 hpiece
    exact (of_mem_escapeMarkup (by decide) hmem).2 (by decide)
  have hne : (Text.lines s).map escapeMarkup ≠ [] := by
    rw [← List.length_pos_iff, List.length_map, Text.length_lines]
    exact Nat.succ_pos _
  rw [withLineBreaks_escapeMarkup]
  exact Text.pieces_join hopen hne

theorem mapM_unescape?_map_escapeMarkup (lines : List Text) :
    (lines.map escapeMarkup).mapM unescape? = some lines := by
  induction lines with
  | nil => rfl
  | cons line lines ih =>
    rw [List.map_cons, List.mapM_cons, unescape?_escapeMarkup, ih]
    rfl

/-- **Rendered text reads back**: an escaped text holds none of the characters of tags, each of its
ampersands begins one of the five references, and resolving these gives the text. Where line feeds become
line breaks, what is read back between the line breaks is the lines of the text. -/
theorem renderValue_readsBack (rules : FormatRules) (s : Text) :
    (∀ c ∈ ['<', '>', '"', '\''], c ∉ escapeMarkup s) ∧
    (∀ before after, escapeMarkup s = before ++ '&' :: after →
      ∃ name ∈ entityNames, name ++ [';'] <+: after) ∧
    unescape? (escapeMarkup s) = some s ∧
    (rules.lineBreaks = false → unescape? (renderValue rules (.text s) none) = some s) ∧
    (rules.lineBreaks = true →
      (Text.pieces lineBreak (renderValue rules (.text s) none)).mapM unescape? = some (Text.lines s) ∧
      (Text.pieces lineBreak (renderValue rules (.text s) none)).length = s.count '\n' + 1) := by
  refine ⟨fun c hc hmem => ?_, fun before after => prefix_of_escapeMarkup_eq, unescape?_escapeMarkup s,
    fun hoff => ?_, fun hon => ?_⟩
  · have hno : ∀ c ∈ ['<', '>', '"', '\''], ∀ name ∈ entityNames, c ∉ '&' :: name ++ [';'] := by decide
    exact (of_mem_escapeMarkup (hno c hc) hmem).2 (List.mem_cons_of_mem _ hc)
  · rw [renderValue, hoff]
    exact unescape?_escapeMarkup s
  · have hpieces : Text.pieces lineBreak (renderValue rules (.text s) none) =
        (Text.lines s).map escapeMarkup := by
      rw [renderValue, hon]
      exact pieces_withLineBreaks s
    rw [hpieces, List.length_map]
    exact ⟨mapM_unescape?_map_escapeMarkup _, Text.length_lines s⟩

/-- A text that spells a reference and a line break is read back, and only its line feeds **break lines**. -/
theorem renderValue_readsBack_markup :
    '<' ∉ escapeMarkup "<w:br/>&lt;\r\r\n\n\r" ∧
    (∃ name ∈ entityNames, name ++ [';'] <+: "amp;lt;\r\r\n\n\r".toList) ∧
    unescape? (renderValue .plain (.text "<w:br/>&lt;\r\r\n\n\r") none) = some "<w:br/>&lt;\r\r\n\n\r" ∧
    (Text.pieces lineBreak (renderValue ⟨[], [], true⟩ (.text "<w:br/>&lt;\r\r\n\n\r") none)).mapM
      unescape? = some ["<w:br/>&lt;\r".toList, [], "\r".toList] := by
  obtain ⟨hplain, hamp, -, hoff, -⟩ := renderValue_readsBack .plain "<w:br/>&lt;\r\r\n\n\r"
  obtain ⟨-, -, -, -, hon⟩ := renderValue_readsBack ⟨[], [], true⟩ "<w:br/>&lt;\r\r\n\n\r"
  exact ⟨hplain '<' (by decide), hamp "&lt;w:br/&gt;" _ rfl, hoff rfl, (hon rfl).1⟩

end MailMerge
