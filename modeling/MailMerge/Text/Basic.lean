/-!
# Texts

Markup, field names and field values are **texts**: lists of characters. Every
scan of the library is a recursion on such a list, so that a statement about a
scan is an induction, and a string literal is read as a text wherever one is
expected.

* `Text.utf8Size` measures a text in UTF-8 bytes, the unit of all offsets, and
  `Text.splitAtByte?` cuts a text at such an offset;
* `Text.cut?` and `Text.lastCut?` cut a text around the first and the last
  occurrence of another;
* `Text.replace` rewrites every occurrence, from left to right;
* `upsert` is the insertion-ordered table that records, substitutions and
  parsed objects are built with.
-/

namespace MailMerge

/-- A **text** is a list of characters. -/
abbrev Text := List Char

instance : Coe String Text := ⟨String.toList⟩

namespace Text

/-! ### Bytes -/

/-- The length of a text in UTF-8 bytes. -/
def utf8Size : Text → Nat
  | [] => 0
  | c :: t => c.utf8Size + utf8Size t

@[simp] theorem utf8Size_nil : utf8Size [] = 0 := rfl

@[simp] theorem utf8Size_cons (c : Char) (t : Text) :
    utf8Size (c :: t) = c.utf8Size + utf8Size t := rfl

@[simp] theorem utf8Size_append (s t : Text) :
    utf8Size (s ++ t) = utf8Size s + utf8Size t := by
  induction s with
  | nil => simp
  | cons c s ih => simp [ih, Nat.add_assoc]

/-- Cuts a text at a byte offset. There is no cut past the end or inside a
character. -/
def splitAtByte? : Nat → Text → Option (Text × Text)
  | 0, t => some ([], t)
  | _ + 1, [] => none
  | n + 1, c :: t =>
    if c.utf8Size ≤ n + 1 then
      (splitAtByte? (n + 1 - c.utf8Size) t).map fun p => (c :: p.1, p.2)
    else none

/-! ### Searching -/

/-- What follows `needle` at the head of a text, if the text begins with it. -/
def dropPrefix? : Text → Text → Option Text
  | [], t => some t
  | _ :: _, [] => none
  | n :: needle, c :: t => if n = c then dropPrefix? needle t else none

theorem dropPrefix?_eq_some_iff {needle t rest : Text} :
    dropPrefix? needle t = some rest ↔ t = needle ++ rest := by
  induction needle generalizing t with
  | nil => simp [dropPrefix?]
  | cons n needle ih =>
    cases t with
    | nil => simp [dropPrefix?]
    | cons c t =>
      by_cases h : n = c
      · simp [dropPrefix?, h, ih]
      · simp [dropPrefix?, h, Ne.symm h]

/-- Whether a text begins with `needle`. -/
def startsWith (needle t : Text) : Bool := (dropPrefix? needle t).isSome

/-- Cuts a text around the first occurrence of `needle`: what stands before it
and what stands after it. -/
def cut? (needle : Text) : Text → Option (Text × Text)
  | [] => if needle.isEmpty then some ([], []) else none
  | c :: t =>
    match dropPrefix? needle (c :: t) with
    | some rest => some ([], rest)
    | none => (cut? needle t).map fun p => (c :: p.1, p.2)

/-- Cuts a text around the last occurrence of `needle`. -/
def lastCut? (needle : Text) : Text → Option (Text × Text)
  | [] => if needle.isEmpty then some ([], []) else none
  | c :: t =>
    match lastCut? needle t with
    | some p => some (c :: p.1, p.2)
    | none => (dropPrefix? needle (c :: t)).map fun rest => ([], rest)

/-- Whether `needle` occurs in a text. -/
def contains (needle t : Text) : Bool := (cut? needle t).isSome

/-- Drops `needle` from the end of a text, if the text ends with it. -/
def dropSuffix? (needle t : Text) : Option Text :=
  (dropPrefix? needle.reverse t.reverse).map List.reverse

/-- Whether a text ends with `needle`. -/
def endsWith (needle t : Text) : Bool := (dropSuffix? needle t).isSome

/-- Replaces every occurrence of `old`, from left to right; what is put in is
not looked at again. An empty `old` occurs nowhere. -/
def replace (old new : Text) : Text → Text
  | [] => []
  | c :: t =>
    if old ≠ [] ∧ startsWith old (c :: t) then
      new ++ replace old new (t.drop (old.length - 1))
    else c :: replace old new t
termination_by t => t.length

/-- The parts of a text between the occurrences of a separator. -/
def split (separator : Char) : Text → List Text
  | [] => [[]]
  | c :: t =>
    if c = separator then [] :: split separator t
    else
      match split separator t with
      | [] => [[c]]
      | p :: ps => (c :: p) :: ps

theorem split_eq_splitOn (separator : Char) (t : Text) : split separator t = t.splitOn separator := by
  induction t with
  | nil => rfl
  | cons c t ih =>
    rw [split, ih, List.splitOn_cons_eq_if_modifyHead]
    by_cases h : c = separator
    · rw [if_pos h, if_pos (beq_iff_eq.2 h)]
    · rw [if_neg h, if_neg (mt beq_iff_eq.1 h)]
      cases hparts : t.splitOn separator with
      | nil => exact absurd hparts (List.splitOn_ne_nil separator t)
      | cons p ps => rfl

/-- Joins texts with a separator between each two. -/
def join (separator : Text) : List Text → Text
  | [] => []
  | [t] => t
  | t :: ts => t ++ separator ++ join separator ts

/-! ### Digits -/

/-- The decimal digits of a natural number. -/
def ofNat (n : Nat) : Text := Nat.toDigits 10 n

/-- The decimal digits of an integer, behind a minus sign if it is negative. -/
def ofInt : Int → Text
  | .ofNat n => ofNat n
  | .negSucc n => '-' :: ofNat (n + 1)

/-- Digits padded with zeros on the left to a width. -/
def padded (width n : Nat) : Text :=
  List.replicate (width - (ofNat n).length) '0' ++ ofNat n

/-- The number that a list of decimal digits spells. -/
def digitsValue (t : Text) : Nat := t.foldl (fun n c => 10 * n + (c.toNat - '0'.toNat)) 0

/-- The value of a digit in a base up to sixteen. -/
def digitValue? (base : Nat) (c : Char) : Option Nat :=
  let value :=
    if '0' ≤ c ∧ c ≤ '9' then some (c.toNat - '0'.toNat)
    else if 'a' ≤ c ∧ c ≤ 'f' then some (c.toNat - 'a'.toNat + 10)
    else if 'A' ≤ c ∧ c ≤ 'F' then some (c.toNat - 'A'.toNat + 10)
    else none
  value.filter (· < base)

/-! ### Order -/

/-- The order of texts by their UTF-8 bytes, which is their order by code
points. -/
def le (s t : Text) : Bool :=
  match s, t with
  | [], _ => true
  | _ :: _, [] => false
  | a :: s, b :: t => if a = b then le s t else decide (a < b)

/-- A text with its ASCII capitals made small. -/
def asciiLower (t : Text) : Text := t.map Char.toLower

end Text

/-! ### Tables -/

/-- Sets the value of a name in a table of pairs: the first entry of that name
is overwritten where it stands, and a new name goes to the end. -/
def upsert {α β : Type} [DecidableEq α] (name : α) (value : β) : List (α × β) → List (α × β)
  | [] => [(name, value)]
  | (n, v) :: rest =>
    if n = name then (n, value) :: rest else (n, v) :: upsert name value rest

theorem lookup_upsert {α β : Type} [DecidableEq α] [BEq α] [LawfulBEq α] (name : α) (value : β)
    (table : List (α × β)) : (upsert name value table).lookup name = some value := by
  induction table with
  | nil => simp [upsert]
  | cons e table ih =>
    obtain ⟨n, v⟩ := e
    by_cases h : n = name
    · simp [upsert, h]
    · have hn : (name == n) = false := beq_eq_false_iff_ne.2 (Ne.symm h)
      simp [upsert, h, List.lookup_cons, hn, ih]

theorem lookup_upsert_of_ne {α β : Type} [DecidableEq α] [BEq α] [LawfulBEq α] {name other : α}
    (h : other ≠ name) (value : β) (table : List (α × β)) :
    (upsert name value table).lookup other = table.lookup other := by
  have hn : (other == name) = false := beq_eq_false_iff_ne.2 h
  induction table with
  | nil => simp [upsert, List.lookup_cons, hn]
  | cons e table ih =>
    obtain ⟨n, v⟩ := e
    by_cases he : n = name
    · subst he
      simp [upsert, List.lookup_cons, hn]
    · simp only [upsert, he, if_false, List.lookup_cons, ih]

end MailMerge
