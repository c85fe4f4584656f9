import MailMerge.Text.Basic

/-!
# Tokens of TOML

Strings, keys, blanks and comments. Each reader takes what it reads off the head of a
text and gives what is left.

* `TomlToken.string?` reads a string in any of its four forms;
* `TomlToken.key?` reads a key, part by part;
* `TomlToken.skipFiller` skips blanks, line ends and comments.
-/

namespace MailMerge

namespace TomlToken

/-- Whether a character may stand in a string or a comment: control characters other than
the tab may not. -/
def isPlain (c : Char) : Bool := c == '\t' || (0x20 ≤ c.toNat && c.toNat != 0x7F)

/-- Whether a character is a blank within a line. -/
def isGap (c : Char) : Bool := c == ' ' || c == '\t'

/-- Skips blanks within a line. -/
def skipGaps (t : Text) : Text := t.dropWhile isGap

/-- What follows a line end. -/
def lineEnd? : Text → Option Text
  | '\n' :: t | '\r' :: '\n' :: t => some t
  | _ => none

/-- Skips a comment, if there is one. -/
def skipComment : Text → Text
  | '#' :: t => t.dropWhile isPlain
  | t => t

/-- Skips what may stand behind a statement: blanks, a comment, and the end of the line or
of the text. -/
def finishLine? (t : Text) : Option Text :=
  match skipComment (skipGaps t) with
  | [] => some []
  | t => lineEnd? t

/-- Skips blanks, line ends and comments. -/
def skipFiller : Text → Text
  | '#' :: t => skipFiller (t.dropWhile isPlain)
  | '\r' :: '\n' :: t => skipFiller t
  | c :: t => if isGap c || c == '\n' then skipFiller t else c :: t
  | [] => []
termination_by t => t.length
decreasing_by
  · have := (List.dropWhile_sublist (l := t) isPlain).length_le
    simp only [List.length_cons]
    omega
  · simp only [List.length_cons]
    omega
  · simp only [List.length_cons]
    omega

/-! ### Strings -/

/-- The character of a hexadecimal code, if it is one. -/
def charOfCode? (digits : Text) : Option Char := do
  let code ← digits.foldl (fun n c => do return 16 * (← n) + (← Text.digitValue? 16 c)) (some 0)
  if code.isValidChar then return Char.ofNat code else none

/-- The character that a letter behind a backslash stands for. -/
def shortEscape? (c : Char) : Option Char :=
  [('b', '\x08'), ('t', '\t'), ('n', '\n'), ('f', '\x0c'), ('r', '\r'), ('"', '"'),
    ('\\', '\\')].lookup c

/-- Reads an escape behind its backslash. -/
def escape? : Text → Option (Char × Text)
  | 'u' :: t => if t.length < 4 then none else (charOfCode? (t.take 4)).map fun c => (c, t.drop 4)
  | 'U' :: t => if t.length < 8 then none else (charOfCode? (t.take 8)).map fun c => (c, t.drop 8)
  | c :: t => (shortEscape? c).map fun d => (d, t)
  | [] => none

theorem length_of_escape? {t rest : Text} {c : Char} (h : escape? t = some (c, rest)) :
    rest.length < t.length := by
  unfold escape? at h
  split at h
  · split at h
    · simp at h
    · simp only [Option.map_eq_some_iff, Prod.mk.injEq] at h
      obtain ⟨_, _, _, rfl⟩ := h
      simp only [List.length_drop, List.length_cons]
      omega
  · split at h
    · simp at h
    · simp only [Option.map_eq_some_iff, Prod.mk.injEq] at h
      obtain ⟨_, _, _, rfl⟩ := h
      simp only [List.length_drop, List.length_cons]
      omega
  · simp only [Option.map_eq_some_iff, Prod.mk.injEq] at h
    obtain ⟨_, _, _, rfl⟩ := h
    simp
  · simp at h

/-- Puts a character before what was read. -/
def before (c : Char) (r : Option (Text × Text)) : Option (Text × Text) :=
  r.map fun p => (c :: p.1, p.2)

/-- Reads a string between quotes behind the first quote. -/
def basic? (t : Text) : Option (Text × Text) :=
  match t with
  | [] => none
  | '"' :: t => some ([], t)
  | '\\' :: t =>
    match _h : escape? t with
    | some (c, rest) => before c (basic? rest)
    | none => none
  | c :: t => if isPlain c then before c (basic? t) else none
termination_by t.length
decreasing_by
  · have := length_of_escape? _h
    simp only [List.length_cons]
    omega
  · simp

/-- Reads a string between single quotes behind the first quote. -/
def literal? : Text → Option (Text × Text)
  | [] => none
  | c :: t => if c = '\'' then some ([], t) else if isPlain c then before c (literal? t) else none

/-- The end of a string over several lines: three quotes, before which up to two more
belong to the string. -/
def closing? (quote : Char) (t : Text) : Option (Text × Text) :=
  let count := (t.takeWhile (· == quote)).length
  if count < 3 then none
  else
    let inner := min (count - 3) 2
    some (List.replicate inner quote, t.drop (inner + 3))

/-- What follows a backslash that stands at the end of a line: the next text that is not
blank. -/
def continuation? (t : Text) : Option Text :=
  match skipGaps t with
  | '\n' :: rest | '\r' :: '\n' :: rest => some (skipBlankLines rest)
  | _ => none
where
  /-- Skips blanks and line ends. -/
  skipBlankLines : Text → Text
    | '\r' :: '\n' :: t => skipBlankLines t
    | c :: t => if isGap c || c == '\n' then skipBlankLines t else c :: t
    | [] => []

theorem length_skipBlankLines (t : Text) :
    (continuation?.skipBlankLines t).length ≤ t.length := by
  fun_induction continuation?.skipBlankLines t with
  | case1 t ih => simp only [List.length_cons]; omega
  | case2 c t _ _ ih => simp only [List.length_cons]; omega
  | case3 => simp
  | case4 => simp

theorem length_of_continuation? {t rest : Text} (h : continuation? t = some rest) :
    rest.length < t.length := by
  have hg : (skipGaps t).length ≤ t.length := (List.dropWhile_sublist _).length_le
  unfold continuation? at h
  split at h
  · rename_i r e
    cases h
    have := length_skipBlankLines r
    rw [e] at hg
    simp only [List.length_cons] at hg
    omega
  · rename_i r e
    cases h
    have := length_skipBlankLines r
    rw [e] at hg
    simp only [List.length_cons] at hg
    omega
  · simp at h

/-- Reads a string over several lines behind its first quotes. A backslash at the end of a
line joins the lines. -/
def lines? (t : Text) : Option (Text × Text) :=
  match closing? '"' t with
  | some (inner, rest) => some (inner, rest)
  | none =>
    match t with
    | [] => none
    | '\r' :: '\n' :: t => before '\n' (lines? t)
    | '\\' :: t =>
      match _joined : continuation? t with
      | some rest => lines? rest
      | none =>
        match _read : escape? t with
        | some (c, rest) => before c (lines? rest)
        | none => none
    | c :: t => if isPlain c || c == '\n' then before c (lines? t) else none
termination_by t.length
decreasing_by
  · simp only [List.length_cons]
    omega
  · have := length_of_continuation? _joined
    simp only [List.length_cons]
    omega
  · have := length_of_escape? _read
    simp only [List.length_cons]
    omega
  · simp

/-- Reads a literal string over several lines behind its first quotes. -/
def literalLines? (t : Text) : Option (Text × Text) :=
  match closing? '\'' t with
  | some (inner, rest) => some (inner, rest)
  | none =>
    match t with
    | [] => none
    | '\r' :: '\n' :: t => before '\n' (literalLines? t)
    | c :: t => if isPlain c || c == '\n' then before c (literalLines? t) else none

/-- A text without the line end at its head. -/
def dropLineEnd (t : Text) : Text := (lineEnd? t).getD t

/-- Reads a **string**. -/
def string? : Text → Option (Text × Text)
  | '"' :: '"' :: '"' :: t => lines? (dropLineEnd t)
  | '\'' :: '\'' :: '\'' :: t => literalLines? (dropLineEnd t)
  | '"' :: t => basic? t
  | '\'' :: t => literal? t
  | _ => none

/-! ### Keys -/

/-- Whether a character may stand in a key without quotes. -/
def isBare (c : Char) : Bool := c.isAlphanum || c == '_' || c == '-'

/-- Reads one part of a key. -/
def keyPart? : Text → Option (Text × Text)
  | '"' :: t => basic? t
  | '\'' :: t => literal? t
  | t =>
    let name := t.takeWhile isBare
    if name.isEmpty then none else some (name, t.dropWhile isBare)

/-- The greatest number of parts of a key, and of values within each other. -/
def maxDepth : Nat := 79

/-- Reads the parts of a key, at most `parts` of them, and the blanks behind it. -/
def keyParts? : Nat → Text → Option (List Text × Text)
  | 0, _ => none
  | parts + 1, t => do
    let (name, rest) ← keyPart? (skipGaps t)
    match skipGaps rest with
    | '.' :: rest =>
      let (names, rest) ← keyParts? parts rest
      return (name :: names, rest)
    | rest => return ([name], rest)

/-- Reads a **key**, with the blanks around its parts. -/
def key? (t : Text) : Option (List Text × Text) := keyParts? maxDepth t

end TomlToken

end MailMerge
