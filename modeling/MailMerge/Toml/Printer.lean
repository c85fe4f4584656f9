import MailMerge.Toml.Basic

/-!
# Writing TOML

A string is written in the first form in which it needs no escapes; only if there is none,
it is escaped. Lists of two or more strings take a line for each.

* `Toml.stringText` writes a string;
* `Toml.stringsText` writes a list of strings;
* `Toml.pairLine` and `Toml.tableLine` write lines.
-/

namespace MailMerge

namespace Toml

/-! ### Strings -/

/-- The length of the longest run of a character, given the run that is going on. -/
def longestRun (c : Char) (current : Nat) : Text → Nat
  | [] => current
  | d :: t => if d = c then longestRun c (current + 1) t else max current (longestRun c 0 t)

/-- Whether a character cannot stand in a string as it is: control characters other than
the tab and the line feed. -/
def needsCode (c : Char) : Bool :=
  (c.toNat < 0x20 && c != '\t' && c != '\n') || c.toNat == 0x7F

/-- The escape of a character, if it has one. -/
def escapeOf? (c : Char) : Option Text :=
  let short := [('\x08', 'b'), ('\t', 't'), ('\n', 'n'), ('\x0c', 'f'), ('\r', 'r'), ('\\', '\\')]
  match short.lookup c with
  | some letter => some ['\\', letter]
  | none =>
    if needsCode c then
      let digit (n : Nat) := (Nat.digitChar n).toUpper
      some ['\\', 'u', '0', '0', digit (c.toNat / 16), digit (c.toNat % 16)]
    else none

/-- A string between quotes, without the quotes. -/
def escaped (t : Text) : Text :=
  t.flatMap fun c => if c = '"' then ['\\', '"'] else (escapeOf? c).getD [c]

/-- A string over several lines, without the quotes. `quotes` are the quotes just before:
up to two stand as they are. -/
def escapedLines (quotes : Nat) : Text → Text
  | [] => []
  | c :: t =>
    if c = '"' then
      if quotes < 2 then c :: escapedLines (quotes + 1) t
      else '\\' :: '"' :: escapedLines (quotes + 1) t
    else if c = '\n' then c :: escapedLines 0 t
    else (escapeOf? c).getD [c] ++ escapedLines 0 t

/-- The **forms** of a string. -/
inductive StringForm where
  | basic
  | literal
  | lines
  | literalLines
  deriving DecidableEq, Repr

/-- The form in which a string is written. -/
def formOf (t : Text) : StringForm :=
  let hasCodes := t.any needsCode
  let hasBackslash := t.elem '\\'
  let hasLines := t.elem '\n'
  if !hasCodes && !hasBackslash && !hasLines && !t.elem '"' then .basic
  else if !hasCodes && !hasLines && !t.elem '\'' then .literal
  else if !hasCodes && !hasBackslash && longestRun '"' 0 t ≤ 2 then .lines
  else if !hasCodes && longestRun '\'' 0 t ≤ 2 then .literalLines
  else if hasLines then .lines
  else .basic

/-- A string in a form. A string with line feeds begins on a line of its own. -/
def writeAs (form : StringForm) (t : Text) : Text :=
  let start : Text := if t.elem '\n' then ['\n'] else []
  match form with
  | .basic => '"' :: escaped t ++ ['"']
  | .literal => '\'' :: t ++ ['\'']
  | .lines => "\"\"\"" ++ start ++ escapedLines 0 t ++ "\"\"\""
  | .literalLines => "'''" ++ start ++ t ++ "'''"

/-- A **string** as it is written. -/
def stringText (t : Text) : Text := writeAs (formOf t) t

/-- A string on a line of its own in a list. -/
def itemLine (t : Text) : Text := "    " ++ stringText t ++ ",\n"

/-- A **list of strings** as it is written. -/
def stringsText : List Text → Text
  | [] => "[]"
  | [t] => '[' :: stringText t ++ "]"
  | ts => "[\n" ++ ts.flatMap itemLine ++ "]"

/-! ### Lines -/

/-- The line of a key and its value. -/
def pairLine (key value : Text) : Text := key ++ " = " ++ value ++ "\n"

/-- The line that opens a table. -/
def tableLine (path : Text) : Text := "[" ++ path ++ "]\n"

/-- The line that opens a row of a list of tables. -/
def rowLine (path : Text) : Text := "[[" ++ path ++ "]]\n"

/-- A truth value as it is written. -/
def booleanText (b : Bool) : Text := if b then "true".toList else "false".toList

end Toml

end MailMerge
