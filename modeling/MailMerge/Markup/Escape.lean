import MailMerge.Text.Basic

/-!
# Escaping

Values are put into markup with the characters `& < > " '` written as entity
references.

* `escapeMarkup` escapes all five characters, `escapeText` only those that
  character data may not hold;
* `unescape?` resolves the five references and refuses any other ampersand.
-/

namespace MailMerge

/-- A character of a value, escaped. -/
def escapeMarkupChar : Char → Text
  | '&' => "&amp;"
  | '<' => "&lt;"
  | '>' => "&gt;"
  | '"' => "&quot;"
  | '\'' => "&apos;"
  | c => [c]

/-- A value with the characters `& < > " '` escaped. -/
def escapeMarkup (t : Text) : Text := t.flatMap escapeMarkupChar

/-- A character of a name, escaped as far as character data demands it. -/
def escapeTextChar : Char → Text
  | '&' => "&amp;"
  | '<' => "&lt;"
  | '>' => "&gt;"
  | c => [c]

/-- A text with the characters `& < >` escaped. -/
def escapeText (t : Text) : Text := t.flatMap escapeTextChar

/-- Resolves the five predefined references. An ampersand that starts none of them
is refused. -/
def unescape? : Text → Option Text
  | [] => some []
  | '&' :: 'a' :: 'm' :: 'p' :: ';' :: t => (unescape? t).map ('&' :: ·)
  | '&' :: 'l' :: 't' :: ';' :: t => (unescape? t).map ('<' :: ·)
  | '&' :: 'g' :: 't' :: ';' :: t => (unescape? t).map ('>' :: ·)
  | '&' :: 'q' :: 'u' :: 'o' :: 't' :: ';' :: t => (unescape? t).map ('"' :: ·)
  | '&' :: 'a' :: 'p' :: 'o' :: 's' :: ';' :: t => (unescape? t).map ('\'' :: ·)
  | c :: t => if c = '&' then none else (unescape? t).map (c :: ·)

@[simp] theorem escapeMarkup_nil : escapeMarkup [] = [] := rfl

@[simp] theorem escapeMarkup_append (s t : Text) :
    escapeMarkup (s ++ t) = escapeMarkup s ++ escapeMarkup t := by
  simp [escapeMarkup]

/-! ### Line breaks -/

/-- The markup of a line break: it ends the text element, breaks the line and opens
a new text element. -/
def lineBreak : Text := "</w:t><w:br/><w:t xml:space=\"preserve\">"

/-- Puts line-break markup in place of every line feed of an escaped text. One
carriage return directly before a line feed belongs to it. -/
def withLineBreaks (t : Text) : Text :=
  Text.replace "\n" lineBreak (Text.replace "\r\n" "\n" t)

end MailMerge
