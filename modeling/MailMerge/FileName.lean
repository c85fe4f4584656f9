import MailMerge.Field.Record
import MailMerge.Text.Blank
import MailMerge.Text.Letter

/-!
# File names of documents

A document of one record is named after a prefix and the fields that name the
record. Names hold letters, digits, dashes, dots and single underscores only.

* `sanitizeComponent` makes a part of a file name of any text;
* `documentFileName` is the file name of the document of a record;
* `uniqueName` numbers a name that is taken.
-/

namespace MailMerge

/-- Whether a file name keeps a character. -/
def isNameChar (c : Char) : Bool := isAlphanumeric c || c == '-' || c == '.'

/-- Keeps the characters of file names and puts one underscore in place of each run
of others, given whether such a run is going on. -/
def squeeze (inRun : Bool) : Text → Text
  | [] => []
  | c :: t =>
    if isNameChar c then c :: squeeze false t
    else if inRun then squeeze true t
    else '_' :: squeeze true t

/-- Whether a character is cut off at the ends of a part of a name. -/
def isNameEdge (c : Char) : Bool := c == '_' || c == '.'

/-- A **part of a file name**: a text with its blanks at the ends dropped, other
characters replaced, and no dots or underscores at the ends. -/
def sanitizeComponent (raw : Text) : Text :=
  ((((squeeze false (Text.trim raw)).dropWhile isNameEdge).reverse).dropWhile isNameEdge).reverse

/-- The part of a file name that tells a record: its naming fields, or its index if
it has none of them. -/
def recordStem (nameFields : List Text) (record : Record) (index : Nat) : Text :=
  let parts := (nameFields.filterMap record.get?).map fun v => sanitizeComponent v.toText
  match parts.filter fun part => !part.isEmpty with
  | [] => Text.ofNat index
  | parts => Text.join "_" parts

/-- The suffix of document names. -/
def documentSuffix : Text := ".docx"

/-- The **file name** of the document of a record. -/
def documentFileName (filePrefix : Text) (nameFields : List Text) (record : Record)
    (index : Nat) : Text :=
  let stem := recordStem nameFields record index
  let front := sanitizeComponent filePrefix
  if front.isEmpty then stem ++ documentSuffix else front ++ "_" ++ stem ++ documentSuffix

/-- A name with a number before its suffix. -/
def numberedName (name : Text) (n : Nat) : Text :=
  (Text.dropSuffix? documentSuffix name).getD name ++ "_" ++ Text.ofNat n ++ documentSuffix

/-- The first free name among the numbered ones from `n` on, looked for `steps`
times. -/
def freeName (used : List Text) (name : Text) : Nat → Nat → Text
  | 0, n => numberedName name n
  | steps + 1, n =>
    if used.contains (numberedName name n) then freeName used name steps (n + 1)
    else numberedName name n

/-- A name that is **not used** yet: the name itself or the first free numbered one,
counted from two. As many tries as there are used names are enough. -/
def uniqueName (used : List Text) (name : Text) : Text :=
  if used.contains name then freeName used name used.length 2 else name

end MailMerge
