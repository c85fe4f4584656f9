import MailMerge.Markup.Tag
import MailMerge.Placeholder.Convention
import MailMerge.Placeholder.Table

/-!
# Substitution

Every placeholder of a fragment is replaced by its value in one pass, and what has
been put in is not looked at again.

* `substituteTokens` replaces the tokens of a delimited convention; a token without a
  value becomes empty;
* `substituteBare` replaces bare names in character data: at each place the longest
  name that begins there, else a reference is passed over whole, else one character;
* `substitute` is either of them, by the convention.
-/

namespace MailMerge

/-! ### Tokens -/

/-- Replaces the tokens of a fragment. -/
def substituteTokens (d : Delimiters) (s : Substitutions) (fragment : Text) : Text :=
  rewriteMatches d.token (fun token => (s.lookup (d.tokenName token)).getD []) fragment

/-! ### Bare names -/

/-- The **forms** of the names of a table, each with its value: escaped as character
data, quotes as they are or escaped as well. Names that are empty have no form. -/
def nameForms (s : Substitutions) : List (Text × Text) :=
  s.ordered.flatMap fun (name, value) =>
    if name.isEmpty then [] else [(escapeText name, value), (escapeMarkup name, value)]

/-- Whether one form is at least as long as another, in bytes. -/
def longerForm (a b : Text × Text) : Bool := decide (Text.utf8Size b.1 ≤ Text.utf8Size a.1)

/-- The forms in the order in which they are tried: longest first, and of one length
in the order of the table. -/
def formsInOrder (s : Substitutions) : List (Text × Text) := (nameForms s).mergeSort longerForm

/-- Whether a character may continue the name of an entity. -/
def isAsciiAlphanumeric (c : Char) : Bool := c.isAlphanum

/-- Matches an entity reference or a character reference. -/
def reference : Matcher := fun t =>
  match t with
  | '&' :: '#' :: 'x' :: r =>
    let digits := r.takeWhile fun c => (Text.digitValue? 16 c).isSome
    if !digits.isEmpty && Text.startsWith ";" (r.drop digits.length) then digits.length + 4 else 0
  | '&' :: '#' :: r =>
    let digits := r.takeWhile Char.isDigit
    if !digits.isEmpty && Text.startsWith ";" (r.drop digits.length) then digits.length + 3 else 0
  | '&' :: c :: r =>
    let letters := r.takeWhile isAsciiAlphanumeric
    if c.isAlpha && Text.startsWith ";" (r.drop letters.length) then letters.length + 3 else 0
  | _ => 0

/-- Replaces the bare names in character data, given their forms in the order in
which they are tried. -/
def substituteData (forms : List (Text × Text)) : Text → Text
  | [] => []
  | c :: t =>
    match forms.find? fun form => Text.startsWith form.1 (c :: t) with
    | some (form, value) => value ++ substituteData forms (t.drop (form.length - 1))
    | none =>
      match reference (c :: t) with
      | 0 => c :: substituteData forms t
      | n + 1 => (c :: t.take n) ++ substituteData forms (t.drop n)
termination_by t => t.length

/-- The pieces of a fragment: its tags, and the runs of character data between
them, the last run included. -/
inductive Piece where
  | tag (text : Text)
  | data (text : Text)
  deriving DecidableEq, Repr

/-- Puts a character in front of the run of character data at the head of a list of
pieces. -/
def Piece.consData (c : Char) : List Piece → List Piece
  | .data t :: ps => .data (c :: t) :: ps
  | ps => .data [c] :: ps

/-- Cuts a fragment into tags and runs of character data. -/
def pieces (fragment : Text) : List Piece :=
  (segments anyTag fragment).foldr
    (fun segment ps =>
      match segment with
      | .hit tag => .tag tag :: ps
      | .plain c => Piece.consData c ps) []

/-- Replaces the bare names of a fragment. Tags stay as they are. -/
def substituteBare (s : Substitutions) (fragment : Text) : Text :=
  let forms := formsInOrder s
  (pieces fragment).flatMap fun
    | .tag t => t
    | .data t => substituteData forms t

/-- Replaces every placeholder of a fragment. -/
def substitute (convention : PlaceholderConvention) (s : Substitutions) (fragment : Text) : Text :=
  match convention.delimiters? with
  | some d => substituteTokens d s fragment
  | none => substituteBare s fragment

end MailMerge
