import MailMerge.Toml.Scalar

/-!
# Reading TOML

A document is a list of lines, each of which opens a table or gives a key a value. A text
is read completely or not at all.

* `TomlReader.value?` reads a value;
* `TomlReader.line?` reads a line;
* `Toml.ofText?` reads a document.
-/

namespace MailMerge

namespace TomlReader

mutual

/-- Reads a value. `depth` bounds the arrays and tables within each other, and `fuel` the
values in all. -/
def value? : Nat → Nat → Text → Option (Toml × Text)
  | 0, _, _ => none
  | fuel + 1, depth, t =>
    match t with
    | '[' :: rest =>
      match depth with
      | 0 => none
      | depth + 1 => (items? fuel depth rest).map fun p => (.array p.1, p.2)
    | '\x7b' :: rest =>
      match depth with
      | 0 => none
      | depth + 1 =>
        match TomlToken.skipGaps rest with
        | '\x7d' :: rest => some (.table .inline [], rest)
        | rest => do
          let (pairs, rest) ← pairs? fuel depth rest
          let table ← Toml.inlineTable pairs
          return (table, rest)
    | '"' :: _ | '\'' :: _ => (TomlToken.string? t).map fun p => (.text p.1, p.2)
    | t => TomlScalar.scalar? t

/-- Reads the items of an array behind its bracket. A comma may follow the last one. -/
def items? : Nat → Nat → Text → Option (List Toml × Text)
  | 0, _, _ => none
  | fuel + 1, depth, t =>
    match TomlToken.skipFiller t with
    | ']' :: rest => some ([], rest)
    | t => do
      let (item, rest) ← value? fuel depth t
      match TomlToken.skipFiller rest with
      | ',' :: rest =>
        let (items, rest) ← items? fuel depth rest
        return (item :: items, rest)
      | ']' :: rest => return ([item], rest)
      | _ => none

/-- Reads the pairs of a table on one line behind its brace. -/
def pairs? : Nat → Nat → Text → Option (List (List Text × Toml) × Text)
  | 0, _, _ => none
  | fuel + 1, depth, t => do
    let (key, rest) ← TomlToken.key? t
    match rest with
    | '=' :: rest =>
      let (value, rest) ← value? fuel depth (TomlToken.skipGaps rest)
      match TomlToken.skipGaps rest with
      | ',' :: rest =>
        let (pairs, rest) ← pairs? fuel depth rest
        return ((key, value) :: pairs, rest)
      | '\x7d' :: rest => return ([(key, value)], rest)
      | _ => none
    | _ => none

end

/-- A **line** of a document: the opening of a table or of a row, or a key with its
value. -/
inductive Line where
  | table (path : List Text)
  | row (path : List Text)
  | pair (path : List Text) (value : Toml)

/-- Reads a line, without what may stand behind it. -/
def line? (t : Text) : Option (Line × Text) :=
  match t with
  | '[' :: '[' :: rest => do
    let (path, rest) ← TomlToken.key? rest
    let rest ← Text.dropPrefix? "]]" rest
    return (.row path, rest)
  | '[' :: rest => do
    let (path, rest) ← TomlToken.key? rest
    let rest ← Text.dropPrefix? "]" rest
    return (.table path, rest)
  | t => do
    let (path, rest) ← TomlToken.key? t
    let rest ← Text.dropPrefix? "=" rest
    let (value, rest) ← value? (t.length + 1) TomlToken.maxDepth (TomlToken.skipGaps rest)
    return (.pair path value, rest)

/-- Reads the lines of a document. `fuel` bounds their number. -/
def lines? : Nat → Text → Option (List Line)
  | 0, _ => none
  | fuel + 1, t =>
    match TomlToken.skipFiller t with
    | [] => some []
    | t => do
      let (line, rest) ← line? t
      let rest ← TomlToken.finishLine? rest
      let lines ← lines? fuel rest
      return line :: lines

/-- A document under construction: the table that was opened last, and the root. -/
structure Building where
  opened : List Text
  root : TomlEntries

/-- Puts a line into effect. -/
def Building.add? (b : Building) : Line → Option Building
  | .table path => (Toml.openTable path b.root).map fun root => ⟨path, root⟩
  | .row path => (Toml.openRow path b.root).map fun root => ⟨path, root⟩
  | .pair path value => (Toml.define b.opened path value b.root).map fun root => { b with root }

/-- A text without the byte order mark at its head. -/
def dropMark : Text → Text
  | '\ufeff' :: t => t
  | t => t

end TomlReader

/-- Reads a **document**, and gives the entries of its root. -/
def Toml.ofText? (t : Text) : Option TomlEntries := do
  let t := TomlReader.dropMark t
  let lines ← TomlReader.lines? (t.length + 1) t
  let built ← lines.foldlM TomlReader.Building.add? ⟨[], []⟩
  return built.root

end MailMerge
