import MailMerge.Archive.Basic
import MailMerge.Archive.Word

/-!
# Writing archives

An archive is written as its parts, each behind a **local header**, then a **directory**
that names all of them again with their offsets, and an **end record** that says where
the directory stands.

* `Archive.toBytes` writes an archive.
-/

namespace MailMerge

/-- The number of a method in an archive. -/
def StorageMethod.code : StorageMethod → Nat
  | .stored => 0
  | .deflated => 8
  | .other code => code

namespace ArchiveMark

/-- What a local header begins with. -/
def localHeader : Bytes := [0x50, 0x4B, 3, 4]

/-- What an entry of the directory begins with. -/
def directoryEntry : Bytes := [0x50, 0x4B, 1, 2]

/-- What the end record begins with. -/
def directoryEnd : Bytes := [0x50, 0x4B, 5, 6]

end ArchiveMark

namespace Part

/-- The name of a part as bytes. -/
def nameBytes (part : Part) : Bytes := part.name.toUtf8

/-- The fields that a local header and an entry of the directory share. -/
def sharedFields (part : Part) : Bytes :=
  let flags := if part.name.all fun c => c.toNat < 128 then 0 else 0x800
  wordBytes 2 20 ++ wordBytes 2 flags ++ wordBytes 2 part.method.code ++
    wordBytes 2 0 ++ wordBytes 2 0x21 ++
    wordBytes 4 part.checksum.toNat ++ wordBytes 4 part.packed.length ++ wordBytes 4 part.size ++
    wordBytes 2 part.nameBytes.length ++ wordBytes 2 0

/-- A part behind its local header. -/
def localBytes (part : Part) : Bytes :=
  ArchiveMark.localHeader ++ part.sharedFields ++ part.nameBytes ++ part.packed

/-- The entry of a part in the directory, given the offset of its local header. -/
def directoryBytes (part : Part) (offset : Nat) : Bytes :=
  ArchiveMark.directoryEntry ++ wordBytes 2 0x314 ++ part.sharedFields ++
    wordBytes 2 0 ++ wordBytes 2 0 ++ wordBytes 2 0 ++ wordBytes 4 0x81A40000 ++
    wordBytes 4 offset ++ part.nameBytes

end Part

namespace Archive

/-- The directory of parts, the first of which stands at an offset. -/
def directoryOf (offset : Nat) : List Part → Bytes
  | [] => []
  | part :: parts =>
    part.directoryBytes offset ++ directoryOf (offset + part.localBytes.length) parts

/-- The **bytes** of an archive. -/
def toBytes (archive : Archive) : Bytes :=
  let front := archive.parts.flatMap Part.localBytes
  let directory := directoryOf 0 archive.parts
  front ++ directory ++ ArchiveMark.directoryEnd ++ wordBytes 2 0 ++ wordBytes 2 0 ++
    wordBytes 2 archive.parts.length ++ wordBytes 2 archive.parts.length ++
    wordBytes 4 directory.length ++ wordBytes 4 front.length ++ wordBytes 2 0

end Archive

end MailMerge
