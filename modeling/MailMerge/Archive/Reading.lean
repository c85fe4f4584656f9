import MailMerge.Archive.Fault
import MailMerge.Archive.Name
import MailMerge.Archive.Writing

/-!
# Reading archives

An archive is read from its end: the last **end record** that leads to a sound directory
counts. Bytes may stand before the archive; the first entry of the directory shows how
many.

* `DirectoryEnd.ofBytes?` reads an end record;
* `readEntries?` reads the entries of the directory, each with its local header;
* `Archive.ofBytes?` reads an archive.
-/

namespace MailMerge

/-- The method of a number in an archive. -/
def StorageMethod.ofCode (code : Nat) : StorageMethod :=
  if code = 0 then .stored else if code = 8 then .deflated else .other code

/-- What an **end record** says: the number of entries in all and on this disk, the
offset of the directory, and whether all is on one disk. -/
structure DirectoryEnd where
  total : Nat
  count : Nat
  offset : Nat
  oneDisk : Bool
  deriving DecidableEq, Repr

/-- The end record at the head of bytes. -/
def DirectoryEnd.ofBytes? (bytes : Bytes) : Except ArchiveFault DirectoryEnd :=
  if bytes.length < 22 then .error .cutEnd
  else if bytes.length < 22 + wordAt 20 2 bytes then .error .cutComment
  else .ok ⟨wordAt 10 2 bytes, wordAt 8 2 bytes, wordAt 16 4 bytes,
    wordAt 4 2 bytes == wordAt 6 2 bytes⟩

/-- The offset at which the stored bytes of a part begin, given the offset of its local
header. -/
def dataOffset? (input : Bytes) (header : Nat) : Option Nat :=
  let bytes := input.drop header
  if startsWithBytes ArchiveMark.localHeader bytes ∧ 30 ≤ bytes.length then
    some (header + 30 + wordAt 26 2 bytes + wordAt 28 2 bytes)
  else none

/-- Reads the entry of the directory at the head of `bytes`, with what follows it.
`shift` is the number of bytes before the archive, and `directory` is the offset of the
directory, which no part may reach. -/
def readEntry? (input : Bytes) (shift directory : Nat) (bytes : Bytes) : Option (Part × Bytes) := do
  guard (startsWithBytes ArchiveMark.directoryEntry bytes)
  let nameLength := wordAt 28 2 bytes
  let length := 46 + nameLength + wordAt 30 2 bytes + wordAt 32 2 bytes
  guard (length ≤ bytes.length)
  let header := wordAt 42 4 bytes + shift
  guard (header < directory)
  let start ← dataOffset? input header
  guard (start ≤ directory)
  let flags := wordAt 8 2 bytes
  let part : Part :=
    { name := PartName.ofBytes (flags.testBit 11) ((bytes.drop 46).take nameLength)
      method := StorageMethod.ofCode (wordAt 10 2 bytes)
      checksum := UInt32.ofNat (wordAt 16 4 bytes)
      size := wordAt 24 4 bytes
      packed := (input.drop start).take (wordAt 20 4 bytes)
      isEncrypted := flags.testBit 0 }
  return (part, bytes.drop length)

/-- Reads a number of entries of the directory. -/
def readEntries? (input : Bytes) (shift directory : Nat) : Nat → Bytes → Option (List Part)
  | 0, _ => some []
  | count + 1, bytes => do
    let (part, rest) ← readEntry? input shift directory bytes
    let parts ← readEntries? input shift directory count rest
    return part :: parts

/-- The parts by name: a part replaces an earlier one of its name where that stands. -/
def byName (parts : List Part) : List Part :=
  (parts.foldl (fun table p => upsert p.name p table) []).map (·.2)

/-- Where the directory of an end record at an offset stands: the bytes before the
archive, and the offset of the directory. -/
def locateDirectory (input : Bytes) (position : Nat) (ending : DirectoryEnd) :
    Except ArchiveFault (Nat × Nat) :=
  if ending.total = 0 then .ok (0, ending.offset)
  else if position ≤ ending.offset then .error .directoryOffset
  else
    let window := (input.drop ending.offset).take (position - ending.offset)
    match offsetsOf ArchiveMark.directoryEntry ending.offset window with
    | directory :: _ => .ok (directory - ending.offset, directory)
    | [] => .error .noDirectory

/-- Reads the archive whose end record stands at one of some offsets, the first of which
is tried first. `fault` is what was wrong so far. -/
def readFromEnds (input : Bytes) (fault : Option ArchiveFault) :
    List Nat → Except ArchiveFault Archive
  | [] => .error (fault.getD .noEnd)
  | position :: positions =>
    match DirectoryEnd.ofBytes? (input.drop position) with
    | .error found => readFromEnds input (some (fault.getD found)) positions
    | .ok ending =>
      match locateDirectory input position ending with
      | .error found => readFromEnds input (some found) positions
      | .ok (shift, directory) =>
        let entries :=
          if ending.oneDisk then
            readEntries? input shift directory ending.count (input.drop directory)
          else none
        match entries with
        | some parts => .ok ⟨byName parts⟩
        | none => readFromEnds input none positions

/-- Reads an **archive**. -/
def Archive.ofBytes? (bytes : Bytes) : Except ArchiveFault Archive :=
  readFromEnds bytes none (offsetsOf ArchiveMark.directoryEnd 0 bytes).reverse

end MailMerge
