import MailMerge.Archive.Writing
import MailMerge.Digest

/-!
# Documents

A finished **document** is an archive with a file name. It remembers how many copies of
the region it holds.
-/

namespace MailMerge

/-- A **document**: its file name, its archive and the number of its copies. -/
structure Document where
  fileName : Text
  archive : Archive
  copies : Nat
  deriving DecidableEq, Repr

namespace Document

/-- The media type of documents and templates. -/
def mediaType : Text := "application/vnd.openxmlformats-officedocument.wordprocessingml.document"

/-- The bytes of a document. -/
def bytes (d : Document) : Bytes := d.archive.toBytes

/-- The digest of a document. -/
def digest (d : Document) : Text := digestText d.bytes

end Document

end MailMerge
