import MailMerge.Text.Basic

/-!
# Faults of archives
-/

namespace MailMerge

/-- Why bytes are **no archive**. -/
inductive ArchiveFault where
  | noEnd
  | cutEnd
  | cutComment
  | directoryOffset
  | noDirectory
  deriving DecidableEq, Repr

/-- The text of a fault. -/
def ArchiveFault.message : ArchiveFault → Text
  | .noEnd => "invalid Zip archive: Could not find EOCD"
  | .cutEnd => "i/o error: failed to fill whole buffer"
  | .cutComment => "invalid Zip archive: EOCD comment exceeds file boundary"
  | .directoryOffset => "invalid Zip archive: Invalid CDFH offset in EOCD"
  | .noDirectory => "invalid Zip archive: No CDFH found"

/-- Why the content of a part **cannot be read** as text. -/
inductive ContentFault where
  | corruptStream
  | checksum
  | notText
  deriving DecidableEq, Repr

/-- The text of a fault. -/
def ContentFault.message : ContentFault → Text
  | .corruptStream => "corrupt deflate stream"
  | .checksum => "Invalid checksum"
  | .notText => "stream did not contain valid UTF-8"

end MailMerge
