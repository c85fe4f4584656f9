import MailMerge.Text.Basic

/-!
# Faults of the file system
-/

namespace MailMerge

/-- Why an operation on a **file or directory** fails. -/
inductive StorageFault where
  | notFound
  | exists
  | notADirectory
  | isADirectory
  | nameTooLong
  | nulByte
  | notText
  | other (message : Text)
  deriving DecidableEq, Repr

/-- The text of a fault. -/
def StorageFault.message : StorageFault → Text
  | .notFound => "No such file or directory (os error 2)"
  | .exists => "File exists (os error 17)"
  | .notADirectory => "Not a directory (os error 20)"
  | .isADirectory => "Is a directory (os error 21)"
  | .nameTooLong => "File name too long (os error 36)"
  | .nulByte => "file name contained an unexpected NUL byte"
  | .notText => "stream did not contain valid UTF-8"
  | .other message => message

end MailMerge
