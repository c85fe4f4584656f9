import MailMerge.DocumentKind
import MailMerge.Error
import MailMerge.Replication

/-!
# Choices

Kinds of breaks and documents as users name them: in any case, and with blanks around
the name. Any other name is an error.
-/

namespace MailMerge

/-- The kind of break that a user names. -/
def BreakKind.ofChoice (t : Text) : Except MergeError BreakKind :=
  let name := Text.lower (Text.trim t)
  match BreakKind.ofName? name with
  | some kind => .ok kind
  | Option.none => .error (.config (.breakKind name))

/-- The kind of document that a user names. -/
def DocumentKind.ofChoice (t : Text) : Except MergeError DocumentKind :=
  match DocumentKind.ofText? t with
  | some kind => .ok kind
  | none => .error (.unknownKind t)

end MailMerge
