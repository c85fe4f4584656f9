import MailMerge.Calendar.Instant
import MailMerge.Http
import MailMerge.Storage.Fault

/-!
# Operations of the host

What the program asks of the machine it runs on, and the kind of reply to each.
-/

namespace MailMerge

/-- An **operation** of the host. -/
inductive Operation where
  | readFile (path : Text)
  | writeFile (path : Text) (content : Bytes)
  | createDirectories (path : Text)
  | rename (old new : Text)
  | removeFile (path : Text)
  | hasEntry (path : Text)
  | environment (name : Text)
  | homeDirectory
  | currentTime
  | exchange (request : HttpRequest)

/-- The kind of **reply** to an operation. -/
def Operation.Reply : Operation → Type
  | .readFile _ => Except StorageFault Bytes
  | .writeFile _ _ | .createDirectories _ | .rename _ _ | .removeFile _ =>
    Except StorageFault Unit
  | .hasEntry _ => Bool
  | .environment _ | .homeDirectory => Option Text
  | .currentTime => Instant
  | .exchange _ => Except Text HttpReply

end MailMerge
