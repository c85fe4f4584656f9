import MailMerge.Archive.Fault
import MailMerge.Calendar.Instant
import MailMerge.Markup.WellFormed
import MailMerge.Region.Marker
import MailMerge.Storage.Fault
import MailMerge.Url.Fault

/-!
# Errors

Every way in which an operation of the library can fail, each with its cause.

* `MergeError` is the type of errors;
* `MergeError.message` is the text of an error, built from its cause.
-/

namespace MailMerge

/-- Why there is **no template**. -/
inductive TemplateFault where
  | missing (path : Text)
  | isEmpty (source : Text)
  | refused (url code body : Text)
  deriving DecidableEq, Repr

/-- Why bytes are **no template package**. -/
inductive PackageFault where
  | notAnArchive (fault : ArchiveFault)
  | unreadableRelationships (fault : ContentFault)
  | missingMain (part : Text)
  | unreadableMain (part : Text) (fault : ContentFault)
  deriving DecidableEq, Repr

/-- What is wrong with the **configuration**. -/
inductive ConfigFault where
  | noHome
  | unreadable (path : Text)
  | breakKind (name : Text)
  | remoteUnset
  | remoteUrl (url : Text) (fault : UrlFault)
  | validateUrl (url : Text) (fault : UrlFault)
  | lockoutMinutes (minutes : Int)
  deriving DecidableEq, Repr

/-- What goes wrong in an **exchange** with an endpoint. -/
inductive NetworkFault where
  | transport (url detail : Text)
  | body (url detail : Text)
  | status (url code : Text)
  deriving DecidableEq, Repr

/-- An **error** of the library. -/
inductive MergeError where
  | templateNotFound (fault : TemplateFault)
  | malformedPackage (fault : PackageFault)
  | markerNotFound (marker : MissingMarker)
  | structuralValidation (fault : StructureFault)
  | config (fault : ConfigFault)
  | network (fault : NetworkFault)
  | archive (fault : ArchiveFault)
  | storage (path : Text) (fault : StorageFault)
  | unknownKind (name : Text)
  | accessDenied (attempts maxAttempts : Nat)
  | lockedOut (ending : Instant)
  deriving DecidableEq, Repr

/-- The text of a fault. -/
def TemplateFault.message : TemplateFault → Text
  | .missing path => path ++ " does not exist"
  | .isEmpty source => source ++ " is empty"
  | .refused url code body => url ++ ": HTTP " ++ code ++ ": " ++ body

/-- The text of a fault. -/
def PackageFault.message : PackageFault → Text
  | .notAnArchive fault => "not a zip archive: " ++ fault.message
  | .unreadableRelationships fault => "_rels/.rels is unreadable: " ++ fault.message
  | .missingMain part => "main part " ++ part ++ " is missing"
  | .unreadableMain part fault =>
    "main part " ++ part ++ " is not UTF-8 text: " ++ fault.message

/-- The text of a fault. -/
def ConfigFault.message : ConfigFault → Text
  | .noHome => "could not determine home directory"
  | .unreadable path => "failed to parse " ++ path
  | .breakKind name =>
    "invalid break kind '" ++ name ++ "': expected 'page', 'section', or 'none'"
  | .remoteUnset => "remote template requested but [template].remote_url is unset"
  | .remoteUrl url fault => "invalid [template].remote_url " ++ url ++ ": " ++ fault.message
  | .validateUrl url fault => "invalid [access].validate_url " ++ url ++ ": " ++ fault.message
  | .lockoutMinutes minutes => "[access].lockout_minutes out of range: " ++ Text.ofInt minutes

/-- The text of a fault. -/
def NetworkFault.message : NetworkFault → Text
  | .transport url detail => url ++ ": " ++ detail
  | .body url detail => url ++ ": failed to read body: " ++ detail
  | .status url code => url ++ ": HTTP " ++ code

/-- A character of a path in a message. Quotes of both kinds, backslashes, control
characters and the no-break space are escaped. -/
def escapePathChar (c : Char) : Text :=
  if c = '"' then "\\\""
  else if c = '\'' then "\\'"
  else if c = '\\' then "\\\\"
  else if c = '\n' then "\\n"
  else if c = '\r' then "\\r"
  else if c = '\t' then "\\t"
  else if c = '\x00' then "\\0"
  else if c.toNat < 32 ∨ (127 ≤ c.toNat ∧ c.toNat ≤ 160) then
    "\\u\x7b" ++ Nat.toDigits 16 c.toNat ++ "\x7d"
  else [c]

/-- A path in a message, between quotes. -/
def quotedPath (path : Text) : Text := '"' :: path.flatMap escapePathChar ++ "\""

/-- The text of an error. -/
def MergeError.message : MergeError → Text
  | .templateNotFound fault => "template not found: " ++ fault.message
  | .malformedPackage fault => "malformed package: " ++ fault.message
  | .markerNotFound marker => "marker not found: " ++ marker.message
  | .structuralValidation fault => "structural validation failed: " ++ fault.message
  | .config fault => "config error: " ++ fault.message
  | .network fault => "network error: " ++ fault.message
  | .archive fault => "archive error: " ++ fault.message
  | .storage path fault => "I/O error at " ++ quotedPath path ++ ": " ++ fault.message
  | .unknownKind name =>
    "validation error: unknown document kind '" ++ name ++
      "': expected Zwischenzeugnis, Jahreszeugnis, or Abschlusszeugnis"
  | .accessDenied attempts maxAttempts =>
    "access denied: " ++ Text.ofNat attempts ++ " of " ++ Text.ofNat maxAttempts ++
      " attempts used"
  | .lockedOut ending => "locked out until " ++ ending.rfc3339 "+00:00"

end MailMerge
