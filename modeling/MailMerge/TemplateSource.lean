import MailMerge.Configuration.Basic
import MailMerge.DocumentKind
import MailMerge.Generation.Document
import MailMerge.Host.Action
import MailMerge.Storage.Path
import MailMerge.Text.Blank
import MailMerge.Url.Reading

/-!
# Sources of templates

A template comes from a directory, from an endpoint, or straight from the caller.

* `TemplateSource.ofSettings` picks the source that is configured;
* `TemplateSource.describe` names a source;
* `loadTemplate` fetches a template. An empty one counts as missing.
-/

namespace MailMerge

/-- A **source of templates**. -/
inductive TemplateSource where
  | directory (path : Text)
  | endpoint (url : Url) (token : Option Text) (timeoutSeconds : Nat)
  | uploaded (bytes : Bytes)
  deriving DecidableEq, Repr

/-- How the program names itself to endpoints. -/
def userAgent : Text := "docmerge/0.1.0"

namespace TemplateSource

/-- The token that a variable holds, unless it is blank. -/
def token (variableName : Option Text) : Action (Option Text) :=
  match variableName with
  | none => pure none
  | some name => do
    let value ← Action.environment name
    return value.filter fun t => !(Text.trim t).isEmpty

/-- The source that is configured: the endpoint if a remote one is asked for, and else
the directory. -/
def ofSettings (settings : TemplateSettings) (remote : Bool) : Procedure TemplateSource :=
  if remote then
    match settings.remoteUrl with
    | none => throw (.config .remoteUnset)
    | some raw =>
      match Url.ofText? raw with
      | .error fault => throw (.config (.remoteUrl raw fault))
      | .ok url => do
        let token ← Procedure.ofAction (token settings.tokenVariable)
        return .endpoint url token settings.timeoutSeconds
  else return .directory settings.directory

/-- The path of the template of a kind in a directory. -/
def pathIn (directory : Text) (kind : DocumentKind) : Text :=
  Path.join directory kind.templateFileName

/-- The **name of a source**, for messages. -/
def describe (kind : DocumentKind) : TemplateSource → Text
  | .directory path => pathIn path kind
  | .endpoint url _ _ => url.toText ++ " (" ++ kind.name ++ ")"
  | .uploaded bytes => "uploaded template (" ++ Text.ofNat bytes.length ++ " bytes)"

/-- The request for the template of a kind. -/
def request (url : Url) (token : Option Text) (timeoutSeconds : Nat) (kind : DocumentKind) :
    HttpRequest where
  method := .get
  url := url.withParameter "zeugnisart" kind.name
  headers :=
    match token with
    | some t => [("accept", Document.mediaType), ("user-agent", userAgent),
        ("authorization", "Bearer " ++ t)]
    | none => [("accept", Document.mediaType), ("user-agent", userAgent)]
  body := []
  timeoutSeconds := timeoutSeconds

/-- Reads a template from a file. -/
def readTemplate (path : Text) : Procedure Bytes := do
  match ← Procedure.ofAction (Action.readFile path) with
  | .ok bytes => return bytes
  | .error .notFound => throw (.templateNotFound (.missing path))
  | .error fault => throw (.storage path fault)

/-- Fetches a template from an endpoint. A refusal counts as a missing template. -/
def fetchTemplate (request : HttpRequest) : Procedure Bytes := do
  let url := request.url.toText
  match ← Procedure.ofAction (Action.exchange request) with
  | .error detail => throw (.network (.transport url detail))
  | .ok reply =>
    if isSuccess reply.code then
      match reply.body with
      | some bytes => return bytes
      | none => throw (.network (.body url "error decoding response body"))
    else
      let body := (reply.body.map Text.ofUtf8Lossy).getD []
      throw (.templateNotFound (.refused url (statusText reply.code) body))

/-- What a source holds for a kind of documents. -/
def bytesOf (kind : DocumentKind) : TemplateSource → Procedure Bytes
  | .directory path => readTemplate (pathIn path kind)
  | .endpoint url token timeoutSeconds => fetchTemplate (request url token timeoutSeconds kind)
  | .uploaded bytes => return bytes

end TemplateSource

/-- **Loads** the template of a kind from a source. -/
def loadTemplate (source : TemplateSource) (kind : DocumentKind) : Procedure Bytes := do
  let bytes ← source.bytesOf kind
  if bytes.isEmpty then throw (.templateNotFound (.isEmpty (source.describe kind)))
  return bytes

end MailMerge
