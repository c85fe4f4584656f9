import MailMerge.Access.State
import MailMerge.Configuration.Storage
import MailMerge.Url.Reading

/-!
# Authorization

A password is checked by an endpoint. What is known of earlier attempts is kept in a
file: while the gate is locked, the endpoint is not asked, and what the endpoint rejects
is counted.

* `loadGate` and `saveGate` keep the gate in a file;
* `askEndpoint` asks whether a password is right;
* `authorize` puts all together.
-/

namespace MailMerge

/-! ### The state file -/

/-- The path of the state file. -/
def gatePath : Procedure Text := do
  return Path.join (← programDirectory) "access.json"

/-- **Loads** the gate from a file. Without a file, or with a text that holds no state,
the gate is fresh. -/
def loadGate (path : Text) : Procedure AccessGate := do
  match ← Procedure.ofAction (Action.readFile path) with
  | .error .notFound => return .fresh
  | .error fault => throw (.storage path fault)
  | .ok bytes =>
    match Text.ofUtf8? bytes with
    | some t => return (AccessGate.ofText? t).getD .fresh
    | none => throw (.storage path .notText)

/-- **Saves** the gate to a file. The directory of the file is made if need be. -/
def saveGate (path : Text) (gate : AccessGate) : Procedure Unit := do
  match Path.parent? path with
  | some directory =>
    match ← Procedure.ofAction (Action.createDirectories directory) with
    | .ok _ => pure ()
    | .error fault => throw (.storage directory fault)
  | none => pure ()
  match ← Procedure.ofAction (Action.writeFile path gate.toText.toUtf8) with
  | .ok _ => pure ()
  | .error fault => throw (.storage path fault)

/-! ### The endpoint -/

/-- How long the endpoint may take to answer. -/
def validationTimeoutSeconds : Nat := 10

/-- The request that asks whether a password is right. -/
def validationRequest (url : Url) (password : Text) : HttpRequest where
  method := .post
  url := url
  headers := [("accept", "*/*"), ("content-type", "application/json")]
  body := (Json.object [("password", .string password)]).compact
  timeoutSeconds := validationTimeoutSeconds

/-- Asks the endpoint whether a password is right. Codes that mean neither yes nor no are
errors. -/
def askEndpoint (url : Url) (password : Text) : Procedure Bool := do
  match ← Procedure.ofAction (Action.exchange (validationRequest url password)) with
  | .error detail => throw (.network (.transport url.toText detail))
  | .ok reply =>
    if isSuccess reply.code then return true
    else if reply.code = 401 ∨ reply.code = 403 then return false
    else throw (.network (.status url.toText (statusText reply.code)))

/-! ### The whole gate -/

/-- The address of the endpoint. -/
def validationUrl (raw : Text) : Except MergeError Url :=
  (Url.ofText? raw).mapError fun fault => .config (.validateUrl raw fault)

/-- Takes down what the endpoint said about a password. -/
def settle (path : Text) (settings : AccessSettings) (now : Instant) (gate : AccessGate)
    (isAccepted : Bool) : Procedure Unit := do
  if isAccepted then saveGate path gate.recordSuccess
  else
    let (counted, error) :=
      gate.recordFailure now settings.maxAttempts settings.lockoutMinutes
    saveGate path counted
    throw error

/-- **Authorizes** a password. Where no endpoint is configured, everyone may pass. -/
def authorize (path : Text) (settings : AccessSettings) (password : Text) (now : Instant) :
    Procedure Unit := do
  match settings.validateUrl with
  | none => return
  | some raw =>
    let url ← Procedure.ofResult (validationUrl raw)
    let _ ← Procedure.ofResult (lockoutEnd now settings.lockoutMinutes)
    let stored ← loadGate path
    let gate ← Procedure.ofResult (stored.check now)
    if gate ≠ stored then saveGate path gate
    settle path settings now gate (← askEndpoint url password)

end MailMerge
