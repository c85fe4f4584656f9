import MailMerge.Url.Escape

/-!
# URLs

The parts of a URL, each in the form in which it is written.

* `Url.toText` writes a URL;
* `Url.withParameter` adds a parameter to the query.
-/

namespace MailMerge

/-- The **authority** of a URL: name, password, host and port. -/
structure Authority where
  user : Text
  password : Text
  host : Text
  port : Option Nat
  deriving DecidableEq, Repr

/-- A **URL**. -/
structure Url where
  scheme : Text
  authority : Option Authority
  path : Text
  query : Option Text
  fragment : Option Text
  deriving DecidableEq, Repr

/-- An authority as text. -/
def Authority.toText (a : Authority) : Text :=
  let password := if a.password.isEmpty then [] else ':' :: a.password
  let login := if a.user.isEmpty && a.password.isEmpty then [] else a.user ++ password ++ ['@']
  let port :=
    match a.port with
    | some n => ':' :: Text.ofNat n
    | none => []
  login ++ a.host ++ port

namespace Url

/-- A URL without its query and fragment. A path that looks like an authority is told
from one by a dot. -/
def front (u : Url) : Text :=
  u.scheme ++ ":" ++
    match u.authority with
    | some a => "//" ++ a.toText ++ u.path
    | none => if Text.startsWith "//" u.path then "/." ++ u.path else u.path

/-- A mark and a text behind it, if there is a text. -/
def marked (mark : Char) : Option Text → Text
  | some t => mark :: t
  | none => []

/-- A **URL as text**. -/
def toText (u : Url) : Text := u.front ++ marked '?' u.query ++ marked '#' u.fragment

/-- What a request names: the path and the query. -/
def target (u : Url) : Text := u.path ++ marked '?' u.query

/-- A URL with a further parameter in its query. Name and value need no escapes. -/
def withParameter (u : Url) (name value : Text) : Url :=
  let parameter := name ++ "=" ++ value
  match u.query with
  | some (c :: query) => { u with query := some (c :: query ++ "&" ++ parameter) }
  | _ => { u with query := some parameter }

end Url

end MailMerge
