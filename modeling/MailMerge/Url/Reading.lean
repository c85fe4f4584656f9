import MailMerge.Url.Basic
import MailMerge.Url.Host

/-!
# Reading URLs

A URL is read from left to right: the scheme, the authority behind two slashes, the path,
the query and the fragment. Web addresses always have a host, and any number of slashes,
of either kind, may stand before it.

* `UrlReader.segments` puts the dots of a path into effect;
* `Url.ofText?` reads a URL.
-/

namespace MailMerge

namespace UrlReader

/-- The port that a scheme has by default. A scheme in this list is that of a web
address. -/
def defaultPorts : List (Text × Nat) :=
  [("http", 80), ("https", 443), ("ws", 80), ("wss", 443), ("ftp", 21)]

/-- Whether a scheme is that of a web address. -/
def isWeb (scheme : Text) : Bool := (defaultPorts.lookup scheme).isSome

/-- Whether a character divides a path. -/
def isSlash (backslashes : Bool) (c : Char) : Bool := c == '/' || (backslashes && c == '\\')

/-- Whether a character ends an authority. -/
def endsAuthority (backslashes : Bool) (c : Char) : Bool :=
  isSlash backslashes c || c == '?' || c == '#'

/-- The text to be read: without blanks and control characters at its ends, and without
tabs and line breaks. -/
def cleaned (t : Text) : Text :=
  let isEdge (c : Char) : Bool := c.toNat ≤ 0x20
  let inner := ((t.dropWhile isEdge).reverse.dropWhile isEdge).reverse
  inner.filter fun c => !(c == '\t' || c == '\n' || c == '\r')

/-- A scheme in small letters, and what follows its colon. -/
def scheme? (t : Text) : Option (Text × Text) :=
  let isPart (c : Char) : Bool := c.isAlphanum || c == '+' || c == '-' || c == '.'
  match t.takeWhile isPart, t.dropWhile isPart with
  | c :: name, ':' :: rest => if c.isAlpha then some (Text.asciiLower (c :: name), rest) else none
  | _, _ => none

/-! ### Authority -/

/-- Name and password before the last `@` of an authority, and what follows it. -/
def login (t : Text) : (Text × Text) × Text :=
  match Text.lastCut? "@" t with
  | none => (([], []), t)
  | some (front, rest) =>
    let escape := percentEncode UrlPart.inUser
    match Text.cut? ":" front with
    | some (user, password) => ((escape user, escape password), rest)
    | none => ((escape front, []), rest)

/-- The host at the head of an authority, and what follows it. A colon between brackets
belongs to the host. -/
def splitHost (inBrackets : Bool) : Text → Text × Text
  | [] => ([], [])
  | c :: t =>
    if c = ':' ∧ !inBrackets then ([], c :: t)
    else
      let inBrackets := if c = '[' then true else if c = ']' then false else inBrackets
      let (host, rest) := splitHost inBrackets t
      (c :: host, rest)

/-- The port behind a host. It is left out if it is the one of the scheme. -/
def port (scheme : Text) (t : Text) : Except UrlFault (Option Nat) :=
  match t with
  | ':' :: digits =>
    if digits.all Char.isDigit ∧ Text.digitsValue digits < 65536 then
      let number := Text.digitsValue digits
      if digits.isEmpty ∨ defaultPorts.lookup scheme = some number then .ok none
      else .ok (some number)
    else .error .invalidPort
  | _ => .ok none

/-- Reads an authority. -/
def authority (scheme : Text) (t : Text) : Except UrlFault Authority := do
  let ((user, password), t) := login t
  let hasLogin := !(user.isEmpty && password.isEmpty)
  let (hostText, portText) := splitHost false t
  if hostText.isEmpty ∧ (isWeb scheme ∨ hasLogin ∨ !portText.isEmpty) then throw .emptyHost
  let host ← if isWeb scheme then readWebHost hostText else readPlainHost hostText
  let number ← port scheme portText
  return ⟨user, password, host, number⟩

/-! ### Path, query and fragment -/

/-- Whether a segment of a path stays where it is. -/
def isSingleDot (segment : Text) : Bool :=
  Text.replace "%2e" "." (Text.asciiLower segment) == ['.']

/-- Whether a segment of a path goes one step up. -/
def isDoubleDot (segment : Text) : Bool :=
  Text.replace "%2e" "." (Text.asciiLower segment) == ['.', '.']

/-- The segments of a path, given those before. A dot at the end leaves an empty
segment. -/
def segments (before : List Text) : List Text → List Text
  | [] => before
  | segment :: rest =>
    let last : List Text := if rest.isEmpty then [[]] else []
    if isDoubleDot segment then segments (before.dropLast ++ last) rest
    else if isSingleDot segment then segments (before ++ last) rest
    else segments (before ++ [percentEncode UrlPart.inPath segment]) rest

/-- The parts of a text between slashes. -/
def splitAtSlashes (backslashes : Bool) (t : Text) : List Text :=
  Text.split '/' (if backslashes then t.map fun c => if c = '\\' then '/' else c else t)

/-- A path with its dots put into effect. What is read does not include the slash at its
head. -/
def dividedPath (backslashes : Bool) (t : Text) : Text :=
  '/' :: Text.join "/" (segments [] (splitAtSlashes backslashes t))

/-- The path behind an authority. -/
def pathBehind (web : Bool) (t : Text) : Text :=
  match t with
  | [] => if web then ['/'] else []
  | c :: rest => if isSlash web c then dividedPath web rest else dividedPath web t

/-- The text before a mark, and the text behind it if the mark is there. -/
def splitMark (mark : Char) (t : Text) : Text × Option Text :=
  match Text.cut? [mark] t with
  | some (front, back) => (front, some back)
  | none => (t, none)

/-- Path, query and fragment, not escaped yet. -/
def splitTail (t : Text) : Text × Option Text × Option Text :=
  let (t, fragment) := splitMark '#' t
  let (path, query) := splitMark '?' t
  (path, query, fragment)

/-- A URL of its parts, with query and fragment escaped. -/
def assemble (scheme : Text) (authority : Option Authority) (path : Text)
    (query fragment : Option Text) : Url where
  scheme
  authority
  path
  query := query.map (percentEncode (if isWeb scheme || scheme == ['f', 'i', 'l', 'e'] then
    UrlPart.inWebQuery else UrlPart.inQuery))
  fragment := fragment.map (percentEncode UrlPart.inFragment)

/-! ### Kinds of URLs -/

/-- Reads what follows the two slashes before an authority. -/
def behindSlashes (scheme : Text) (t : Text) : Except UrlFault Url := do
  let web := isWeb scheme
  let ends := endsAuthority web
  let rest := t.dropWhile fun c => !ends c
  let a ← authority scheme (t.takeWhile fun c => !ends c)
  let (path, query, fragment) := splitTail rest
  return assemble scheme (some a) (pathBehind web path) query fragment

/-- Reads the rest of a web address. -/
def webUrl (scheme : Text) (t : Text) : Except UrlFault Url :=
  behindSlashes scheme (t.dropWhile (isSlash true))

/-- Reads the rest of the URL of a file. The host of the machine itself is left out. -/
def fileUrl (scheme : Text) (t : Text) : Except UrlFault Url := do
  let (path, query, fragment) := splitTail t
  let ofPath (host path : Text) : Url :=
    assemble scheme (some ⟨[], [], host, none⟩) (pathBehind true path) query fragment
  match path with
  | c :: d :: rest =>
    if isSlash true c ∧ isSlash true d then
      let hostText := rest.takeWhile fun x => !isSlash true x
      let host ← if hostText.isEmpty then pure [] else readWebHost hostText
      let isLocal := host == "localhost".toList
      return ofPath (if isLocal then [] else host) (rest.dropWhile fun x => !isSlash true x)
    else return ofPath [] path
  | _ => return ofPath [] path

/-- Reads the rest of any other URL. Without a slash its path is not divided. -/
def plainUrl (scheme : Text) (t : Text) : Except UrlFault Url :=
  match t with
  | '/' :: '/' :: rest => behindSlashes scheme rest
  | _ =>
    let (path, query, fragment) := splitTail t
    let path :=
      match path with
      | '/' :: rest => dividedPath false rest
      | _ => percentEncode UrlPart.isControl path
    .ok (assemble scheme none path query fragment)

end UrlReader

/-- Reads a **URL**. It must name its scheme. -/
def Url.ofText? (t : Text) : Except UrlFault Url :=
  match UrlReader.scheme? (UrlReader.cleaned t) with
  | none => .error .relative
  | some (scheme, rest) =>
    if UrlReader.isWeb scheme then UrlReader.webUrl scheme rest
    else if scheme = "file".toList then UrlReader.fileUrl scheme rest
    else UrlReader.plainUrl scheme rest

end MailMerge
