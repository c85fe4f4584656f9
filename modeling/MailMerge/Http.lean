import MailMerge.Url.Basic

/-!
# Exchanges with endpoints

What the program asks an endpoint, and what it is told.

* `HttpRequest` and `HttpReply` are the two sides of an exchange;
* `statusText` is the text of a status code.
-/

namespace MailMerge

/-- What a request asks for. -/
inductive HttpMethod where
  | get
  | post
  deriving DecidableEq, Repr

/-- The name of a method. -/
def HttpMethod.name : HttpMethod → Text
  | .get => "GET"
  | .post => "POST"

/-- A **request** to an endpoint, which must be answered within a time. -/
structure HttpRequest where
  method : HttpMethod
  url : Url
  headers : List (Text × Text)
  body : Text
  timeoutSeconds : Nat
  deriving DecidableEq, Repr

/-- A **reply**: the status code, and the body unless it breaks off. -/
structure HttpReply where
  code : Nat
  body : Option Bytes
  deriving DecidableEq, Repr

/-- Whether a character may stand in a header. -/
def isHeaderChar (c : Char) : Bool := c == '\t' || (0x20 ≤ c.toNat && c.toNat != 0x7F)

/-- Whether an address is one of the web. -/
def Url.isWeb (url : Url) : Bool :=
  url.scheme == "http".toList || url.scheme == "https".toList

/-- Whether a request can be sent at all: to a web address, with proper headers. -/
def HttpRequest.isProper (r : HttpRequest) : Bool :=
  r.url.isWeb && r.headers.all fun h => h.2.all isHeaderChar

/-- Why an improper request is not sent. -/
def HttpRequest.improperText (r : HttpRequest) : Text :=
  if r.url.isWeb then "builder error"
  else "builder error for url (" ++ r.url.toText ++ ")"

/-- What is said of a request that nobody answers. -/
def HttpRequest.unansweredText (r : HttpRequest) : Text :=
  "error sending request for url (" ++ r.url.toText ++ ")"

/-- Whether a code means success. -/
def isSuccess (code : Nat) : Bool := decide (200 ≤ code ∧ code < 300)

/-- The phrases of the status codes. -/
def statusPhrases : List (Nat × String) :=
  [(100, "Continue"), (101, "Switching Protocols"), (102, "Processing"), (103, "Early Hints"),
    (200, "OK"), (201, "Created"), (202, "Accepted"), (203, "Non Authoritative Information"),
    (204, "No Content"), (205, "Reset Content"), (206, "Partial Content"),
    (207, "Multi-Status"), (208, "Already Reported"), (226, "IM Used"),
    (300, "Multiple Choices"), (301, "Moved Permanently"), (302, "Found"), (303, "See Other"),
    (304, "Not Modified"), (305, "Use Proxy"), (307, "Temporary Redirect"),
    (308, "Permanent Redirect"), (400, "Bad Request"), (401, "Unauthorized"),
    (402, "Payment Required"), (403, "Forbidden"), (404, "Not Found"),
    (405, "Method Not Allowed"), (406, "Not Acceptable"),
    (407, "Proxy Authentication Required"), (408, "Request Timeout"), (409, "Conflict"),
    (410, "Gone"), (411, "Length Required"), (412, "Precondition Failed"),
    (413, "Payload Too Large"), (414, "URI Too Long"), (415, "Unsupported Media Type"),
    (416, "Range Not Satisfiable"), (417, "Expectation Failed"), (418, "I'm a teapot"),
    (421, "Misdirected Request"), (422, "Unprocessable Entity"), (423, "Locked"),
    (424, "Failed Dependency"), (425, "Too Early"), (426, "Upgrade Required"),
    (428, "Precondition Required"), (429, "Too Many Requests"),
    (431, "Request Header Fields Too Large"), (451, "Unavailable For Legal Reasons"),
    (500, "Internal Server Error"), (501, "Not Implemented"), (502, "Bad Gateway"),
    (503, "Service Unavailable"), (504, "Gateway Timeout"),
    (505, "HTTP Version Not Supported"), (506, "Variant Also Negotiates"),
    (507, "Insufficient Storage"), (508, "Loop Detected"), (510, "Not Extended"),
    (511, "Network Authentication Required")]

/-- The text of a status code: the code and its phrase. -/
def statusText (code : Nat) : Text :=
  Text.ofNat code ++ " " ++ ((statusPhrases.lookup code).getD "<unknown status code>").toList

end MailMerge
