import MailMerge.Text.Lowercase
import MailMerge.Url.Escape
import MailMerge.Url.Fault
import MailMerge.Url.Punycode

/-!
# Hosts of URLs

A host is a domain name or an address. It is brought into one form: names in small
letters and in ASCII, addresses as they are usually written.

* `readWebHost` reads the host of a web address;
* `readPlainHost` reads the host of any other URL.
-/

namespace MailMerge

/-! ### Addresses of four bytes -/

/-- The number of digits in a base, if all are digits. No digits are zero. -/
def numberIn? (base : Nat) (t : Text) : Option Nat :=
  t.foldl (fun n c => do return base * (← n) + (← Text.digitValue? base c)) (some 0)

/-- A part of an address: hexadecimal behind `0x`, octal behind another zero, and
decimal else. -/
def addressNumber? : Text → Option Nat
  | [] => none
  | '0' :: 'x' :: t | '0' :: 'X' :: t => numberIn? 16 t
  | '0' :: c :: t => numberIn? 8 (c :: t)
  | t => numberIn? 10 t

/-- The labels of a name; the empty one at the end is dropped. -/
def labelsOf (name : Text) : List Text :=
  match (Text.split '.' name).reverse with
  | [] :: labels => labels.reverse
  | labels => labels.reverse

/-- Whether a name ends in a number, so that it must be an address. -/
def endsInNumber (name : Text) : Bool :=
  match (labelsOf name).getLast? with
  | some label => (!label.isEmpty && label.all Char.isDigit) || (addressNumber? label).isSome
  | none => false

/-- The address that a list of at most four numbers spells: the last number fills all
bytes that are left. -/
def addressOf? (numbers : List Nat) : Option Nat :=
  match numbers.reverse with
  | [] => none
  | last :: front =>
    if 3 < front.length ∨ Nat.pow 256 (4 - front.length) ≤ last ∨ front.any (255 < ·) then none
    else some (front.reverse.zipIdx.foldr (fun p sum => p.1 * Nat.pow 256 (3 - p.2) + sum) last)

/-- An address of four bytes as text. -/
def fourBytesText (address : Nat) : Text :=
  Text.join "." ([3, 2, 1, 0].map fun i => Text.ofNat (address / Nat.pow 256 i % 256))

/-- Reads an address of four bytes. -/
def readFourBytes (name : Text) : Except UrlFault Text :=
  match (labelsOf name).mapM addressNumber? >>= addressOf? with
  | some address => .ok (fourBytesText address)
  | none => .error .invalidIpv4

/-! ### Addresses of eight words -/

/-- A word of one to four hexadecimal digits. -/
def addressWord? (t : Text) : Option Nat :=
  if t.isEmpty ∨ 4 < t.length then none else numberIn? 16 t

/-- The two words of an address of four bytes in plain decimal. -/
def dottedWords? (t : Text) : Option (List Nat) :=
  match (Text.split '.' t).mapM fun part =>
      if part = ['0'] ∨ (part.head?.any (· != '0') ∧ part.length ≤ 3) then numberIn? 10 part
      else none with
  | some [a, b, c, d] =>
    if [a, b, c, d].all (· ≤ 255) then some [256 * a + b, 256 * c + d] else none
  | _ => none

/-- The words between colons, the last of which may be two in dotted form. -/
def addressWords? : List Text → Option (List Nat)
  | [] => some []
  | [t] => if t.elem '.' then dottedWords? t else (addressWord? t).map fun w => [w]
  | t :: ts => do return (← addressWord? t) :: (← addressWords? ts)

/-- The words of one side of a double colon. -/
def sideWords? (t : Text) : Option (List Nat) :=
  if t.isEmpty then some [] else addressWords? (Text.split ':' t)

/-- The eight words of an address. A double colon stands for one zero or more. -/
def eightWords? (t : Text) : Option (List Nat) :=
  match Text.cut? "::" t with
  | some (front, back) => do
    guard (!front.elem '.')
    let before ← sideWords? front
    let after ← sideWords? back
    guard (before.length + after.length ≤ 7)
    return before ++ List.replicate (8 - before.length - after.length) 0 ++ after
  | none => (addressWords? (Text.split ':' t)).filter (·.length == 8)

/-- The number of zeros at the head of a list. -/
def zeroRunLength (words : List Nat) : Nat := (words.takeWhile (· == 0)).length

/-- An address of eight words as text. The first of its longest runs of two zeros or more
becomes a double colon. -/
def eightWordsText (words : List Nat) : Text :=
  let runs := (List.range 8).map fun i => zeroRunLength (words.drop i)
  let longest := runs.foldl max 0
  let write (ws : List Nat) := Text.join ":" (ws.map (Nat.toDigits 16))
  if longest < 2 then write words
  else
    let start := runs.idxOf longest
    write (words.take start) ++ "::" ++ write (words.drop (start + longest))

/-- Reads an address of eight words between brackets. -/
def readEightWords (t : Text) : Except UrlFault Text :=
  match Text.dropSuffix? "]" t >>= eightWords? with
  | some words => .ok ('[' :: eightWordsText words ++ "]")
  | none => .error .invalidIpv6

/-! ### Names -/

/-- Characters that a domain name must not have. -/
def isBarredInDomain (c : Char) : Bool :=
  c.toNat ≤ 0x20 || c.toNat == 0x7F || UrlPart.isOneOf "%#/:<>?@[\\]^|" c

/-- A character of a domain name in its usual form: wide forms become ASCII, and all
kinds of full stops become dots. -/
def plainDomainChar (c : Char) : Text :=
  if c = '\u3002' ∨ c = '\uff61' then ['.']
  else if 0xFF01 ≤ c.toNat ∧ c.toNat ≤ 0xFF5E then [Char.ofNat (c.toNat - 0xFEE0)]
  else if c = '\u00ad' ∨ c = '\u200b' ∨ c = '\u2060' ∨ c = '\ufeff' then []
  else [c]

/-- The ASCII form of a label. -/
def asciiLabel (label : Text) : Text :=
  if label.all fun c => c.toNat < 0x80 then label else "xn--" ++ Punycode.encode label

/-- The ASCII form of a domain name. -/
def asciiDomain? (name : Text) : Option Text :=
  let plain := Text.lower (name.flatMap plainDomainChar)
  if plain.any isBarredInDomain then none
  else some (Text.join "." ((Text.split '.' plain).map asciiLabel))

/-- Reads the **host of a web address**. -/
def readWebHost (t : Text) : Except UrlFault Text :=
  match t with
  | [] => .error .emptyHost
  | '[' :: address => readEightWords address
  | _ =>
    match Text.ofUtf8? (percentDecode t.toUtf8) >>= asciiDomain? with
    | none => .error .invalidDomain
    | some [] => .error .emptyHost
    | some name => if endsInNumber name then readFourBytes name else .ok name

/-- Characters that no host may have. -/
def isBarredInHost (c : Char) : Bool :=
  UrlPart.isOneOf "\x00\t\n\r #/:<>?@[\\]^|" c

/-- Reads the **host of any other URL**. -/
def readPlainHost (t : Text) : Except UrlFault Text :=
  match t with
  | '[' :: address => readEightWords address
  | _ =>
    if t.any isBarredInHost then .error .invalidDomainCharacter
    else .ok (percentEncode UrlPart.isControl t)

end MailMerge
