import MailMerge.Text.Basic

/-!
# References in character data

Character data may hold entity references such as `&lt;` and character references
such as `&#233;`. This module says which of them resolve.

* `ReferenceFault` names what can be wrong with one;
* `checkReferences` finds the first fault of a run of character data.
-/

namespace MailMerge

/-- What is wrong with the number of a character reference. -/
inductive CharacterFault where
  | sign
  | empty
  | digit
  | tooLarge
  | null
  | notACharacter (code : Nat)
  deriving DecidableEq, Repr

/-- What is wrong with a reference. Offsets are bytes from the start of the
character data. -/
inductive ReferenceFault where
  | unterminated (start length : Nat)
  | unknown (start stop : Nat) (name : Text)
  | character (fault : CharacterFault)
  deriving DecidableEq, Repr

/-- The text of a fault. -/
def CharacterFault.message : CharacterFault → Text
  | .sign => "unexpected number sign"
  | .empty => "cannot parse integer from empty string"
  | .digit => "invalid digit found in string"
  | .tooLarge => "number too large to fit in target type"
  | .null => "0x0 character is not permitted in XML"
  | .notACharacter code => '`' :: Text.ofNat code ++ "` is not a valid codepoint"

/-- The text of a fault. -/
def ReferenceFault.message : ReferenceFault → Text
  | .unterminated start length =>
    "Error while escaping character at range " ++ Text.ofNat start ++ ".." ++ Text.ofNat length ++
      ": Cannot find ';' after '&'"
  | .unknown start stop name =>
    "at " ++ Text.ofNat start ++ ".." ++ Text.ofNat stop ++ ": unrecognized entity `" ++ name ++ "`"
  | .character fault => "invalid character reference: " ++ fault.message

/-- The names of the predefined entities. -/
def entityNames : List Text := ["lt", "gt", "amp", "apos", "quot"]

/-- Reads the digits of a number of at most 32 bits, continuing a value. A digit
is looked at before the value is found too large. -/
def readCode (base value : Nat) : Text → Except CharacterFault Nat
  | [] => .ok value
  | c :: t =>
    match Text.digitValue? base c with
    | none => .error .digit
    | some d =>
      if UInt32.size ≤ base * value + d then .error .tooLarge
      else readCode base (base * value + d) t

/-- Whether a number is a Unicode scalar value. -/
def isScalarValue (n : Nat) : Bool := n < 0xD800 || (0xDFFF < n && n < 0x110000)

/-- Checks the number of a character reference: decimal, or hexadecimal behind
an `x`. -/
def checkCharacter (number : Text) : Except CharacterFault Unit := do
  let (base, digits) :=
    match number with
    | 'x' :: r => (16, r)
    | r => (10, r)
  let code ←
    match digits with
    | [] => .error .empty
    | c :: _ => if c = '+' ∨ c = '-' then .error .sign else readCode base 0 digits
  if code = 0 then .error .null
  else if isScalarValue code then .ok ()
  else .error (.notACharacter code)

/-- Checks the inside of a reference that begins at a byte offset. -/
def checkReference (start : Nat) (inside : Text) : Except ReferenceFault Unit :=
  match inside with
  | '#' :: number => (checkCharacter number).mapError .character
  | name =>
    if name ∈ entityNames then .ok ()
    else .error (.unknown (start + 1) (start + 1 + Text.utf8Size name) name)

/-- Checks all references from a byte offset on, in character data of a given
length. A reference ends at the next semicolon, before any other ampersand. -/
def checkReferencesFrom (length offset : Nat) (t : Text) : Except ReferenceFault Unit :=
  match t with
  | [] => .ok ()
  | c :: rest =>
    if c = '&' then
      let inside := rest.takeWhile fun d => d != '&' && d != ';'
      match _h : rest.drop inside.length with
      | ';' :: after =>
        match checkReference offset inside with
        | .ok () => checkReferencesFrom length (offset + 2 + Text.utf8Size inside) after
        | .error fault => .error fault
      | _ => .error (.unterminated offset length)
    else checkReferencesFrom length (offset + c.utf8Size) rest
termination_by t.length
decreasing_by
  · have h := congrArg List.length _h
    simp only [List.length_drop, List.length_cons] at h ⊢
    omega
  · simp

/-- Checks all references of a run of character data. -/
def checkReferences (t : Text) : Except ReferenceFault Unit :=
  checkReferencesFrom (Text.utf8Size t) 0 t

end MailMerge
