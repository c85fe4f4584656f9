import MailMerge.Text.Utf8

/-!
# Finding repeats

Compression begins by writing bytes as **tokens**: literal bytes, and repeats of bytes
that came before. At each place the most recent places with the same three bytes are
tried, and a repeat is put off by one byte if the next place has a longer one.

* `Token` is a literal or a repeat;
* `tokensOf` finds the tokens of bytes.
-/

namespace MailMerge

/-- A **token**: a byte, or a number of bytes that stand at a distance before. -/
inductive Token where
  | literal (byte : UInt8)
  | repetition (length distance : Nat)
  deriving DecidableEq, Repr

/-- The number of bytes that a token stands for. -/
def Token.size : Token → Nat
  | .literal _ => 1
  | .repetition length _ => length

namespace Repeat

/-- The longest repeat. -/
def maxLength : Nat := 258

/-- The greatest distance of a repeat. -/
def maxDistance : Nat := 32768

/-- From this distance on a repeat of three bytes does not pay. -/
def farDistance : Nat := 8192

/-- A repeat of this length is not put off. -/
def longLength : Nat := 128

/-- The number of searches for a longer repeat at one place. -/
def maxSearches (length : Nat) : Nat := if length < 32 then 43 else 11

/-- The number of places that one search tries. -/
def searchWidth : Nat := 3

/-- The places at which each key of three bytes stands, the last one first. -/
abbrev Places := Array (List Nat)

/-- The key of the three bytes at a place. Different bytes may have one key. -/
def key (input : Array UInt8) (place : Nat) : Nat :=
  let byte (i : Nat) := (input.getD (place + i) 0).toNat
  ((byte 0 <<< 10) ^^^ (byte 1 <<< 5) ^^^ byte 2) &&& 0x7FFF

/-- Adds `count` places from one on, as far as three bytes are left there. The very first
place is never repeated. -/
def Places.add (input : Array UInt8) : Nat → Nat → Places → Places
  | 0, _, places => places
  | count + 1, place, places =>
    let places :=
      if 0 < place ∧ place + 2 < input.size then places.modify (key input place) (place :: ·)
      else places
    Places.add input count (place + 1) places

/-- The number of equal bytes at two places, up to a limit. -/
def commonLength (input : Array UInt8) (a b : Nat) : Nat → Nat
  | 0 => 0
  | limit + 1 =>
    if input.getD a 0 == input.getD b 0 then 1 + commonLength input (a + 1) (b + 1) limit else 0

/-- Whether the bytes that decide about a repeat longer than `length` agree. -/
def mayBeLonger (input : Array UInt8) (earlier place length : Nat) : Bool :=
  input.getD (earlier + length - 1) 0 == input.getD (place + length - 1) 0 &&
    input.getD (earlier + length) 0 == input.getD (place + length) 0

/-- The longest repeat among the places of a list, as length and distance, or `best`
if none is longer. `searches` and `tries` bound the places that are looked at. -/
def longest (input : Array UInt8) (place limit reach : Nat) :
    Nat → Nat → Nat × Nat → List Nat → Nat × Nat
  | _, _, best, [] => best
  | searches, tries, best, earlier :: others =>
    if reach < place - earlier then best
    else if mayBeLonger input earlier place best.1 then
      let length := commonLength input earlier place limit
      let better := if best.1 < length then (length, place - earlier) else best
      if limit ≤ better.1 ∨ searches ≤ 1 then better
      else longest input place limit reach (searches - 1) searchWidth better others
    else if 1 < tries then longest input place limit reach searches (tries - 1) best others
    else if searches ≤ 1 then best
    else longest input place limit reach (searches - 1) searchWidth best others

/-- The repeat at a place that is longer than `length`, as length and distance, if there
is one that pays. -/
def repeatAt? (input : Array UInt8) (places : Places) (place length : Nat) : Option (Nat × Nat) :=
  let limit := min maxLength (input.size - place)
  let reach := min (maxDistance - limit) place
  let earlier := places.getD (key input place) []
  if limit ≤ length then none
  else
    let found :=
      longest input place limit reach (maxSearches length) searchWidth (length, 0) earlier
    if found.1 ≤ length ∨ (found.1 = 3 ∧ farDistance ≤ found.2) then none else some found

/-- Walks the input and collects tokens in reverse. `pending` is the repeat at the place
before, if it was put off. -/
def walk (input : Array UInt8) (place : Nat) (pending : Option (Nat × Nat)) (places : Places)
    (tokens : List Token) : List Token :=
  if _inside : place < input.size then
    let byte := input.getD place 0
    match pending, repeatAt? input places place ((pending.map (·.1)).getD 2) with
    | none, none =>
      walk input (place + 1) none (places.add input 1 place) (.literal byte :: tokens)
    | some (length, distance), none =>
      let move := max 1 (length - 1)
      walk input (place + move) none (places.add input move place)
        (.repetition length distance :: tokens)
    | pending, some (length, distance) =>
      let before := input.getD (place - 1) 0
      let tokens := if pending.isSome then .literal before :: tokens else tokens
      if longLength ≤ length then
        let move := max 1 length
        walk input (place + move) none (places.add input move place)
          (.repetition length distance :: tokens)
      else walk input (place + 1) (some (length, distance)) (places.add input 1 place) tokens
  else tokens
termination_by input.size - place

end Repeat

/-- The **tokens** of bytes. -/
def tokensOf (bytes : Bytes) : List Token :=
  (Repeat.walk bytes.toArray 0 none (Array.replicate 0x8000 []) []).reverse

end MailMerge
