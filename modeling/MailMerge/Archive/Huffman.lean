import MailMerge.Archive.Bits

/-!
# Prefix codes

Symbols are coded by bit strings of different lengths, none of which begins another.
A **canonical** code is given by the lengths alone: shorter words come first, and
words of one length are counted upwards in the order of their symbols.

* `canonicalCodes` lists the code words of given lengths;
* `PrefixTree` is a code as a tree, and `PrefixTree.ofLengths?` builds it;
* `PrefixTree.decode?` reads one symbol.
-/

namespace MailMerge

/-- The symbols of a length, in rising order. -/
def symbolsOfLength (lengths : List Nat) (length : Nat) : List Nat :=
  (lengths.zipIdx.filter fun p => p.1 == length).map (·.2)

/-- Counts code words of one length upwards from `code`, one for each symbol. -/
def numberCodes (length : Nat) : Nat → List Nat → List (Nat × Bits)
  | _, [] => []
  | code, symbol :: symbols =>
    (symbol, codeBits length code) :: numberCodes length (code + 1) symbols

/-- The code words of the lengths from `length` on, where `code` is the first of them,
for `steps` lengths. -/
def canonicalCodesFrom (lengths : List Nat) : Nat → Nat → Nat → List (Nat × Bits)
  | 0, _, _ => []
  | steps + 1, length, code =>
    let symbols := symbolsOfLength lengths length
    numberCodes length code symbols ++
      canonicalCodesFrom lengths steps (length + 1) (2 * (code + symbols.length))

/-- The symbols of a **canonical code** with their code words. A length of zero means
that a symbol has none. -/
def canonicalCodes (lengths : List Nat) : List (Nat × Bits) := canonicalCodesFrom lengths 15 1 0

/-- A **prefix code as a tree**: each code word is the path to its symbol. -/
inductive PrefixTree where
  | vacant
  | symbol (value : Nat)
  | fork (zero one : PrefixTree)
  deriving Repr

namespace PrefixTree

/-- Puts a symbol at the end of a path, unless the path is taken. -/
def insert? (value : Nat) : Bits → PrefixTree → Option PrefixTree
  | [], .vacant => some (.symbol value)
  | b :: bits, .vacant =>
    if b then (insert? value bits .vacant).map (.fork .vacant ·)
    else (insert? value bits .vacant).map (.fork · .vacant)
  | b :: bits, .fork zero one =>
    if b then (insert? value bits one).map (.fork zero ·)
    else (insert? value bits zero).map (.fork · one)
  | _, _ => none

/-- Whether every path ends at a symbol. -/
def isComplete : PrefixTree → Bool
  | .vacant => false
  | .symbol _ => true
  | .fork zero one => zero.isComplete && one.isComplete

/-- The tree of code words. -/
def ofCodes? (codes : List (Nat × Bits)) : Option PrefixTree :=
  codes.foldl (fun tree? code => tree? >>= insert? code.1 code.2) (some .vacant)

/-- The tree of the canonical code of given lengths. Only a code of at most one
symbol may leave paths open. -/
def ofLengths? (lengths : List Nat) : Option PrefixTree :=
  let codes := canonicalCodes lengths
  (ofCodes? codes).filter fun tree => codes.length ≤ 1 || tree.isComplete

end PrefixTree

/-- What **reading** from bits gives: a value and the bits behind it, or the bits end,
or they are no valid data. -/
inductive Reading (α : Type) where
  | value (a : α) (rest : Bits)
  | ended
  | corrupt

namespace Reading

/-- Reads on behind a value. -/
def andThen {α β : Type} (r : Reading α) (next : α → Bits → Reading β) : Reading β :=
  match r with
  | .value a rest => next a rest
  | .ended => .ended
  | .corrupt => .corrupt

/-- Reads a number of bits. -/
def number (width : Nat) (bits : Bits) : Reading Nat :=
  match takeNumber? width bits with
  | some (n, rest) => .value n rest
  | none => .ended

end Reading

/-- Reads one symbol along a tree. -/
def PrefixTree.decode : PrefixTree → Bits → Reading Nat
  | .symbol value, bits => .value value bits
  | .vacant, _ => .corrupt
  | .fork _ _, [] => .ended
  | .fork zero one, b :: bits => if b then one.decode bits else zero.decode bits

end MailMerge
