import MailMerge.Archive.Fault
import MailMerge.Archive.Huffman

/-!
# Inflating

Compressed data is a list of blocks. A block holds its bytes as they are, or as
symbols of two prefix codes, one for literal bytes and lengths of repeats and one
for their distances. The codes are fixed or stand at the head of the block.

* `Repeats` holds the ranges that the symbols of lengths and distances stand for;
* `inflateSymbols` reads the symbols of a block;
* `inflate` reads all blocks. Data that ends too early gives what was read so far.
-/

namespace MailMerge

/-! ### Lengths and distances -/

namespace Repeats

/-- The shortest length of each length symbol from 257 on, with the number of bits
that are added to it. -/
def lengths : List (Nat × Nat) :=
  [(3, 0), (4, 0), (5, 0), (6, 0), (7, 0), (8, 0), (9, 0), (10, 0), (11, 1), (13, 1), (15, 1),
   (17, 1), (19, 2), (23, 2), (27, 2), (31, 2), (35, 3), (43, 3), (51, 3), (59, 3), (67, 4),
   (83, 4), (99, 4), (115, 4), (131, 5), (163, 5), (195, 5), (227, 5), (258, 0)]

/-- The shortest distance of each distance symbol, with the number of bits that are
added to it. -/
def distances : List (Nat × Nat) :=
  [(1, 0), (2, 0), (3, 0), (4, 0), (5, 1), (7, 1), (9, 2), (13, 2), (17, 3), (25, 3), (33, 4),
   (49, 4), (65, 5), (97, 5), (129, 6), (193, 6), (257, 7), (385, 7), (513, 8), (769, 8),
   (1025, 9), (1537, 9), (2049, 10), (3073, 10), (4097, 11), (6145, 11), (8193, 12),
   (12289, 12), (16385, 13), (24577, 13)]

/-- The lengths of the fixed code for literals and lengths. -/
def fixedLiteralLengths : List Nat :=
  List.replicate 144 8 ++ List.replicate 112 9 ++ List.replicate 24 7 ++ List.replicate 8 8

/-- The lengths of the fixed code for distances. -/
def fixedDistanceLengths : List Nat := List.replicate 30 5

/-- The order in which the lengths of the code of code lengths are written. -/
def lengthOrder : List Nat := [16, 17, 18, 0, 8, 7, 9, 6, 10, 5, 11, 4, 12, 3, 13, 2, 14, 1, 15]

/-- Reads the rest of a number whose symbol has been read. -/
def read (table : List (Nat × Nat)) (symbol : Nat) (bits : Bits) : Reading Nat :=
  match table[symbol]? with
  | none => .corrupt
  | some (base, extra) => (Reading.number extra bits).andThen fun n rest => .value (base + n) rest

end Repeats

/-- Repeats the bytes at a distance, in output that is held in reverse. -/
def repeatBytes (distance : Nat) : Nat → Bytes → Option Bytes
  | 0, output => some output
  | length + 1, output =>
    match output[distance - 1]? with
    | none => none
    | some byte => repeatBytes distance length (byte :: output)

/-! ### Blocks -/

/-- What inflating gives: the output in reverse, with the bits behind it, or as far as
the bits reach; or the bits are no compressed data. -/
inductive Inflating where
  | complete (output : Bytes) (rest : Bits)
  | ended (output : Bytes)
  | corrupt

/-- Goes on with a value that has been read. -/
def Inflating.reading {α : Type} (output : Bytes) (r : Reading α)
    (next : α → Bits → Inflating) : Inflating :=
  match r with
  | .value a rest => next a rest
  | .ended => .ended output
  | .corrupt => .corrupt

/-- Reads literals and repeats up to the end of a block. Each takes at least one bit,
so that their number is bounded by the first argument. -/
def inflateSymbols (literals distances : PrefixTree) : Nat → Bits → Bytes → Inflating
  | 0, _, output => .ended output
  | steps + 1, bits, output =>
    .reading output (literals.decode bits) fun symbol bits =>
      if symbol < 256 then
        inflateSymbols literals distances steps bits (UInt8.ofNat symbol :: output)
      else if symbol = 256 then .complete output bits
      else
        .reading output (Repeats.read Repeats.lengths (symbol - 257) bits) fun length bits =>
          .reading output (distances.decode bits) fun symbol bits =>
            .reading output (Repeats.read Repeats.distances symbol bits) fun distance bits =>
              match repeatBytes distance length output with
              | none => .corrupt
              | some output => inflateSymbols literals distances steps bits output

/-- Reads bytes that stand as they are. -/
def inflateBytes : Nat → Bits → Bytes → Inflating
  | 0, bits, output => .complete output bits
  | count + 1, bits, output =>
    match takeNumber? 8 bits with
    | none => .ended output
    | some (byte, bits) => inflateBytes count bits (UInt8.ofNat byte :: output)

/-- Reads a block that is not compressed. It begins at the next full byte with its
length, written a second time with all bits turned. -/
def inflateStored (bits : Bits) (output : Bytes) : Inflating :=
  let bits := bits.drop (bits.length % 8)
  .reading output (Reading.number 16 bits) fun length bits =>
    .reading output (Reading.number 16 bits) fun turned bits =>
      if length + turned = 65535 then inflateBytes length bits output else .corrupt

/-! ### Codes at the head of a block -/

/-- Reads the lengths of the code of code lengths. -/
def readOrderedLengths : List Nat → List (Nat × Nat) → Bits → Reading (List (Nat × Nat))
  | [], lengths, bits => .value lengths bits
  | symbol :: symbols, lengths, bits =>
    (Reading.number 3 bits).andThen fun length bits =>
      readOrderedLengths symbols ((symbol, length) :: lengths) bits

/-- Reads code lengths, held in reverse, until there are `count` of them. A symbol from
16 on repeats the last length or zero. -/
def readCodeLengths (tree : PrefixTree) (count : Nat) :
    Nat → List Nat → Bits → Reading (List Nat)
  | 0, lengths, bits => if lengths.length = count then .value lengths bits else .corrupt
  | steps + 1, lengths, bits =>
    if count ≤ lengths.length then
      if lengths.length = count then .value lengths bits else .corrupt
    else
      (tree.decode bits).andThen fun symbol bits =>
        if symbol < 16 then readCodeLengths tree count steps (symbol :: lengths) bits
        else if symbol = 16 then
          match lengths with
          | [] => .corrupt
          | last :: _ =>
            (Reading.number 2 bits).andThen fun n bits =>
              readCodeLengths tree count steps (List.replicate (n + 3) last ++ lengths) bits
        else if symbol = 17 then
          (Reading.number 3 bits).andThen fun n bits =>
            readCodeLengths tree count steps (List.replicate (n + 3) 0 ++ lengths) bits
        else
          (Reading.number 7 bits).andThen fun n bits =>
            readCodeLengths tree count steps (List.replicate (n + 11) 0 ++ lengths) bits

/-- The tree of a code that has been read. -/
def treeReading (lengths : List Nat) (next : PrefixTree → Reading (PrefixTree × PrefixTree)) :
    Reading (PrefixTree × PrefixTree) :=
  match PrefixTree.ofLengths? lengths with
  | none => .corrupt
  | some tree => next tree

/-- Reads the two codes at the head of a block. -/
def readTrees (bits : Bits) : Reading (PrefixTree × PrefixTree) :=
  (Reading.number 5 bits).andThen fun literalCount bits =>
    (Reading.number 5 bits).andThen fun distanceCount bits =>
      (Reading.number 4 bits).andThen fun lengthCount bits =>
        (readOrderedLengths (Repeats.lengthOrder.take (lengthCount + 4)) [] bits).andThen
          fun ordered bits =>
            let lengths := (List.range 19).map fun symbol => (ordered.lookup symbol).getD 0
            treeReading lengths fun tree =>
              let literalCount := literalCount + 257
              let count := literalCount + distanceCount + 1
              (readCodeLengths tree count count [] bits).andThen fun reversed bits =>
                let all := reversed.reverse
                if all.getD 256 0 = 0 ∨ 286 < literalCount then .corrupt
                else
                  treeReading (all.take literalCount) fun literals =>
                    treeReading (all.drop literalCount) fun distances =>
                      .value (literals, distances) bits

/-! ### All blocks -/

/-- The tree of a fixed code. -/
def fixedTree (lengths : List Nat) : PrefixTree :=
  (PrefixTree.ofCodes? (canonicalCodes lengths)).getD .vacant

/-- Reads one block of a kind. -/
def inflateBlock (kind : Nat) (bits : Bits) (output : Bytes) : Inflating :=
  if kind = 0 then inflateStored bits output
  else if kind = 1 then
    inflateSymbols (fixedTree Repeats.fixedLiteralLengths) (fixedTree Repeats.fixedDistanceLengths)
      bits.length bits output
  else if kind = 2 then
    .reading output (readTrees bits) fun trees bits =>
      inflateSymbols trees.1 trees.2 bits.length bits output
  else .corrupt

/-- Reads blocks up to the last one. -/
def inflateBlocks : Nat → Bits → Bytes → Inflating
  | 0, _, output => .ended output
  | steps + 1, bits, output =>
    .reading output (Reading.number 1 bits) fun last bits =>
      .reading output (Reading.number 2 bits) fun kind bits =>
        match inflateBlock kind bits output with
        | .complete output bits =>
          if last = 1 then .complete output bits else inflateBlocks steps bits output
        | .ended output => .ended output
        | .corrupt => .corrupt

/-- **Inflates** compressed bytes. Bytes behind the last block are not looked at, and
data that ends too early gives what was read so far. -/
def inflate (bytes : Bytes) : Except ContentFault Bytes :=
  let bits := bitsOfBytes bytes
  match inflateBlocks bits.length bits [] with
  | .complete output _ | .ended output => .ok output.reverse
  | .corrupt => .error .corruptStream

end MailMerge
