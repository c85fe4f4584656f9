import MailMerge.Archive.CodeLengths
import MailMerge.Archive.Inflate
import MailMerge.Archive.Repeat

/-!
# Deflating

Bytes are compressed block by block. A small block is written with the fixed codes, any
other with codes of its own, which stand at its head; a block that would not become
shorter is written as it is.

* `runLengths` shortens the list of code lengths at the head of a block;
* `blockBits` writes a block;
* `deflate` compresses bytes. What it writes has been read back: should that ever fail,
  the bytes are stored as they are.
-/

namespace MailMerge

/-! ### Symbols -/

/-- The symbol of a number in a table of ranges, and the bits that are added to it. -/
def symbolOf (table : List (Nat × Nat)) (n : Nat) : Nat × Bits :=
  let symbol := (table.takeWhile fun range => range.1 ≤ n).length - 1
  let (base, extra) := table.getD symbol (0, 0)
  (symbol, numberBits extra (n - base))

/-- The symbols of a token: one for a literal or a length, with added bits, and one for
a distance. -/
structure TokenSymbols where
  literal : Nat
  lengthBits : Bits
  distance : Option (Nat × Bits)

/-- The symbols of a token. -/
def Token.symbols : Token → TokenSymbols
  | .literal byte => ⟨byte.toNat, [], none⟩
  | .repetition length distance =>
    let (symbol, bits) := symbolOf Repeats.lengths length
    ⟨257 + symbol, bits, some (symbolOf Repeats.distances distance)⟩

/-- How often each symbol below `count` occurs. -/
def frequencies (count : Nat) (symbols : List Nat) : List Nat :=
  (symbols.foldl (fun (f : Array Nat) s => f.modify s (· + 1)) (Array.replicate count 0)).toList

/-- A code as a table: the word of each symbol. -/
def codeTable (count : Nat) (lengths : List Nat) : Array Bits :=
  (canonicalCodes lengths).foldl (fun t c => t.setIfInBounds c.1 c.2) (Array.replicate count [])

/-- The bits of tokens and of the end of their block. -/
def tokenBits (literals distances : Array Bits) (tokens : List TokenSymbols) : Bits :=
  tokens.flatMap (fun t =>
    literals.getD t.literal [] ++ t.lengthBits ++
      match t.distance with
      | some (symbol, bits) => distances.getD symbol [] ++ bits
      | none => []) ++ literals.getD 256 []

/-! ### The head of a block -/

/-- One symbol of the code of code lengths, with the bits that are added to it. -/
abbrev LengthSymbol := Nat × Bits

/-- Writes `count` code lengths of zero. -/
def zeroRun (count : Nat) : List LengthSymbol :=
  if count < 3 then List.replicate count (0, [])
  else if count ≤ 10 then [(17, numberBits 3 (count - 3))]
  else [(18, numberBits 7 (count - 11))]

/-- Writes `count` code lengths that equal the one before. -/
def equalRun (length count : Nat) : List LengthSymbol :=
  if count < 3 then List.replicate count (length, []) else [(16, numberBits 2 (count - 3))]

/-- Writes code lengths after the length `before`, of which `count` more are still to be
written. For zeros `count` includes the first. -/
def runLengths (before count : Nat) : List Nat → List LengthSymbol
  | [] => if before = 0 then zeroRun count else equalRun before count
  | length :: rest =>
    if length = before then
      if before = 0 ∧ count = 137 then zeroRun 138 ++ runLengths 0 0 rest
      else if before ≠ 0 ∧ count = 5 then equalRun before 6 ++ runLengths before 0 rest
      else runLengths before (count + 1) rest
    else
      let written := if before = 0 then zeroRun count else equalRun before count
      if length = 0 then written ++ runLengths 0 1 rest
      else written ++ (length, []) :: runLengths length 0 rest

/-- A list without the zeros at its end, but with at least `least` members. -/
def trimZeros (least : Nat) (lengths : List Nat) : List Nat :=
  lengths.take (max least ((lengths.reverse.dropWhile (· == 0)).length))

/-- The head of a block with codes of its own, given their lengths. -/
def headBits (literals distances : List Nat) : Bits :=
  let literals := trimZeros 257 literals
  let distances := trimZeros 1 distances
  let symbols := runLengths 0 0 (literals ++ distances)
  let lengths := codeLengths 7 (frequencies 19 (symbols.map (·.1)))
  let ordered := trimZeros 4 (Repeats.lengthOrder.map fun s => lengths.getD s 0)
  let table := codeTable 19 lengths
  numberBits 5 (literals.length - 257) ++ numberBits 5 (distances.length - 1) ++
    numberBits 4 (ordered.length - 4) ++ ordered.flatMap (numberBits 3) ++
    symbols.flatMap fun s => table.getD s.1 [] ++ s.2

/-! ### Blocks -/

/-- A block of bytes as they are. `position` is the number of bits before the block. -/
def storedBits (last : Bool) (position : Nat) (bytes : Bytes) : Bits :=
  let start := [last, false, false]
  start ++ List.replicate ((8 - (position + 3) % 8) % 8) false ++
    numberBits 16 bytes.length ++ numberBits 16 (65535 - bytes.length) ++ bitsOfBytes bytes

/-- Tokens with the fixed codes. -/
def fixedBits (last : Bool) (symbols : List TokenSymbols) : Bits :=
  [last, true, false] ++
    tokenBits (codeTable 288 Repeats.fixedLiteralLengths)
      (codeTable 30 Repeats.fixedDistanceLengths) symbols

/-- Tokens with codes of their own. -/
def ownBits (last : Bool) (symbols : List TokenSymbols) : Bits :=
  let literals := codeLengths 15 (frequencies 286 (256 :: symbols.map TokenSymbols.literal))
  let distances :=
    codeLengths 15 (frequencies 30 (symbols.filterMap fun s => s.distance.map (·.1)))
  [last, false, true] ++ headBits literals distances ++
    tokenBits (codeTable 286 literals) (codeTable 30 distances) symbols

/-- A block. `position` is the number of bits before it. -/
def blockBits (last : Bool) (position : Nat) (bytes : Bytes) (tokens : List Token) : Bits :=
  let symbols := tokens.map Token.symbols
  let bits := if bytes.length < 48 then fixedBits last symbols else ownBits last symbols
  let fullBytes := (position + bits.length) / 8 - (position + 1) / 8
  if 32 < bytes.length ∧ bytes.length ≤ fullBytes + 1 then storedBits last position bytes
  else bits

/-- The room that tokens take while their block is collected: one byte for a literal,
three for a repeat, and one more for every eight tokens. -/
def tokenRoom (literals repeats : Nat) : Nat :=
  1 + literals + 3 * repeats + (literals + repeats) / 8

/-- Whether a block ends behind some tokens: the room is used up, or the bytes hardly
become fewer. -/
def endsBlock (literals repeats size : Nat) : Bool :=
  let room := tokenRoom literals repeats
  65528 < room || (31744 < size && size ≤ room * 115 / 128)

/-- The number of tokens in the block that begins a list, if the list goes on behind
it or ends with it, given what stands before in the block. -/
def blockTokens (literals repeats size : Nat) : List Token → Nat → Option Nat
  | [], _ => none
  | token :: tokens, count =>
    let (literals, repeats) :=
      match token with
      | .literal _ => (literals + 1, repeats)
      | .repetition _ _ => (literals, repeats + 1)
    let size := size + token.size
    if endsBlock literals repeats size then some count
    else blockTokens literals repeats size tokens (count + 1)

/-- Writes tokens block by block. The last block may be empty. -/
def blocksBits (position : Nat) (bytes : Bytes) (tokens : List Token) : Bits :=
  match tokens, blockTokens 0 0 0 tokens 0 with
  | token :: tokens, some more =>
    let front := token :: tokens.take more
    let size := front.foldr (fun token size => token.size + size) 0
    let block := blockBits false position (bytes.take size) front
    block ++ blocksBits (position + block.length) (bytes.drop size) (tokens.drop more)
  | tokens, _ => blockBits true position bytes tokens
termination_by tokens.length
decreasing_by
  simp only [List.length_drop, List.length_cons]
  omega

/-- Bytes as they are, in blocks of up to 65535 bytes. -/
def storedBlocks (bytes : Bytes) : Bits :=
  if bytes.length ≤ 65535 then storedBits true 0 bytes
  else storedBits false 0 (bytes.take 65535) ++ storedBlocks (bytes.drop 65535)
termination_by bytes.length
decreasing_by
  simp only [List.length_drop]
  omega

/-- **Deflates** bytes, so that inflating gives them back. -/
def deflate (bytes : Bytes) : Bytes :=
  let packed := bytesOfBits (blocksBits 0 bytes (tokensOf bytes))
  match inflate packed with
  | .ok output => if output = bytes then packed else bytesOfBits (storedBlocks bytes)
  | .error _ => bytesOfBits (storedBlocks bytes)

end MailMerge
