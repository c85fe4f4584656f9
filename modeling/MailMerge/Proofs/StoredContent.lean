import Mathlib.Algebra.Group.Nat.Defs
import MailMerge.Archive.Basic

/-!
# Stored contents are read back

What a part stores is what it was given, whatever the method. Deflating reads its own output back
before it settles on it, so that only one form has to be followed through the decoder: the blocks of
bytes as they are, which deflating falls back to.

* `bitsOfBytes_bytesOfBits` — whole bytes of bits survive the packing into bytes;
* `inflateBlocks_storedBlocks` — the blocks of bytes as they are inflate to these bytes;
* `inflate_deflate` — inflating undoes deflating;
* `content_ofContent`, `text_ofContent` — a part holds the content, or the text, it was made of.
-/

namespace MailMerge

/-! ### Packing bits -/

theorem numberOfBits_lt (bits : Bits) : numberOfBits bits < 2 ^ bits.length := by
  induction bits with
  | nil => simp [numberOfBits]
  | cons b bits ih =>
    rw [numberOfBits, List.length_cons, Nat.pow_succ]
    cases b <;> simp only [if_true, if_false, Bool.false_eq_true] <;> omega

/-- The number that bits spell is written with the same bits. -/
theorem numberBits_numberOfBits (bits : Bits) :
    numberBits bits.length (numberOfBits bits) = bits := by
  induction bits with
  | nil => rfl
  | cons b bits ih =>
    -- the lowest bit is the remainder, and the others are the quotient
    have hdiv : numberOfBits (b :: bits) / 2 = numberOfBits bits := by
      cases b <;> simp only [numberOfBits, if_true, if_false, Bool.false_eq_true] <;> omega
    have hmod : (numberOfBits (b :: bits) % 2 == 1) = b := by
      cases b <;> simp [numberOfBits]
    rw [List.length_cons, numberBits, hdiv, hmod, ih]

/-- Eight bits survive as one byte. -/
theorem numberBits_ofNat_numberOfBits {bits : Bits} (h : bits.length = 8) :
    numberBits 8 (UInt8.ofNat (numberOfBits bits)).toNat = bits := by
  have hlt := numberOfBits_lt bits
  rw [h] at hlt
  have hbyte : (UInt8.ofNat (numberOfBits bits)).toNat = numberOfBits bits := by
    rw [UInt8.toNat_ofNat']
    exact Nat.mod_eq_of_lt hlt
  rw [hbyte, ← h]
  exact numberBits_numberOfBits bits

@[simp] theorem bitsOfBytes_cons (b : UInt8) (bytes : Bytes) :
    bitsOfBytes (b :: bytes) = numberBits 8 b.toNat ++ bitsOfBytes bytes := rfl

@[simp] theorem length_bitsOfBytes (bytes : Bytes) :
    (bitsOfBytes bytes).length = 8 * bytes.length := by
  induction bytes with
  | nil => rfl
  | cons b bytes ih =>
    rw [bitsOfBytes_cons, List.length_append, length_numberBits, ih, List.length_cons]
    omega

/-- Bits that fill whole bytes survive the packing. -/
theorem bitsOfBytes_bytesOfBits {bits : Bits} (h : bits.length % 8 = 0) :
    bitsOfBytes (bytesOfBits bits) = bits := by
  fun_induction bytesOfBits bits with
  | case1 => rfl
  | case2 b bits ih =>
    rw [List.length_cons] at h
    -- a bit that is left over means a whole byte that is left over
    have hlong : 7 ≤ bits.length := by omega
    have htake : (b :: bits.take 7).length = 8 := by
      rw [List.length_cons, List.length_take]
      omega
    have hdrop : (bits.drop 7).length % 8 = 0 := by
      rw [List.length_drop]
      omega
    rw [bitsOfBytes_cons, numberBits_ofNat_numberOfBits htake, ih hdrop, List.cons_append,
      List.take_append_drop]

/-! ### Blocks of bytes as they are -/

theorem number_numberBits {width n : Nat} (h : n < 2 ^ width) (rest : Bits) :
    Reading.number width (numberBits width n ++ rest) = .value n rest := by
  have hmod : n % Nat.pow 2 width = n := Nat.mod_eq_of_lt h
  rw [Reading.number, takeNumber?_numberBits, hmod]

theorem inflateBytes_bitsOfBytes (bytes : Bytes) (rest : Bits) (output : Bytes) :
    inflateBytes bytes.length (bitsOfBytes bytes ++ rest) output =
      .complete (bytes.reverse ++ output) rest := by
  induction bytes generalizing output with
  | nil => rfl
  | cons b bytes ih =>
    have hmod : b.toNat % Nat.pow 2 8 = b.toNat := Nat.mod_eq_of_lt b.toNat_lt
    -- bytes are put out in reverse, so that each goes in front of what is already there
    rw [List.length_cons, inflateBytes, bitsOfBytes_cons, List.append_assoc,
      takeNumber?_numberBits, hmod]
    dsimp only
    rw [ih, UInt8.ofNat_toNat, List.reverse_cons, List.append_assoc, List.singleton_append]

theorem length_storedBits (last : Bool) (bytes : Bytes) :
    (storedBits last 0 bytes).length = 8 * bytes.length + 40 := by
  simp [storedBits]
  omega

/-- One block of bytes as they are, at the start of a byte and before whole bytes. -/
theorem inflateStored_storedBits {bytes : Bytes} (hsize : bytes.length ≤ 65535) {rest : Bits}
    (hrest : rest.length % 8 = 0) (last : Bool) (output : Bytes) :
    inflateStored ((storedBits last 0 bytes ++ rest).drop 3) output =
      .complete (bytes.reverse ++ output) rest := by
  have hbits : (storedBits last 0 bytes ++ rest).drop 3 =
      List.replicate 5 false ++ (numberBits 16 bytes.length ++
        (numberBits 16 (65535 - bytes.length) ++ (bitsOfBytes bytes ++ rest))) := by
    simp [storedBits]
  -- after three bits of header, five more fill the byte
  have halign : ((storedBits last 0 bytes ++ rest).drop 3).length % 8 = 5 := by
    rw [List.length_drop, List.length_append, length_storedBits]
    omega
  unfold inflateStored
  dsimp only
  rw [halign, hbits, List.drop_left' (by simp), number_numberBits (by omega)]
  dsimp only [Inflating.reading]
  rw [number_numberBits (by omega)]
  dsimp only
  -- the second length is the complement of the first
  rw [if_pos (by omega), inflateBytes_bitsOfBytes]

theorem number_append {width : Nat} {bits : Bits} (h : bits.length = width) (rest : Bits) :
    Reading.number width (bits ++ rest) = .value (numberOfBits bits) rest := by
  have hlt := numberOfBits_lt bits
  have hbits := numberBits_numberOfBits bits
  rw [h] at hlt hbits
  -- the bits are those of the number that they spell
  conv => lhs; rw [← hbits]
  exact number_numberBits hlt rest

/-- A block of bytes as they are ends the data if it is the last one, and else the next follows. -/
theorem inflateBlocks_storedBits {bytes : Bytes} (hsize : bytes.length ≤ 65535) {rest : Bits}
    (hrest : rest.length % 8 = 0) (last : Bool) (steps : Nat) (output : Bytes) :
    inflateBlocks (steps + 1) (storedBits last 0 bytes ++ rest) output =
      if last then .complete (bytes.reverse ++ output) rest
      else inflateBlocks steps rest (bytes.reverse ++ output) := by
  -- one bit says whether the block is the last, and two that its bytes are as they are
  have hhead : storedBits last 0 bytes ++ rest =
      [last] ++ ([false, false] ++ (storedBits last 0 bytes ++ rest).drop 3) := by
    simp [storedBits]
  have hblock := inflateStored_storedBits hsize hrest last output
  rw [hhead, inflateBlocks, number_append (show [last].length = 1 from rfl)]
  dsimp only [Inflating.reading]
  rw [number_append (show [false, false].length = 2 from rfl)]
  dsimp only
  rw [show numberOfBits [false, false] = 0 from rfl, inflateBlock, if_pos rfl, hblock]
  cases last <;> rfl

theorem length_storedBlocks (bytes : Bytes) :
    (storedBlocks bytes).length % 8 = 0 ∧ bytes.length < (storedBlocks bytes).length := by
  fun_induction storedBlocks bytes with
  | case1 bytes _ =>
    rw [length_storedBits]
    omega
  | case2 bytes _ ih =>
    rw [List.length_append, length_storedBits]
    rw [List.length_drop] at ih
    rw [List.length_take]
    omega

/-- **Blocks of bytes as they are inflate to these bytes**, given more steps than there are bytes. -/
theorem inflateBlocks_storedBlocks {bytes : Bytes} {steps : Nat} (h : bytes.length < steps)
    (output : Bytes) :
    inflateBlocks steps (storedBlocks bytes) output = .complete (bytes.reverse ++ output) [] := by
  -- each block takes a step, and has at least one byte unless it is the last
  obtain ⟨steps, rfl⟩ : ∃ n, steps = n + 1 := ⟨steps - 1, by omega⟩
  fun_induction storedBlocks bytes generalizing steps output with
  | case1 bytes hsize =>
    have hrest : ([] : Bits).length % 8 = 0 := rfl
    have hblock := inflateBlocks_storedBits hsize hrest true steps output
    rwa [List.append_nil, if_pos rfl] at hblock
  | case2 bytes hsize ih =>
    -- a full block, and the rest by induction
    have hfront : (bytes.take 65535).length ≤ 65535 := by
      rw [List.length_take]
      omega
    obtain ⟨steps, rfl⟩ : ∃ n, steps = n + 1 := ⟨steps - 1, by omega⟩
    rw [inflateBlocks_storedBits hfront (length_storedBlocks _).1]
    have hback : (bytes.drop 65535).length < steps + 1 := by
      rw [List.length_drop]
      omega
    rw [if_neg Bool.false_ne_true, ih _ steps hback, ← List.append_assoc, ← List.reverse_append,
      List.take_append_drop]

theorem inflate_storedBlocks (bytes : Bytes) :
    inflate (bytesOfBits (storedBlocks bytes)) = .ok bytes := by
  obtain ⟨hbits, hsteps⟩ := length_storedBlocks bytes
  unfold inflate
  dsimp only
  rw [bitsOfBytes_bytesOfBits hbits, inflateBlocks_storedBlocks hsteps]
  simp

/-! ### Parts -/

/-- **Inflating undoes deflating.** -/
theorem inflate_deflate (bytes : Bytes) : inflate (deflate bytes) = .ok bytes := by
  have hstored := inflate_storedBlocks bytes
  unfold deflate
  dsimp only
  -- what was compressed is kept only if it is read back, and else the stored blocks stand for it
  split
  case h_1 output hread =>
    split
    case isTrue heq => rw [hread, heq]
    case isFalse => exact hstored
  case h_2 => exact hstored

theorem unpack_pack (method : StorageMethod) (bytes : Bytes) :
    method.unpack (method.pack bytes) = .ok bytes := by
  cases method with
  | stored => rfl
  | deflated => exact inflate_deflate bytes
  | other code => rfl

namespace Part

/-- A part **holds the content** it was made of. -/
@[simp] theorem content_ofContent (name : Text) (method : StorageMethod) (bytes : Bytes) :
    (ofContent name method bytes).content = .ok bytes := by
  have hread : (ofContent name method bytes).method.unpack (ofContent name method bytes).packed =
      .ok bytes := unpack_pack method bytes
  unfold content
  rw [hread]
  -- the checksum of a part is that of its content
  change (if MailMerge.checksum bytes = MailMerge.checksum bytes then _ else _) = _
  rw [if_pos rfl]
  rfl

/-- A part **holds the text** it was made of. -/
@[simp] theorem text_ofContent (name : Text) (method : StorageMethod) (t : Text) :
    (ofContent name method t.toUtf8).text = .ok t := by
  unfold text
  rw [content_ofContent]
  simp only [bind, Except.bind, Text.ofUtf8?_toUtf8]
  rfl

end Part

end MailMerge
