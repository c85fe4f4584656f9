import MailMerge.Text.Basic

/-!
# Texts as bytes

* `Text.toUtf8` encodes a text;
* `Text.ofUtf8?` decodes bytes that are valid UTF-8;
* `Text.ofUtf8Lossy` decodes any bytes;
* `ofUtf8?_toUtf8` says that an encoded text decodes to itself.
-/

namespace MailMerge

/-- A sequence of bytes. -/
abbrev Bytes := List UInt8

namespace Text

/-- The UTF-8 encoding of a text. -/
def toUtf8 (t : Text) : Bytes := t.flatMap String.utf8EncodeChar

/-- The text of an encoding, if it is valid UTF-8. -/
def ofUtf8? (bytes : Bytes) : Option Text :=
  (ByteArray.mk bytes.toArray).utf8Decode?.map Array.toList

/-- Whether bytes are one character. -/
def isOneChar (bytes : Bytes) : Bool := (ofUtf8? bytes).any (·.length == 1)

/-- The number of bytes of the broken character at the head of bytes: as many as could
begin a character, and one at least. -/
def brokenLength (bytes : Bytes) : Nat :=
  let begins (n : Nat) : Bool :=
    n ≤ bytes.length &&
      (isOneChar (bytes.take n ++ [0x80]) || isOneChar (bytes.take n ++ [0x80, 0x80]))
  if begins 3 then 3 else if begins 2 then 2 else 1

/-- The text of bytes, with a replacement character for what is not UTF-8. -/
def ofUtf8Lossy : Bytes → Text
  | [] => []
  | b :: bytes =>
    match [1, 2, 3, 4].findSome? fun n =>
      (ofUtf8? ((b :: bytes).take n)).bind fun t => t.head?.map fun c => (c, n) with
    | some (c, n) => c :: ofUtf8Lossy (bytes.drop (n - 1))
    | none => '\ufffd' :: ofUtf8Lossy (bytes.drop (brokenLength (b :: bytes) - 1))
termination_by bytes => bytes.length
decreasing_by all_goals simp only [List.length_drop, List.length_cons]; omega

@[simp] theorem ofUtf8?_toUtf8 (t : Text) : ofUtf8? (toUtf8 t) = some t := by
  have h : ByteArray.mk (toUtf8 t).toArray = t.utf8Encode := by
    apply ByteArray.ext
    simp [List.utf8Encode, toUtf8]
  rw [ofUtf8?, h, List.utf8Decode?_utf8Encode]
  simp

end Text

end MailMerge
