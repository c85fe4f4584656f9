import MailMerge.Archive.Name
import MailMerge.Text.Utf8

/-!
# Encoded texts are decoded as they were

A text goes into an archive as its UTF-8 bytes. The strict decoder accepts nothing but such bytes, and
the one that passes over what is not valid finds every character whole, because part of the bytes of a
character spells nothing.

* `Text.toUtf8_of_ofUtf8?` — bytes that spell a text are its encoding;
* `Text.ofUtf8Lossy_toUtf8` — an encoded text is decoded as it was, also where anything may be decoded;
* `PartName.ofBytes_toUtf8` — the name of a part is read back from its bytes.
-/

namespace MailMerge

namespace Text

/-- A text that bytes spell **is encoded as these bytes**. -/
theorem toUtf8_of_ofUtf8? {bytes : Bytes} {t : Text} (h : ofUtf8? bytes = some t) :
    t.toUtf8 = bytes := by
  obtain ⟨chars, hdecode, rfl⟩ := Option.map_eq_some_iff.1 h
  -- valid bytes are the encoding of some characters, and these are the ones that are decoded
  obtain ⟨t, ht⟩ := ByteArray.isSome_utf8Decode?_iff.1 (Option.isSome_of_eq_some hdecode)
  rw [ht, List.utf8Decode?_utf8Encode, Option.some.injEq] at hdecode
  subst hdecode
  have hbytes := congrArg (fun b : ByteArray => b.data.toList) ht
  simpa [List.utf8Encode, toUtf8] using hbytes.symm

theorem toUtf8_cons (c : Char) (t : Text) :
    toUtf8 (c :: t) = String.utf8EncodeChar c ++ toUtf8 t := rfl

/-- A character takes **one to four bytes**. -/
theorem length_utf8EncodeChar_bounds (c : Char) :
    0 < (String.utf8EncodeChar c).length ∧ (String.utf8EncodeChar c).length ≤ 4 := by
  rw [String.length_utf8EncodeChar]
  exact ⟨c.utf8Size_pos, c.utf8Size_le_four⟩

/-- No character is encoded as the **beginning of another**. -/
theorem eq_of_utf8EncodeChar_append {c c' : Char} {bytes : Bytes}
    (h : String.utf8EncodeChar c = String.utf8EncodeChar c' ++ bytes) : c = c' ∧ bytes = [] := by
  have hdecode (c : Char) (bytes : Bytes) :
      (String.utf8EncodeChar c ++ bytes).toByteArray.utf8DecodeChar? 0 = some c := by
    rw [List.toByteArray_append]
    exact ByteArray.utf8DecodeChar?_utf8EncodeChar_append
  have hc := hdecode c []
  rw [List.append_nil, h, hdecode, Option.some.injEq] at hc
  subst hc
  exact ⟨rfl, List.append_cancel_left (h.symm.trans (List.append_nil _).symm)⟩

/-- Part of the encoding of a character **spells nothing**. -/
theorem ofUtf8?_take_of_lt {c : Char} {n : Nat} (hpos : 0 < n)
    (hn : n < (String.utf8EncodeChar c).length) : ofUtf8? ((String.utf8EncodeChar c).take n) = none := by
  rw [Option.eq_none_iff_forall_not_mem]
  intro t ht
  have hencoded := toUtf8_of_ofUtf8? ht
  cases t with
  | nil =>
    have hlength := congrArg List.length hencoded
    rw [List.length_take] at hlength
    change 0 = _ at hlength
    omega
  | cons c' t =>
    have hsplit : String.utf8EncodeChar c =
        String.utf8EncodeChar c' ++ (toUtf8 t ++ (String.utf8EncodeChar c).drop n) := by
      rw [← List.append_assoc, ← toUtf8_cons, hencoded, List.take_append_drop]
    obtain ⟨-, hnil⟩ := eq_of_utf8EncodeChar_append hsplit
    have hlength := congrArg List.length (List.append_eq_nil_iff.1 hnil).2
    rw [List.length_drop, List.length_nil] at hlength
    omega

/-- Where the encoding of a character stands, the character **is the first that is found**. -/
theorem findSome?_utf8EncodeChar (c : Char) (rest : Bytes) :
    [1, 2, 3, 4].findSome? (fun n => (ofUtf8? ((String.utf8EncodeChar c ++ rest).take n)).bind
      fun t => t.head?.map fun c => (c, n)) = some (c, (String.utf8EncodeChar c).length) := by
  have hnone {n : Nat} (hpos : 0 < n) (hn : n < (String.utf8EncodeChar c).length) :
      ofUtf8? ((String.utf8EncodeChar c ++ rest).take n) = none := by
    rw [List.take_append_of_le_length (Nat.le_of_lt hn)]
    exact ofUtf8?_take_of_lt hpos hn
  have hsome : ofUtf8? ((String.utf8EncodeChar c ++ rest).take (String.utf8EncodeChar c).length) =
      some [c] := by
    rw [List.take_left, ← List.append_nil (String.utf8EncodeChar c)]
    exact ofUtf8?_toUtf8 [c]
  obtain ⟨hpos, hfour⟩ := length_utf8EncodeChar_bounds c
  -- the numbers of bytes are tried in their order, and part of the bytes spells nothing
  generalize (String.utf8EncodeChar c).length = length at *
  match length, hpos, hfour with
  | 1, _, _ => simp [hsome]
  | 2, _, _ => simp [hsome, hnone (n := 1)]
  | 3, _, _ => simp [hsome, hnone (n := 1), hnone (n := 2)]
  | 4, _, _ => simp [hsome, hnone (n := 1), hnone (n := 2), hnone (n := 3)]

/-- An encoded text **is decoded as it was**, also where anything may be decoded. -/
theorem ofUtf8Lossy_toUtf8 (t : Text) : ofUtf8Lossy (toUtf8 t) = t := by
  induction t with
  | nil => rw [toUtf8, List.flatMap_nil, ofUtf8Lossy]
  | cons c t ih =>
    have hfound := findSome?_utf8EncodeChar c (toUtf8 t)
    have hdrop : (String.utf8EncodeChar c ++ toUtf8 t).drop (String.utf8EncodeChar c).length = toUtf8 t :=
      List.drop_left
    have hpos := (length_utf8EncodeChar_bounds c).1
    rw [toUtf8_cons]
    generalize (String.utf8EncodeChar c).length = length at *
    cases hbytes : String.utf8EncodeChar c ++ toUtf8 t with
    | nil =>
      rw [hbytes] at hfound
      cases hfound
    | cons b bytes =>
      rw [hbytes] at hfound hdrop
      obtain ⟨length, rfl⟩ : ∃ n, length = n + 1 := ⟨length - 1, by omega⟩
      rw [ofUtf8Lossy, hfound]
      dsimp only
      rw [Nat.add_sub_cancel, show bytes.drop length = toUtf8 t from hdrop, ih]

end Text

/-- A name **is read back** from its bytes, if these are said to be UTF-8 where they are not ASCII. -/
theorem PartName.ofBytes_toUtf8 (name : Text) :
    PartName.ofBytes (!name.all fun c => c.toNat < 128) name.toUtf8 = name := by
  unfold ofBytes
  cases hascii : name.all fun c => decide (c.toNat < 128) with
  | false => exact Text.ofUtf8Lossy_toUtf8 name
  | true =>
    change name.toUtf8.map codePageChar = name
    induction name with
    | nil => rfl
    | cons c name ih =>
      rw [List.all_cons, Bool.and_eq_true, decide_eq_true_eq] at hascii
      have hsize : c.utf8Size = 1 := by
        rw [Char.utf8Size_eq_one_iff]
        exact UInt32.le_iff_toNat_le.2 (Nat.le_of_lt_succ hascii.1)
      have hbyte : c.val.toUInt8.toNat = c.toNat := by
        rw [UInt32.toNat_toUInt8]
        exact Nat.mod_eq_of_lt (Nat.lt_trans hascii.1 (by decide))
      have hchar : codePageChar c.val.toUInt8 = c := by
        have hlow : c.val.toUInt8 < 128 := by
          rw [UInt8.lt_iff_toNat_lt, hbyte]
          exact hascii.1
        rw [codePageChar, if_pos hlow, hbyte, Char.ofNat_toNat]
      rw [Text.toUtf8_cons, List.map_append, ih hascii.2, String.utf8EncodeChar_eq_singleton hsize,
        List.map_singleton, hchar, List.singleton_append]

end MailMerge
