import MailMerge.Archive.Reading
import MailMerge.Proofs.EncodedText
import MailMerge.Proofs.Tables

/-!
# Written archives are read back

An archive is read from its end record, which leads to the directory, whose entries lead to the local
headers. Each number that is written in a field of its own comes back if it has room there, so that an
archive comes back if all its numbers have room, its parts have different names, and none is encrypted.

* `wordAt_fieldBytes` — a field is read back where it stands among fields;
* `readEntry?_directoryBytes` — an entry of the directory is read as its part;
* `readEntries?_directoryOf` — a directory is read as its parts, one entry after the other;
* `Archive.Fits` says that an archive has room in the format;
* `Archive.ofBytes?_toBytes` — an archive that fits is read back from its bytes.
-/

namespace MailMerge

/-! ### Fields -/

/-- The bytes of **fields** in their order, each a number of some width. -/
def fieldBytes (fields : List (Nat × Nat)) : Bytes := fields.flatMap fun field => wordBytes field.1 field.2

/-- The number of bytes of fields. -/
def fieldWidth : List (Nat × Nat) → Nat
  | [] => 0
  | (width, _) :: fields => width + fieldWidth fields

@[simp] theorem length_fieldBytes (fields : List (Nat × Nat)) :
    (fieldBytes fields).length = fieldWidth fields := by
  induction fields with
  | nil => rfl
  | cons field fields ih =>
    rw [fieldBytes, List.flatMap_cons, List.length_append, length_wordBytes]
    exact congrArg (field.1 + ·) ih

/-- A field **is read back** behind a mark and the fields before it, as far as it has room. -/
theorem wordAt_fieldBytes {mark : Bytes} {offset width : Nat} {fields : List (Nat × Nat)} (k n : Nat)
    (hfield : fields[k]? = some (width, n)) (hoffset : offset = mark.length + fieldWidth (fields.take k))
    (back : Bytes) :
    wordAt offset width (mark ++ (fieldBytes fields ++ back)) = n % Nat.pow 256 width := by
  obtain ⟨hk, hget⟩ := List.getElem?_eq_some_iff.1 hfield
  have hsplit : fields = fields.take k ++ (width, n) :: fields.drop (k + 1) := by
    rw [← hget, List.getElem_cons_drop, List.take_append_drop]
  have hbytes : mark ++ (fieldBytes fields ++ back) =
      (mark ++ fieldBytes (fields.take k)) ++
        (wordBytes width n ++ (fieldBytes (fields.drop (k + 1)) ++ back)) := by
    conv => lhs; rw [hsplit]
    simp [fieldBytes]
  have hfront : (mark ++ fieldBytes (fields.take k)).length = offset := by
    rw [hoffset, List.length_append, length_fieldBytes]
  rw [wordAt, hbytes, List.drop_left' hfront, List.take_left' (length_wordBytes width n),
    wordValue_wordBytes]

namespace ArchiveMark

@[simp] theorem length_localHeader : localHeader.length = 4 := rfl

@[simp] theorem length_directoryEntry : directoryEntry.length = 4 := rfl

@[simp] theorem length_directoryEnd : directoryEnd.length = 4 := rfl

end ArchiveMark

theorem startsWithBytes_append (needle bytes : Bytes) : startsWithBytes needle (needle ++ bytes) = true := by
  induction needle with
  | nil => cases bytes <;> rfl
  | cons b needle ih => rw [List.cons_append, startsWithBytes, ih, beq_self_eq_true, Bool.and_true]

/-! ### Headers -/

namespace Part

/-- The flags of a part: whether its name is UTF-8. -/
def flags (part : Part) : Nat := if part.name.all fun c => c.toNat < 128 then 0 else 0x800

theorem flags_lt (part : Part) : part.flags < 65536 := by
  unfold flags
  split <;> decide

theorem testBit_flags (part : Part) :
    part.flags.testBit 11 = (!part.name.all fun c => c.toNat < 128) ∧ part.flags.testBit 0 = false := by
  unfold flags
  cases part.name.all fun c => decide (c.toNat < 128) <;> decide

/-- Whether a part **fits the format**: it is not encrypted, and each number finds room in its field. -/
structure Fits (part : Part) : Prop where
  isEncrypted_eq : part.isEncrypted = false
  method_eq : StorageMethod.ofCode part.method.code = part.method
  code_lt : part.method.code < 65536
  size_lt : part.size < 4294967296
  packed_lt : part.packed.length < 4294967296
  name_lt : part.nameBytes.length < 65536

instance (part : Part) : Decidable part.Fits :=
  decidable_of_iff (part.isEncrypted = false ∧ StorageMethod.ofCode part.method.code = part.method ∧
      part.method.code < 65536 ∧ part.size < 4294967296 ∧ part.packed.length < 4294967296 ∧
      part.nameBytes.length < 65536)
    ⟨fun ⟨h₁, h₂, h₃, h₄, h₅, h₆⟩ => ⟨h₁, h₂, h₃, h₄, h₅, h₆⟩,
      fun ⟨h₁, h₂, h₃, h₄, h₅, h₆⟩ => ⟨h₁, h₂, h₃, h₄, h₅, h₆⟩⟩

/-- The fields that both headers share. -/
def headerFields (part : Part) : List (Nat × Nat) :=
  [(2, 20), (2, part.flags), (2, part.method.code), (2, 0), (2, 0x21), (4, part.checksum.toNat),
    (4, part.packed.length), (4, part.size), (2, part.nameBytes.length), (2, 0)]

theorem localBytes_eq (part : Part) :
    part.localBytes =
      ArchiveMark.localHeader ++ (fieldBytes part.headerFields ++ (part.nameBytes ++ part.packed)) := by
  simp [localBytes, sharedFields, fieldBytes, headerFields, flags]

/-- The fields of the directory alone. -/
def entryFields (offset : Nat) : List (Nat × Nat) :=
  [(2, 0), (2, 0), (2, 0), (4, 0x81A40000), (4, offset)]

theorem directoryBytes_eq (part : Part) (offset : Nat) :
    part.directoryBytes offset =
      ArchiveMark.directoryEntry ++
        (fieldBytes ((2, 0x314) :: part.headerFields ++ entryFields offset) ++ part.nameBytes) := by
  simp [directoryBytes, sharedFields, fieldBytes, headerFields, entryFields, flags]

@[simp] theorem length_localBytes (part : Part) :
    part.localBytes.length = 30 + part.nameBytes.length + part.packed.length := by
  simp [localBytes_eq, headerFields, fieldWidth]
  omega

@[simp] theorem length_directoryBytes (part : Part) (offset : Nat) :
    (part.directoryBytes offset).length = 46 + part.nameBytes.length := by
  simp [directoryBytes_eq, headerFields, entryFields, fieldWidth]
  omega

/-- The **fields of a local header** are read back. -/
theorem wordAt_localBytes (part : Part) (back : Bytes) :
    wordAt 26 2 (part.localBytes ++ back) = part.nameBytes.length % 65536 ∧
      wordAt 28 2 (part.localBytes ++ back) = 0 := by
  rw [localBytes_eq, List.append_assoc, List.append_assoc]
  constructor
  · exact wordAt_fieldBytes 8 _ (by rfl) (by simp [headerFields, fieldWidth]) _
  · exact wordAt_fieldBytes 9 0 (by rfl) (by simp [headerFields, fieldWidth]) _

/-- The **fields of an entry** of the directory are read back. -/
theorem wordAt_directoryBytes (part : Part) (offset : Nat) (back : Bytes) :
    wordAt 8 2 (part.directoryBytes offset ++ back) = part.flags % 65536 ∧
      wordAt 10 2 (part.directoryBytes offset ++ back) = part.method.code % 65536 ∧
      wordAt 16 4 (part.directoryBytes offset ++ back) = part.checksum.toNat % 4294967296 ∧
      wordAt 20 4 (part.directoryBytes offset ++ back) = part.packed.length % 4294967296 ∧
      wordAt 24 4 (part.directoryBytes offset ++ back) = part.size % 4294967296 ∧
      wordAt 28 2 (part.directoryBytes offset ++ back) = part.nameBytes.length % 65536 ∧
      wordAt 30 2 (part.directoryBytes offset ++ back) = 0 ∧
      wordAt 32 2 (part.directoryBytes offset ++ back) = 0 ∧
      wordAt 42 4 (part.directoryBytes offset ++ back) = offset % 4294967296 := by
  rw [directoryBytes_eq, List.append_assoc, List.append_assoc]
  refine ⟨?_, ?_, ?_, ?_, ?_, ?_, ?_, ?_, ?_⟩
  · exact wordAt_fieldBytes 2 _ (by rfl) (by simp [headerFields, fieldWidth]) _
  · exact wordAt_fieldBytes 3 _ (by rfl) (by simp [headerFields, fieldWidth]) _
  · exact wordAt_fieldBytes 6 _ (by rfl) (by simp [headerFields, fieldWidth]) _
  · exact wordAt_fieldBytes 7 _ (by rfl) (by simp [headerFields, fieldWidth]) _
  · exact wordAt_fieldBytes 8 _ (by rfl) (by simp [headerFields, fieldWidth]) _
  · exact wordAt_fieldBytes 9 _ (by rfl) (by simp [headerFields, fieldWidth]) _
  · exact wordAt_fieldBytes 10 0 (by rfl) (by simp [headerFields, fieldWidth]) _
  · exact wordAt_fieldBytes 11 0 (by rfl) (by simp [headerFields, entryFields, fieldWidth]) _
  · exact wordAt_fieldBytes 15 _ (by rfl) (by simp [headerFields, entryFields, fieldWidth]) _

/-- The name of a part **stands behind the fields** of its entry. -/
theorem take_drop_directoryBytes (part : Part) (offset : Nat) (back : Bytes) :
    ((part.directoryBytes offset ++ back).drop 46).take part.nameBytes.length = part.nameBytes := by
  have hsplit : part.directoryBytes offset ++ back =
      (ArchiveMark.directoryEntry ++ fieldBytes ((2, 0x314) :: part.headerFields ++ entryFields offset)) ++
        (part.nameBytes ++ back) := by
    simp [directoryBytes_eq]
  rw [hsplit, List.drop_left' (by simp [headerFields, entryFields, fieldWidth]), List.take_left]

/-- What a part stores **stands behind its name**. -/
theorem take_drop_localBytes (part : Part) (back : Bytes) :
    ((part.localBytes ++ back).drop (30 + part.nameBytes.length)).take part.packed.length =
      part.packed := by
  have hsplit : part.localBytes ++ back =
      (ArchiveMark.localHeader ++ (fieldBytes part.headerFields ++ part.nameBytes)) ++
        (part.packed ++ back) := by
    simp [localBytes_eq]
  rw [hsplit, List.drop_left' (by simp [headerFields, fieldWidth]; omega), List.take_left]

end Part

/-! ### Entries -/

theorem guard_of {p : Prop} [Decidable p] (hp : p) : (guard p : Option Unit) = some () := if_pos hp

section Entries

variable {part : Part} (hfits : part.Fits)
include hfits

/-- A local header **leads to what its part stores**. -/
theorem dataOffset?_localBytes (front back : Bytes) :
    dataOffset? (front ++ (part.localBytes ++ back)) front.length =
      some (front.length + (30 + part.nameBytes.length)) := by
  obtain ⟨hname, hextra⟩ := part.wordAt_localBytes back
  have hmark : startsWithBytes ArchiveMark.localHeader (part.localBytes ++ back) = true := by
    rw [part.localBytes_eq, List.append_assoc]
    exact startsWithBytes_append ..
  have hlength : 30 ≤ (part.localBytes ++ back).length := by
    rw [List.length_append, part.length_localBytes]
    omega
  rw [dataOffset?, List.drop_left, if_pos ⟨hmark, hlength⟩, hname, hextra,
    Nat.mod_eq_of_lt hfits.name_lt, Nat.add_zero, Nat.add_assoc]

/-- A part **is what its fields say**. -/
theorem Part.Fits.eq_part :
    (⟨PartName.ofBytes (part.flags.testBit 11) part.nameBytes, StorageMethod.ofCode part.method.code,
      UInt32.ofNat part.checksum.toNat, part.size, part.packed, part.flags.testBit 0⟩ : Part) = part := by
  obtain ⟨hutf8, hencrypted⟩ := part.testBit_flags
  rw [hutf8, hencrypted, Part.nameBytes, PartName.ofBytes_toUtf8, hfits.method_eq, UInt32.ofNat_toNat,
    ← hfits.isEncrypted_eq]

/-- An entry of the directory **is read as its part**, if this stands at its offset. -/
theorem readEntry?_directoryBytes (front back rest : Bytes) {directory : Nat}
    (hfront : (front ++ part.localBytes).length ≤ directory) (hdirectory : directory < 4294967296) :
    readEntry? (front ++ (part.localBytes ++ back)) 0 directory
      (part.directoryBytes front.length ++ rest) = some (part, rest) := by
  obtain ⟨hflags, hcode, hchecksum, hpacked, hsize, hname, hextra, hcomment, hoffset⟩ :=
    part.wordAt_directoryBytes front.length rest
  rw [List.length_append, part.length_localBytes] at hfront
  -- each number fits its field, so that it is read as it was written
  rw [Nat.mod_eq_of_lt part.flags_lt] at hflags
  rw [Nat.mod_eq_of_lt hfits.code_lt] at hcode
  rw [Nat.mod_eq_of_lt part.checksum.toNat_lt] at hchecksum
  rw [Nat.mod_eq_of_lt hfits.packed_lt] at hpacked
  rw [Nat.mod_eq_of_lt hfits.size_lt] at hsize
  rw [Nat.mod_eq_of_lt hfits.name_lt] at hname
  rw [Nat.mod_eq_of_lt (by omega)] at hoffset
  have hmark : startsWithBytes ArchiveMark.directoryEntry
      (part.directoryBytes front.length ++ rest) = true := by
    rw [part.directoryBytes_eq, List.append_assoc]
    exact startsWithBytes_append ..
  have hwidth := part.length_directoryBytes front.length
  have hlength : 46 + part.nameBytes.length ≤ (part.directoryBytes front.length ++ rest).length := by
    rw [List.length_append]
    omega
  have hstart := dataOffset?_localBytes hfits front back
  have hpart : front.length < directory := by omega
  have hreach : front.length + (30 + part.nameBytes.length) ≤ directory := by omega
  have hstored : ((front ++ (part.localBytes ++ back)).drop
      (front.length + (30 + part.nameBytes.length))).take part.packed.length = part.packed := by
    rw [List.drop_append, List.drop_of_length_le (by omega), List.nil_append, Nat.add_sub_cancel_left]
    exact part.take_drop_localBytes back
  have hrest : (part.directoryBytes front.length ++ rest).drop (46 + part.nameBytes.length) = rest :=
    List.drop_left' hwidth
  unfold readEntry?
  dsimp only
  rw [hflags, hcode, hchecksum, hpacked, hsize, hname, hextra, hcomment, hoffset]
  dsimp only [Nat.add_zero]
  rw [guard_of hmark, guard_of hlength, guard_of hpart, hstart]
  dsimp only [Option.bind_eq_bind, Option.bind_some]
  rw [guard_of hreach, part.take_drop_directoryBytes, hstored, hrest, hfits.eq_part]
  rfl

end Entries

namespace Archive

/-- A directory **is read as its parts**, if they stand one behind the other before it. -/
theorem readEntries?_directoryOf {parts : List Part} (hfits : ∀ part ∈ parts, part.Fits)
    (front back rest : Bytes) {directory : Nat}
    (hfront : (front ++ parts.flatMap Part.localBytes).length ≤ directory)
    (hdirectory : directory < 4294967296) :
    readEntries? (front ++ (parts.flatMap Part.localBytes ++ back)) 0 directory parts.length
      (directoryOf front.length parts ++ rest) = some parts := by
  induction parts generalizing front with
  | nil => rfl
  | cons part parts ih =>
    obtain ⟨hpart, hparts⟩ := List.forall_mem_cons.1 hfits
    rw [List.flatMap_cons, ← List.append_assoc] at hfront
    have hreach : (front ++ part.localBytes).length ≤ directory := by
      rw [List.length_append] at hfront
      omega
    have hentry := readEntry?_directoryBytes hpart front (parts.flatMap Part.localBytes ++ back)
      (directoryOf (front.length + part.localBytes.length) parts ++ rest) hreach hdirectory
    have hentries := ih hparts (front ++ part.localBytes) hfront
    rw [List.length_append, List.append_assoc] at hentries
    rw [List.length_cons, readEntries?, directoryOf, List.flatMap_cons, List.append_assoc,
      List.append_assoc, hentry]
    simp only [hentries, Option.pure_def, Option.bind_eq_bind, Option.bind_some]

end Archive

/-! ### Names that differ -/

/-- Parts of different names **stay as they are**. -/
theorem byName_of_nodup {parts : List Part} (h : (parts.map Part.name).Nodup) : byName parts = parts := by
  have hfold : parts.foldl (fun table p => upsert p.name p table) [] =
      [] ++ parts.map fun p => (p.name, p) := foldl_upsert_of_nodup h
  rw [byName, hfold, List.nil_append, List.map_map]
  exact List.map_id parts

/-! ### The end record -/

theorem le_of_mem_offsetsOf {needle bytes : Bytes} {offset x : Nat}
    (h : x ∈ offsetsOf needle offset bytes) : offset ≤ x := by
  induction bytes generalizing offset with
  | nil => exact absurd h List.not_mem_nil
  | cons b bytes ih =>
    rw [offsetsOf] at h
    split at h
    case isTrue =>
      rcases List.mem_cons.1 h with rfl | h
      · exact Nat.le_refl _
      · exact Nat.le_of_succ_le (ih h)
    case isFalse => exact Nat.le_of_succ_le (ih h)

/-- What stands at the head of bytes **is the first that is found** in them. -/
theorem exists_offsetsOf_append {needle : Bytes} (hne : needle ≠ []) (offset : Nat) (bytes : Bytes) :
    ∃ later, offsetsOf needle offset (needle ++ bytes) = offset :: later ∧ ∀ x ∈ later, offset < x := by
  obtain ⟨b, needle, rfl⟩ := List.exists_cons_of_ne_nil hne
  have hstarts : startsWithBytes (b :: needle) (b :: (needle ++ bytes)) = true :=
    startsWithBytes_append (b :: needle) bytes
  rw [List.cons_append, offsetsOf, if_pos hstarts]
  exact ⟨_, rfl, fun x hx => le_of_mem_offsetsOf hx⟩

theorem exists_offsetsOf_front (needle front bytes : Bytes) (offset : Nat) :
    ∃ earlier, offsetsOf needle offset (front ++ bytes) =
      earlier ++ offsetsOf needle (offset + front.length) bytes := by
  induction front generalizing offset with
  | nil => exact ⟨[], rfl⟩
  | cons b front ih =>
    obtain ⟨earlier, hearlier⟩ := ih (offset + 1)
    rw [Nat.add_assoc, Nat.add_comm 1] at hearlier
    rw [List.cons_append, offsetsOf, hearlier]
    split
    case isTrue => exact ⟨offset :: earlier, rfl⟩
    case isFalse => exact ⟨earlier, rfl⟩

/-- An offset with **no room for an end record** is passed over. -/
theorem readFromEnds_append {input : Bytes} {skipped : List Nat}
    (h : ∀ position ∈ skipped, input.length < position + 22) (fault : Option ArchiveFault)
    (positions : List Nat) :
    ∃ fault', readFromEnds input fault (skipped ++ positions) = readFromEnds input fault' positions := by
  induction skipped generalizing fault with
  | nil => exact ⟨fault, rfl⟩
  | cons position skipped ih =>
    obtain ⟨hposition, hskipped⟩ := List.forall_mem_cons.1 h
    have hcut : DirectoryEnd.ofBytes? (input.drop position) = .error .cutEnd := by
      rw [DirectoryEnd.ofBytes?, if_pos]
      rw [List.length_drop]
      omega
    obtain ⟨fault', hfault'⟩ := ih hskipped (some (fault.getD .cutEnd))
    refine ⟨fault', ?_⟩
    rw [List.cons_append, readFromEnds, hcut]
    exact hfault'

namespace Archive

variable (archive : Archive)

/-- The parts of an archive behind their local headers. -/
def front : Bytes := archive.parts.flatMap Part.localBytes

/-- The directory of an archive. -/
def directory : Bytes := directoryOf 0 archive.parts

/-- The fields of the end record. -/
def endFields : List (Nat × Nat) :=
  [(2, 0), (2, 0), (2, archive.parts.length), (2, archive.parts.length), (4, archive.directory.length),
    (4, archive.front.length), (2, 0)]

/-- The end record. -/
def endBytes : Bytes := ArchiveMark.directoryEnd ++ (fieldBytes archive.endFields ++ [])

theorem toBytes_eq : archive.toBytes = archive.front ++ (archive.directory ++ archive.endBytes) := by
  simp [toBytes, front, directory, endBytes, endFields, fieldBytes]

/-- What the end record says. -/
def ending : DirectoryEnd where
  total := archive.parts.length
  count := archive.parts.length
  offset := archive.front.length
  oneDisk := true

theorem length_endBytes : archive.endBytes.length = 22 := by
  simp [endBytes, endFields, fieldWidth]

/-- Whether an archive **fits the format**: its parts do, they have different names, and their number and
the number of all bytes find room. -/
structure Fits : Prop where
  parts : ∀ part ∈ archive.parts, part.Fits
  nodup : (archive.parts.map Part.name).Nodup
  count_lt : archive.parts.length < 65536
  length_lt : archive.toBytes.length < 4294967296

variable {archive}

/-- The end record **is read back**. -/
theorem Fits.ofBytes?_endBytes (h : archive.Fits) :
    DirectoryEnd.ofBytes? archive.endBytes = .ok archive.ending := by
  have hlength := h.length_lt
  rw [toBytes_eq, List.length_append] at hlength
  have hdisk : wordAt 4 2 archive.endBytes = 0 := wordAt_fieldBytes 0 0 (by rfl) (by rfl) _
  have hstart : wordAt 6 2 archive.endBytes = 0 := wordAt_fieldBytes 1 0 (by rfl) (by rfl) _
  have hcount : wordAt 8 2 archive.endBytes = archive.parts.length % 65536 :=
    wordAt_fieldBytes 2 _ (by rfl) (by rfl) _
  have htotal : wordAt 10 2 archive.endBytes = archive.parts.length % 65536 :=
    wordAt_fieldBytes 3 _ (by rfl) (by rfl) _
  have hoffset : wordAt 16 4 archive.endBytes = archive.front.length % 4294967296 :=
    wordAt_fieldBytes 5 _ (by rfl) (by rfl) _
  have hcomment : wordAt 20 2 archive.endBytes = 0 := wordAt_fieldBytes 6 0 (by rfl) (by rfl) _
  rw [Nat.mod_eq_of_lt h.count_lt] at hcount htotal
  rw [Nat.mod_eq_of_lt (by omega)] at hoffset
  rw [DirectoryEnd.ofBytes?, length_endBytes, hcomment, if_neg (by decide), if_neg (by decide), hdisk, hstart,
    hcount, htotal, hoffset]
  rfl

theorem exists_directory_eq (h : archive.parts.length ≠ 0) :
    ∃ rest, archive.directory = ArchiveMark.directoryEntry ++ rest := by
  obtain ⟨part, parts, hparts⟩ := List.exists_cons_of_length_pos (Nat.pos_of_ne_zero h)
  rw [directory, hparts, directoryOf, part.directoryBytes_eq, List.append_assoc]
  exact ⟨_, rfl⟩

/-- The directory **is found** where it stands. -/
theorem locateDirectory_toBytes :
    locateDirectory archive.toBytes (archive.front ++ archive.directory).length archive.ending =
      .ok (0, archive.front.length) := by
  unfold locateDirectory ending
  rw [List.length_append]
  dsimp only
  split
  case isTrue => rfl
  case isFalse hne =>
    obtain ⟨rest, hrest⟩ := exists_directory_eq hne
    have hpos : 0 < archive.directory.length := by
      rw [hrest, List.length_append]
      exact Nat.add_pos_left (by decide) _
    have hwindow : (archive.toBytes.drop archive.front.length).take
        (archive.front.length + archive.directory.length - archive.front.length) = archive.directory := by
      rw [toBytes_eq, List.drop_left, Nat.add_sub_cancel_left, List.take_left]
    obtain ⟨later, hfirst, -⟩ :=
      exists_offsetsOf_append (show ArchiveMark.directoryEntry ≠ [] by decide) archive.front.length rest
    rw [if_neg (by omega), hwindow, hrest, hfirst]
    dsimp only
    rw [Nat.sub_self]

/-- The entries of the directory **are read as the parts** of the archive. -/
theorem Fits.readEntries?_toBytes (h : archive.Fits) :
    readEntries? archive.toBytes 0 archive.front.length archive.parts.length
      (archive.toBytes.drop archive.front.length) = some archive.parts := by
  have hlength := h.length_lt
  rw [toBytes_eq, List.length_append] at hlength
  rw [toBytes_eq, List.drop_left]
  exact readEntries?_directoryOf h.parts [] (archive.directory ++ archive.endBytes) archive.endBytes
    (Nat.le_refl _) (by omega)

/-- An archive that fits the format **is read back** from its bytes. -/
theorem ofBytes?_toBytes (h : archive.Fits) : ofBytes? archive.toBytes = .ok archive := by
  have hbytes : archive.toBytes = (archive.front ++ archive.directory) ++ archive.endBytes := by
    rw [toBytes_eq, List.append_assoc]
  obtain ⟨earlier, hearlier⟩ :=
    exists_offsetsOf_front ArchiveMark.directoryEnd (archive.front ++ archive.directory) archive.endBytes 0
  obtain ⟨later, hfound, hlater⟩ :=
    exists_offsetsOf_append (show ArchiveMark.directoryEnd ≠ [] by decide)
      (0 + (archive.front ++ archive.directory).length) (fieldBytes archive.endFields ++ [])
  -- behind the end record there is no room for another, so that what looks like its mark is passed over
  have hskipped : ∀ position ∈ later.reverse, archive.toBytes.length < position + 22 := by
    intro position hposition
    have := hlater position (List.mem_reverse.1 hposition)
    rw [hbytes, List.length_append, length_endBytes]
    omega
  have hends : (offsetsOf ArchiveMark.directoryEnd 0 archive.toBytes).reverse =
      later.reverse ++ (archive.front ++ archive.directory).length :: earlier.reverse := by
    rw [hbytes, hearlier, endBytes, hfound, Nat.zero_add]
    simp
  obtain ⟨fault, hfault⟩ := readFromEnds_append hskipped none
    ((archive.front ++ archive.directory).length :: earlier.reverse)
  have hending : DirectoryEnd.ofBytes?
      (archive.toBytes.drop (archive.front ++ archive.directory).length) = .ok archive.ending := by
    rw [hbytes, List.drop_left]
    exact h.ofBytes?_endBytes
  rw [ofBytes?, hends, hfault, readFromEnds, hending]
  simp only [locateDirectory_toBytes]
  simp only [ending, if_true, h.readEntries?_toBytes, byName_of_nodup h.nodup]

end Archive

end MailMerge
