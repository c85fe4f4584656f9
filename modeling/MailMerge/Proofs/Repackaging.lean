import MailMerge.Proofs.Merging
import MailMerge.Proofs.Tables
import MailMerge.Proofs.WrittenArchive

/-!
# Repackaging changes one part only

The parts of an archive that was read have different names, because a part replaces an earlier one of
its name. So there is one main part, and repackaging leaves what stands before and behind it as it is.
The part that lists the relationships is among these unless it is the main part itself, so the archive
opens again with the same main part, and the original text brings back what the parts held.

* `Archive.nodup_names` — the parts of an archive that was read have different names;
* `Package.Layout` is a package with its parts cut around the main part;
* `Package.Layout.repackage` — repackaging replaces the part in the middle;
* `repackaging_changes_one_part` — it changes nothing else, and can be opened and undone.
-/

namespace MailMerge

/-! ### Names of parts -/

/-- A table whose entries stand **under the names** of their parts, each under another. -/
structure IndexesParts (table : List (Text × Part)) : Prop where
  nodup : (table.map Prod.fst).Nodup
  name_eq : ∀ entry ∈ table, entry.2.name = entry.1

theorem indexesParts_foldl_upsert (parts : List Part) :
    IndexesParts (parts.foldl (fun table p => upsert p.name p table) []) where
  nodup := nodup_names_foldl_upsert parts Part.name id List.nodup_nil
  name_eq := forall_foldl_upsert (fun _ h => nomatch h) fun _ _ => rfl

theorem nodup_names_byName (parts : List Part) : ((byName parts).map Part.name).Nodup := by
  have h := indexesParts_foldl_upsert parts
  -- the names of the parts are the names under which they stand
  have hnames := List.map_congr_left h.name_eq
  rw [byName, List.map_map]
  exact hnames ▸ h.nodup

/-- The parts of an archive that was read **have different names**. -/
theorem Archive.nodup_names {bytes : Bytes} {archive : Archive}
    (h : Archive.ofBytes? bytes = .ok archive) : (archive.parts.map Part.name).Nodup := by
  unfold Archive.ofBytes? at h
  generalize (offsetsOf ArchiveMark.directoryEnd 0 bytes).reverse = positions at h
  generalize none = fault at h
  -- whichever end record counts, the parts that it leads to go by name
  fun_induction readFromEnds bytes fault positions <;> try contradiction
  case case4 parts _ =>
    cases h
    exact nodup_names_byName parts
  all_goals rename_i ih; exact ih h

/-! ### What parts hold -/

namespace Part

/-- A part **decoded**: its name, its method and what it holds, if this can be told. -/
def decoded (part : Part) : Text × StorageMethod × Except ContentFault Bytes :=
  (part.name, part.method, part.content)

/-- A part that holds a text **holds the bytes of it**. -/
theorem content_of_text {part : Part} {t : Text} (h : part.text = .ok t) :
    part.content = .ok t.toUtf8 := by
  obtain ⟨bytes, hcontent, h⟩ := bind_eq_ok_iff.1 h
  split at h
  case h_1 ht =>
    cases h
    rw [hcontent, Text.toUtf8_of_ofUtf8? ht]
  case h_2 => cases h

/-- A part that is stored anew with its own text **decodes to the same**. -/
theorem decoded_ofContent {part : Part} {t : Text} (h : part.text = .ok t) :
    (ofContent part.name part.method t.toUtf8).decoded = part.decoded := by
  unfold decoded
  rw [content_ofContent, content_of_text h]
  rfl

end Part

/-! ### The parts around the main part -/

/-- A package **laid out**: its main part, with the parts before and behind it, none of which has its
name. -/
structure Package.Layout (p : Package) where
  /-- The parts before the main part. -/
  front : List Part
  /-- The main part. -/
  main : Part
  /-- The parts behind the main part. -/
  back : List Part
  parts_eq : p.archive.parts = front ++ main :: back
  name_eq : main.name = p.mainName
  others : ∀ other ∈ front ++ back, other.name ≠ p.mainName
  isOpen : main.isOpen = true
  text_eq : main.text = .ok p.mainText

namespace Package

/-- A package that opened **can be laid out**. -/
theorem exists_layout {bytes : Bytes} {p : Package} (h : ofBytes? bytes = .ok p) :
    Nonempty p.Layout := by
  obtain ⟨archive, harchive, hopen⟩ := ofBytes?_eq_ok_iff.1 h
  obtain ⟨rfl, -, part, hpart, htext⟩ := ofArchive?_eq_ok_iff.1 hopen
  obtain ⟨hfind, hisOpen⟩ := Option.filter_eq_some_iff.1 hpart
  obtain ⟨hname, front, back, hparts, hfront⟩ := List.find?_eq_some_iff_append.1 hfind
  replace hname : part.name = p.mainName := by simpa using hname
  -- the parts before the first of the name have another, and those behind it as names are different
  have hnodup := Archive.nodup_names harchive
  rw [hparts, List.map_append, List.map_cons] at hnodup
  have hback := (List.nodup_cons.1 (List.nodup_append.1 hnodup).2.1).1
  refine ⟨⟨front, part, back, hparts, hname, fun other hother => ?_, hisOpen, htext⟩⟩
  rcases List.mem_append.1 hother with hother | hother
  · simpa using hfront other hother
  · rintro heq
    exact hback (List.mem_map.2 ⟨other, hother, heq.trans hname.symm⟩)

namespace Layout

variable {p : Package} (l : p.Layout)

/-- Mapping the parts of the name of the main part leaves the others as they are. -/
theorem map_others {others : List Part} (h : others ⊆ l.front ++ l.back) (f : Part → Part) :
    (others.map fun other => if other.name = p.mainName then f other else other) = others := by
  conv => rhs; rw [← List.map_id others]
  exact List.map_congr_left fun other hother => if_neg (l.others other (h hother))

/-- **Repackaging replaces the part in the middle**, by one of its name and its method. -/
theorem repackage (text : Text) :
    (p.repackage text).parts =
      l.front ++ Part.ofContent l.main.name l.main.method text.toUtf8 :: l.back := by
  unfold Package.repackage Archive.mapPart
  dsimp only
  rw [l.parts_eq, List.map_append, List.map_cons, if_pos l.name_eq,
    l.map_others (List.subset_append_left ..), l.map_others (List.subset_append_right ..)]

/-- The package that a repackaged archive is, **laid out**: its main part stands where it stood. -/
def repackaged (text : Text) : Layout ⟨p.repackage text, p.mainName, text⟩ where
  front := l.front
  main := Part.ofContent l.main.name l.main.method text.toUtf8
  back := l.back
  parts_eq := l.repackage text
  name_eq := l.name_eq
  others := l.others
  isOpen := by
    have h := l.isOpen
    unfold Part.isOpen at h ⊢
    cases hmethod : l.main.method <;> simp_all [Part.ofContent]
  text_eq := Part.text_ofContent ..

/-- A package that is laid out **finds its main part** under its name. -/
theorem part?_mainName : p.archive.part? p.mainName = some l.main := by
  have hfront : ∀ other ∈ l.front, other.name ≠ p.mainName :=
    fun other h => l.others other (List.mem_append_left _ h)
  have hfind : p.archive.parts.find? (·.name = p.mainName) = some l.main := by
    refine List.find?_eq_some_iff_append.2 ⟨by simpa using l.name_eq, _, _, l.parts_eq, ?_⟩
    simpa using hfront
  rw [Archive.part?, hfind, Option.filter_some, if_pos l.isOpen]

include l in
/-- Every part of another name **is found as before** in a repackaged archive. -/
theorem part?_repackage_of_ne {name : Text} (hne : name ≠ p.mainName) (text : Text) :
    (p.repackage text).part? name = p.archive.part? name := by
  have hold : l.main.name ≠ name := fun h => hne (h.symm.trans l.name_eq)
  have hnew : (Part.ofContent l.main.name l.main.method text.toUtf8).name ≠ name := hold
  rw [Archive.part?, Archive.part?, l.repackage, l.parts_eq]
  simp [hold, hnew]

include l in
/-- A repackaged archive **opens as the package with the other text**, unless the main part is the one
that names it. -/
theorem ofArchive?_repackage (hname : Package.mainName? p.archive = .ok p.mainName)
    (hne : p.mainName ≠ relationshipsPart) (text : Text) :
    Package.ofArchive? (p.repackage text) = .ok ⟨p.repackage text, p.mainName, text⟩ := by
  refine Package.ofArchive?_eq_ok_iff.2 ⟨rfl, ?_, _, (l.repackaged text).part?_mainName, ?_⟩
  · rw [Package.mainName?, l.part?_repackage_of_ne hne.symm]
    exact hname
  · exact (l.repackaged text).text_eq

include l in
/-- Repackaging a repackaged archive with the original text **gives back** what the parts held. -/
theorem decoded_repackage_repackage (text : Text) :
    (Package.repackage ⟨p.repackage text, p.mainName, text⟩ p.mainText).parts.map Part.decoded =
      p.archive.parts.map Part.decoded := by
  rw [(l.repackaged text).repackage, l.parts_eq, List.map_append, List.map_append, List.map_cons,
    List.map_cons]
  -- the parts around the main part are the original ones
  exact congrArg (fun main => l.front.map Part.decoded ++ main :: l.back.map Part.decoded)
    (Part.decoded_ofContent l.text_eq)

end Layout

end Package

/-! ### Repackaging -/

/-- **Repackaging changes one part only**, if the main part is not the one that lists the
relationships: the part keeps its name, its place and its method, and holds the text that was put into
the package. The archive opens again with the same main part, the same number of parts and the text,
also from its bytes if these are read back as the archive that was written (as they are if it fits the
format), and repackaging it with the original text gives back what the parts held. -/
theorem repackaging_changes_one_part {bytes : Bytes} {p : Package}
    (hopen : Package.ofBytes? bytes = .ok p) (hne : p.mainName ≠ relationshipsPart) (text : Text) :
    (∃ front main back main',
      p.archive.parts = front ++ main :: back ∧
      (p.repackage text).parts = front ++ main' :: back ∧
      (∀ other ∈ front ++ back, other.name ≠ p.mainName) ∧
      main.name = p.mainName ∧ main'.name = main.name ∧ main'.method = main.method ∧
      main'.text = .ok text) ∧
    ∃ reopened, Package.ofArchive? (p.repackage text) = .ok reopened ∧
      (Archive.ofBytes? (p.repackage text).toBytes = .ok (p.repackage text) →
        Package.ofBytes? (p.repackage text).toBytes = .ok reopened) ∧
      reopened.mainName = p.mainName ∧ reopened.mainText = text ∧ reopened.size = p.size ∧
      (reopened.repackage p.mainText).parts.map Part.decoded =
        p.archive.parts.map Part.decoded := by
  obtain ⟨archive, -, hopened⟩ := Package.ofBytes?_eq_ok_iff.1 hopen
  obtain ⟨rfl, hname, -⟩ := Package.ofArchive?_eq_ok_iff.1 hopened
  obtain ⟨l⟩ := Package.exists_layout hopen
  have hreopen := l.ofArchive?_repackage hname hne text
  refine ⟨⟨l.front, l.main, l.back, _, l.parts_eq, l.repackage text, l.others, l.name_eq, rfl, rfl,
    Part.text_ofContent ..⟩, _, hreopen, fun hread => ?_, rfl, rfl, ?_, l.decoded_repackage_repackage text⟩
  · exact Package.ofBytes?_eq_ok_iff.2 ⟨_, hread, hreopen⟩
  · simp only [Package.size, l.repackage, l.parts_eq, List.length_append, List.length_cons]

/-- The package of a directory, relationships that name an unusual main part, this part, and another
one behind it. -/
def relatedPackage : Package where
  archive := ⟨[.directory "story/",
    .ofContent relationshipsPart .stored
      (Text.toUtf8 "<Relationship Type=\"/officeDocument\" Target=\"/story/main.xml\"/>"),
    .ofContent "story/main.xml" .stored (Text.toUtf8 "<a/>"),
    .ofContent "story/style.xml" .stored (Text.toUtf8 "<s/>")]⟩
  mainName := "story/main.xml"
  mainText := "<a/>"

set_option maxRecDepth 10000 in
/-- A main part that only the relationships name **is found again** in the repackaged archive. -/
theorem repackaging_relatedPackage :
    Package.ofBytes? relatedPackage.archive.toBytes = .ok relatedPackage ∧
      relatedPackage.mainName ≠ relationshipsPart ∧
      ∃ reopened, Package.ofBytes? (relatedPackage.repackage "<b/>").toBytes = .ok reopened ∧
        reopened.mainName = "story/main.xml" ∧ reopened.mainText = "<b/>" ∧ reopened.size = 4 ∧
        (reopened.repackage "<a/>").parts.map Part.decoded =
          relatedPackage.archive.parts.map Part.decoded := by
  have hopen : Package.ofBytes? relatedPackage.archive.toBytes = .ok relatedPackage :=
    eq_ok_of_toOption (by decide +kernel)
  have hne : relatedPackage.mainName ≠ relationshipsPart := by decide
  obtain ⟨-, reopened, -, hread, hname, htext, hsize, hdecoded⟩ :=
    repackaging_changes_one_part hopen hne "<b/>"
  have hfits : (relatedPackage.repackage "<b/>").Fits :=
    ⟨by decide +kernel, by decide +kernel, by decide +kernel, by decide +kernel⟩
  have hbytes := hread (Archive.ofBytes?_toBytes hfits)
  exact ⟨hopen, hne, reopened, hbytes, hname, htext, hsize, hdecoded⟩

end MailMerge
