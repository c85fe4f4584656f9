import MailMerge.Proofs.FailedWriting
import MailMerge.Proofs.PathNames
import MailMerge.Proofs.StoredGate

/-!
# Completed writing

Documents with names of their own do not get in each other's way: below one directory neither two of them,
nor two hidden names, nor a name and a hidden name lead to the same place, whatever stood there before. So
each file that was written under its hidden name is still there when it is moved, and each that was moved
still holds its content in the end. All other places are as before, but for directories that have been made
on the way to the directory of the documents. The files know no links, so that different places are different
files.

* `FileSystem.ChangedAt.read_eq_ok_iff` — what is apart from all changes is read as before;
* `FileSystem.read_rename` and `FileSystem.hasEntry_rename` — a file that is moved is read at its new path
  and is gone from the old one;
* `FileSystem.MadeDirectory` says that a directory was made on the way to a path, and
  `FileSystem.madeDirectory_createDirectories` that nothing else was;
* `of_mayEnd_stageAll_ok` and `of_mayEnd_publishAll_ok` — what there is after each of the two phases;
* `OwnNames` says that documents have names of their own, and `OwnNames.pairwise_apart` that their paths are
  apart then;
* `writeDocuments_complete` — when writing succeeds, each document is at its path and nothing else has
  changed.
-/

namespace MailMerge

namespace FileSystem

variable {fs fs' : FileSystem} {path : Text} {content : Bytes}

/-! ### Reading -/

theorem read_eq_ok_iff :
    fs.read path = .ok content ↔
      ∃ place, fs.place? path = .ok place ∧ fs.node? place = some (.file content) := by
  constructor
  · intro h
    unfold read at h
    cases hplace : fs.place? path with
    | error fault =>
      rw [hplace] at h
      cases h
    | ok place =>
      rw [hplace] at h
      simp only [bind, Except.bind] at h
      split at h
      case h_1 found hnode =>
        cases h
        exact ⟨place, rfl, hnode⟩
      case h_2 => cases h
      case h_3 => cases h
  · rintro ⟨place, hplace, hnode⟩
    exact read_of_node? hplace hnode

theorem hasEntry_eq_false_iff :
    fs.hasEntry path = false ↔ ∀ place, fs.place? path = .ok place → fs.node? place = none := by
  unfold hasEntry
  cases fs.place? path with
  | error fault =>
    refine iff_of_true rfl fun place hplace => ?_
    cases hplace
  | ok place =>
    show (fs.node? place).isSome = false ↔ _
    rw [Option.isSome_eq_false_iff, Option.isNone_iff_eq_none]
    constructor
    · intro hnone other hother
      rw [← Except.ok.inj hother, hnone]
    · intro h
      exact h place rfl

namespace ChangedAt

variable {paths : List Text}

/-- Nothing has changed at a path that is **apart from all changes**. -/
theorem node?_eq (h : fs.ChangedAt paths fs') (hapart : ∀ other ∈ paths, Path.Apart path other)
    {place : Place} (hplace : fs.place? path = .ok place) : fs'.node? place = fs.node? place := by
  refine h.others place ?_
  rintro ⟨other, hother, hleads⟩
  exact hapart other hother fs place hplace hleads

theorem read_eq_ok_iff (h : fs.ChangedAt paths fs') (hapart : ∀ other ∈ paths, Path.Apart path other) :
    fs'.read path = .ok content ↔ fs.read path = .ok content := by
  rw [FileSystem.read_eq_ok_iff, FileSystem.read_eq_ok_iff]
  refine exists_congr fun place => ?_
  rw [place?_eq_ok_iff h.toSameDirectories]
  exact and_congr_right fun hplace => by rw [h.node?_eq hapart hplace]

theorem hasEntry_eq_false_iff (h : fs.ChangedAt paths fs')
    (hapart : ∀ other ∈ paths, Path.Apart path other) :
    fs'.hasEntry path = false ↔ fs.hasEntry path = false := by
  rw [FileSystem.hasEntry_eq_false_iff, FileSystem.hasEntry_eq_false_iff]
  refine forall_congr' fun place => ?_
  rw [place?_eq_ok_iff h.toSameDirectories]
  exact imp_congr_right fun hplace => by rw [h.node?_eq hapart hplace]

end ChangedAt

/-! ### Moving -/

/-- A file that is moved is read **at its new path**. -/
theorem read_rename {old new : Text} (h : fs.rename old new = .ok fs') (hread : fs.read old = .ok content) :
    fs'.read new = .ok content := by
  have hsame := (ChangedAt.rename h).toSameDirectories
  obtain ⟨source, target, moved, hsource, htarget, hnode, hdirectory, rfl⟩ := rename_eq_ok h
  obtain ⟨place, hplace, hcontent⟩ := read_eq_ok_iff.1 hread
  obtain rfl := Except.ok.inj (hsource.symm.trans hplace)
  obtain rfl : moved = content := by
    rw [hnode] at hcontent
    cases hcontent
    rfl
  refine read_eq_ok_iff.2 ⟨target, (place?_eq_ok_iff hsame).2 htarget, ?_⟩
  -- A file may be moved onto itself, which leaves it where it was.
  by_cases hstay : source = target
  · rw [if_pos hstay, ← hstay, hnode]
  · have hroot : target ≠ [] := by
      rintro rfl
      exact hdirectory rfl
    rw [if_neg hstay, node?_put hroot]

/-- A file that is moved **is gone from its old path**. -/
theorem hasEntry_rename {old new : Text} (h : fs.rename old new = .ok fs') (hapart : Path.Apart old new) :
    fs'.hasEntry old = false := by
  refine hasEntry_eq_false_iff.2 fun place hplace => ?_
  have hold : fs.place? old = .ok place := (place?_eq_ok_iff (ChangedAt.rename h).toSameDirectories).1 hplace
  refine node?_of_rename h (leadsTo_singleton.2 hold) fun hnew => ?_
  exact hapart fs place hold (leadsTo_singleton.1 hnew)

/-! ### Made directories -/

/-- The place to which names lead from another one, **wherever there are directories**. -/
def along (place : Place) : List Text → Place
  | [] => place
  | name :: names =>
    if isIdle name then along place names
    else if isUp name then along place.dropLast names
    else along (place ++ [name]) names

/-- Whether a directory **has been made** at a place on the way along names. -/
structure MadeAlong (fs : FileSystem) (start : Place) (names : List Text) (fs' : FileSystem) (place : Place) :
    Prop where
  absent : fs.node? place = none
  made : fs'.node? place = some .directory
  onTheWay : ∃ front, front <+: names ∧ place = along start front

/-- Whether a directory **has been made** at a place on the way to a path. -/
def MadeDirectory (fs : FileSystem) (path : Text) (fs' : FileSystem) (place : Place) : Prop :=
  fs.MadeAlong (fs.origin path) (Path.names path) fs' place

theorem MadeAlong.cons {start next : Place} {name : Text} {names : List Text} {place : Place}
    (h : fs.MadeAlong next names fs' place) (hstep : ∀ front, along start (name :: front) = along next front) :
    fs.MadeAlong start (name :: names) fs' place := by
  obtain ⟨habsent, hmade, front, hfront, rfl⟩ := h
  exact ⟨habsent, hmade, name :: front, (List.prefix_cons_inj name).2 hfront, (hstep front).symm⟩

/-- **Making directories** along names makes nothing else. -/
theorem madeAlong_createAlong (fs : FileSystem) (start : Place) (names : List Text) (place : Place) :
    (fs.createAlong start names).2.node? place = fs.node? place ∨
      fs.MadeAlong start names (fs.createAlong start names).2 place := by
  -- by the recursion of the making: only where a name is missing a directory is put
  fun_induction createAlong fs start names with
  | case1 => exact .inl rfl
  | case2 fs start name names hidle ih =>
    exact ih.imp_right fun h => h.cons fun front => by rw [along, if_pos hidle]
  | case3 fs start name names hidle hup ih =>
    exact ih.imp_right fun h => h.cons fun front => by rw [along, if_neg hidle, if_pos hup]
  | case4 => exact .inl rfl
  | case5 fs start name names hidle hup _ next _ ih =>
    exact ih.imp_right fun h => h.cons fun front => by rw [along, if_neg hidle, if_neg hup]
  | case6 => exact .inl rfl
  | case7 fs start name names hidle hup _ next hnone ih =>
    have hroot : next ≠ [] := List.append_ne_nil_of_right_ne_nil _ (List.cons_ne_nil _ _)
    have hstep (front : List Text) : along start (name :: front) = along next front := by
      rw [along, if_neg hidle, if_neg hup]
    rcases ih with hsame | ⟨habsent, hmade, honTheWay⟩
    · by_cases hplace : place = next
      · -- this is the directory that is made here
        subst hplace
        rw [node?_put hroot] at hsame
        exact .inr ⟨hnone, hsame, [name], ⟨names, rfl⟩, by rw [hstep, along]⟩
      · rw [node?_put_of_ne hplace] at hsame
        exact .inl hsame
    · have hplace : place ≠ next := by
        rintro rfl
        rw [node?_put hroot] at habsent
        cases habsent
      rw [node?_put_of_ne hplace] at habsent
      exact .inr (MadeAlong.cons ⟨habsent, hmade, honTheWay⟩ hstep)

theorem madeDirectory_createDirectories (fs : FileSystem) (path : Text) (place : Place) :
    (fs.createDirectories path).2.node? place = fs.node? place ∨
      fs.MadeDirectory path (fs.createDirectories path).2 place := by
  unfold createDirectories
  split
  case isTrue => exact .inl rfl
  case isFalse =>
    split
    case h_1 => exact .inl rfl
    case h_2 => exact fs.madeAlong_createAlong _ _ place

end FileSystem

/-! ### The two phases -/

variable {fs fs' : FileSystem}

/-- Running a procedure in a world is **one way for it to end**. -/
theorem Procedure.mayEnd_of_runIn {α : Type} {procedure : Procedure α} {r : Except MergeError α} {w w' : World}
    (h : procedure.runIn w = (r, w')) : procedure.MayEnd w.files r w'.files := by
  have hends : procedure.MayEnd w.files (procedure.runIn w).1 (procedure.runIn w).2.files :=
    Action.mayEnd_run procedure.run w
  rwa [h] at hends

theorem write_of_mayEnd {path : Text} {content : Bytes} {u : Unit}
    (h : (Action.writeFile path content).MayEnd fs (.ok u) fs') : fs.write path content = .ok fs' := by
  cases Action.of_mayEnd_of h with
  | written hwrite => exact hwrite
  | asked hasks => cases hasks

/-- When **staging** succeeds, each file is read at its hidden path, and nothing else has changed. -/
theorem of_mayEnd_stageAll_ok {written : List Text} {files : List StagedFile} {u : Unit}
    (hapart : (files.map StagedFile.hidden).Pairwise Path.Apart)
    (h : (stageAll written files).MayEnd fs (.ok u) fs') :
    fs.ChangedAt (files.map StagedFile.hidden) fs' ∧
      ∀ file ∈ files, fs'.read file.hidden = .ok file.content := by
  induction files generalizing fs written with
  | nil =>
    obtain ⟨-, rfl⟩ := Procedure.of_mayEnd_pure h
    exact ⟨.refl _ _, List.forall_mem_nil _⟩
  | cons file files ih =>
    obtain ⟨hfile, hfiles⟩ := List.pairwise_cons.1 hapart
    obtain ⟨reply, fs₁, hwrite, hrest⟩ := Procedure.of_mayEnd_ofAction_bind h
    cases reply with
    | ok u =>
      obtain ⟨hchanged, hread⟩ := ih hfiles hrest
      have hwritten : fs₁.read file.hidden = .ok file.content := FileSystem.read_write (write_of_mayEnd hwrite)
      refine ⟨(changedAt_writeFile hwrite).trans hchanged, List.forall_mem_cons.2 ⟨?_, hread⟩⟩
      -- the files behind it are written elsewhere
      exact (hchanged.read_eq_ok_iff hfile).2 hwritten
    | error fault =>
      obtain ⟨_, _, -, hthrow⟩ := Procedure.of_mayEnd_ofAction_bind hrest
      exact nomatch (Procedure.of_mayEnd_throw hthrow).1

/-- The two **paths of a file** on its way. -/
def StagedFile.paths (file : StagedFile) : List Text := [file.hidden, file.target]

/-- When **publishing** succeeds, each file is read at its path and is gone from its hidden one, and nothing
else has changed. -/
theorem of_mayEnd_publishAll_ok {moved : List Text} {files : List StagedFile} {u : Unit}
    (hapart : (files.flatMap StagedFile.paths).Pairwise Path.Apart)
    (hstaged : ∀ file ∈ files, fs.read file.hidden = .ok file.content)
    (h : (publishAll moved files).MayEnd fs (.ok u) fs') :
    fs.ChangedAt (files.flatMap StagedFile.paths) fs' ∧
      ∀ file ∈ files, fs'.read file.target = .ok file.content ∧ fs'.hasEntry file.hidden = false := by
  induction files generalizing fs moved with
  | nil =>
    obtain ⟨-, rfl⟩ := Procedure.of_mayEnd_pure h
    exact ⟨.refl _ _, List.forall_mem_nil _⟩
  | cons file files ih =>
    obtain ⟨hhidden, htarget, hfiles⟩ : (∀ path ∈ file.target :: files.flatMap StagedFile.paths,
        Path.Apart file.hidden path) ∧ (∀ path ∈ files.flatMap StagedFile.paths,
        Path.Apart file.target path) ∧ (files.flatMap StagedFile.paths).Pairwise Path.Apart := by
      simpa only [List.flatMap_cons, StagedFile.paths, List.cons_append, List.nil_append,
        List.pairwise_cons] using hapart
    obtain ⟨hself, hothers⟩ := List.forall_mem_cons.1 hhidden
    obtain ⟨hread, hreads⟩ := List.forall_mem_cons.1 hstaged
    obtain ⟨reply, fs₁, hmove, hrest⟩ := Procedure.of_mayEnd_ofAction_bind h
    cases reply with
    | ok u =>
      have hrename := rename_of_mayEnd hmove
      have hmoved := FileSystem.ChangedAt.rename hrename
      -- the files behind it are still under their hidden names
      have hreads₁ : ∀ other ∈ files, fs₁.read other.hidden = .ok other.content := by
        intro other hother
        have hpath : other.hidden ∈ files.flatMap StagedFile.paths :=
          List.mem_flatMap.2 ⟨other, hother, List.mem_cons_self ..⟩
        refine (hmoved.read_eq_ok_iff ?_).2 (hreads other hother)
        exact List.forall_mem_cons.2 ⟨(hothers _ hpath).symm,
          List.forall_mem_singleton.2 (htarget _ hpath).symm⟩
      obtain ⟨hchanged, hdone⟩ := ih hfiles hreads₁ hrest
      refine ⟨hmoved.trans hchanged, List.forall_mem_cons.2 ⟨⟨?_, ?_⟩, hdone⟩⟩
      · exact (hchanged.read_eq_ok_iff htarget).2 (FileSystem.read_rename hrename hread)
      · exact (hchanged.hasEntry_eq_false_iff hothers).2 (FileSystem.hasEntry_rename hrename hself)
    | error fault =>
      obtain ⟨_, _, -, hrest⟩ := Procedure.of_mayEnd_ofAction_bind hrest
      obtain ⟨_, _, -, hthrow⟩ := Procedure.of_mayEnd_ofAction_bind hrest
      exact nomatch (Procedure.of_mayEnd_throw hthrow).1

/-! ### Writing documents -/

/-- The name under which a file is **hidden**. -/
def hiddenName (name : Text) : Text := "." ++ name ++ ".tmp"

theorem hiddenName_injective : Function.Injective hiddenName := by
  intro name other h
  exact List.append_cancel_left (List.append_cancel_right h)

theorem hiddenName_ne {name : Text} (h : ∀ c ∈ name.head?, c ≠ '.') (other : Text) :
    hiddenName other ≠ name := by
  rintro rfl
  exact h '.' rfl rfl

/-- Whether documents have **names of their own**: single names, different from each other, and not
hidden. -/
structure OwnNames (files : List OutputFile) : Prop where
  nodup : (files.map OutputFile.name).Nodup
  single : ∀ file ∈ files, Path.IsComponent file.name
  visible : ∀ file ∈ files, ∀ c ∈ file.name.head?, c ≠ '.'

theorem OwnNames.tail {file : OutputFile} {files : List OutputFile} (h : OwnNames (file :: files)) :
    OwnNames files where
  nodup := (List.nodup_cons.1 h.nodup).2
  single other hother := h.single other (List.mem_cons_of_mem _ hother)
  visible other hother := h.visible other (List.mem_cons_of_mem _ hother)

/-- Each path is that of **a document's name**, or of its name hidden. -/
theorem mem_paths {directory path : Text} {files : List OutputFile}
    (h : path ∈ (files.map (StagedFile.of directory)).flatMap StagedFile.paths) :
    ∃ file ∈ files, path = Path.join directory (hiddenName file.name) ∨
      path = Path.join directory file.name := by
  obtain ⟨staged, hstaged, hpath⟩ := List.mem_flatMap.1 h
  obtain ⟨file, hfile, rfl⟩ := List.mem_map.1 hstaged
  exact ⟨file, hfile, by simpa [StagedFile.paths, StagedFile.of, hiddenName] using hpath⟩

/-- The paths of documents with names of their own **are apart**. -/
theorem OwnNames.pairwise_apart {files : List OutputFile} (h : OwnNames files) (directory : Text) :
    ((files.map (StagedFile.of directory)).flatMap StagedFile.paths).Pairwise Path.Apart := by
  induction files with
  | nil => exact .nil
  | cons file files ih =>
    obtain ⟨hsingle, hsingles⟩ := List.forall_mem_cons.1 h.single
    obtain ⟨hvisible, hvisibles⟩ := List.forall_mem_cons.1 h.visible
    have hnew : ∀ other ∈ files, file.name ≠ other.name := fun other hother heq =>
      (List.nodup_cons.1 h.nodup).1 (heq ▸ List.mem_map_of_mem hother)
    show (Path.join directory (hiddenName file.name) :: Path.join directory file.name ::
      (files.map (StagedFile.of directory)).flatMap StagedFile.paths).Pairwise Path.Apart
    -- Each document brings two paths, so four pairs of a new path and an old one have to be apart.
    refine .cons ?_ (.cons ?_ (ih h.tail))
    · refine List.forall_mem_cons.2 ⟨?_, fun path hpath => ?_⟩
      · exact Path.apart_join hsingle.hidden hsingle (hiddenName_ne hvisible _) directory
      · obtain ⟨other, hother, rfl | rfl⟩ := mem_paths hpath
        · exact Path.apart_join hsingle.hidden (hsingles other hother).hidden
            (hiddenName_injective.ne (hnew other hother)) directory
        · exact Path.apart_join hsingle.hidden (hsingles other hother)
            (hiddenName_ne (hvisibles other hother) _) directory
    · intro path hpath
      obtain ⟨other, hother, rfl | rfl⟩ := mem_paths hpath
      · exact Path.apart_join hsingle (hsingles other hother).hidden
          (hiddenName_ne hvisible _).symm directory
      · exact Path.apart_join hsingle (hsingles other hother) (hnew other hother) directory

/-- The hidden paths are **among all paths**. -/
theorem hidden_sublist_paths (files : List StagedFile) :
    (files.map StagedFile.hidden).Sublist (files.flatMap StagedFile.paths) := by
  induction files with
  | nil => exact .slnil
  | cons file files ih => exact .cons_cons _ (.cons _ ih)

/-- When writing **succeeds**, the directory has been made, and both phases have come to their end. -/
theorem of_runIn_writeDocuments_ok {directory : Text} {files : List OutputFile} {paths : List Text}
    {w w' : World} (h : (writeDocuments directory files).runIn w = (.ok paths, w')) :
    ∃ middle, (stageAll [] (files.map (StagedFile.of directory))).MayEnd
        (w.files.createDirectories directory).2 (.ok ()) middle ∧
      (publishAll [] (files.map (StagedFile.of directory))).MayEnd middle (.ok ()) w'.files ∧
      paths = files.map fun file => Path.join directory file.name := by
  -- A fault in any of the three parts would have been the outcome of the whole.
  rcases Procedure.of_runIn_bind h with ⟨reply, made, hmake, hrest⟩ | ⟨e, -, he⟩
  · rw [Procedure.runIn_ofAction] at hmake
    obtain ⟨hreply, rfl⟩ := Prod.mk.inj hmake
    cases reply with
    | error fault =>
      rcases Procedure.of_runIn_bind hrest with ⟨u, _, hthrow, -⟩ | ⟨e, -, he⟩
      · cases hthrow
      · cases he
    | ok u =>
      have hends := Procedure.mayEnd_of_runIn hrest
      rcases Procedure.of_mayEnd_bind hends with ⟨u, middle, hstage, hends⟩ | ⟨e, -, he⟩
      · rcases Procedure.of_mayEnd_bind hends with ⟨u', last, hpublish, hends⟩ | ⟨e, -, he⟩
        · obtain ⟨hpaths, rfl⟩ := Procedure.of_mayEnd_pure hends
          refine ⟨middle, hstage, hpublish, ?_⟩
          rw [Except.ok.inj hpaths, List.map_map]
          rfl
        · cases he
      · cases he
  · cases he

/-- **Successful writing** gives the paths of the documents. Each holds its document then, none of the hidden
names is left, and everything else is as before, but for directories that were made on the way to the
directory of the documents. -/
theorem writeDocuments_complete {directory : Text} {files : List OutputFile} {paths : List Text} {w w' : World}
    (hnames : OwnNames files) (h : (writeDocuments directory files).runIn w = (.ok paths, w')) :
    paths = (files.map fun file => Path.join directory file.name) ∧
      (∀ file ∈ files, w'.files.read (Path.join directory file.name) = .ok file.content ∧
        w'.files.hasEntry (Path.join directory (hiddenName file.name)) = false) ∧
      ∀ place, (∀ file ∈ files, w'.files.place? (Path.join directory file.name) ≠ .ok place ∧
          w'.files.place? (Path.join directory (hiddenName file.name)) ≠ .ok place) →
        w'.files.node? place = w.files.node? place ∨ w.files.MadeDirectory directory w'.files place := by
  obtain ⟨middle, hstage, hpublish, hpaths⟩ := of_runIn_writeDocuments_ok h
  have hapart := hnames.pairwise_apart directory
  obtain ⟨hstaged, hwritten⟩ := of_mayEnd_stageAll_ok (hapart.sublist (hidden_sublist_paths _)) hstage
  obtain ⟨hpublished, hdone⟩ := of_mayEnd_publishAll_ok hapart hwritten hpublish
  refine ⟨hpaths, fun file hfile => hdone _ (List.mem_map_of_mem hfile), fun place hplace => ?_⟩
  have hchanged := (hstaged.trans hpublished).mono
    (List.append_subset.2 ⟨(hidden_sublist_paths _).subset, List.Subset.refl _⟩)
  -- The paths of the documents lead to the same places before the writing and after it.
  have hothers : w'.files.node? place = (w.files.createDirectories directory).2.node? place := by
    refine hchanged.others place ?_
    rw [← FileSystem.leadsTo_iff hchanged.toSameDirectories]
    rintro ⟨path, hpath, hleads⟩
    obtain ⟨file, hfile, hpath⟩ := mem_paths hpath
    rcases hpath with rfl | rfl
    · exact (hplace file hfile).2 hleads
    · exact (hplace file hfile).1 hleads
  rcases w.files.madeDirectory_createDirectories directory place with hsame | hmade
  · exact .inl (hothers.trans hsame)
  · exact .inr ⟨hmade.absent, hothers.trans hmade.made, hmade.onTheWay⟩

/-- Files with a document from before, and with a hidden one that was left over. -/
def crowdedFiles : FileSystem where
  working := []
  entries := [(["out".toList], .directory), (["out".toList, "a.docx".toList], .file [0]),
    (["out".toList, ".a.docx.tmp".toList], .file [9, 9]), (["kept".toList], .file [7])]

/-- Two documents with names of their own. -/
def twoDocuments : List OutputFile := [⟨"a.docx", [1]⟩, ⟨"b.docx", [2]⟩]

/-- The two are written over **what was left there**, and a directory is made on the way. -/
theorem writeDocuments_complete_over_leftovers :
    OwnNames twoDocuments ∧
    ∃ w', (writeDocuments "new/../out" twoDocuments).runIn (hostOf crowdedFiles) =
        (.ok ["new/../out/a.docx", "new/../out/b.docx"], w') ∧
      w'.files.read "new/../out/a.docx" = .ok [1] ∧
      w'.files.hasEntry "new/../out/.a.docx.tmp" = false ∧
      (w'.files.node? ["kept".toList] = some (.file [7]) ∨
        crowdedFiles.MadeDirectory "new/../out" w'.files ["kept".toList]) := by
  have hnames : OwnNames twoDocuments := by
    refine ⟨by decide, ?_, ?_⟩
    · exact List.forall_mem_cons.2 ⟨⟨by decide, rfl, rfl⟩, List.forall_mem_singleton.2 ⟨by decide, rfl, rfl⟩⟩
    · refine List.forall_mem_cons.2 ⟨fun c hc => ?_, List.forall_mem_singleton.2 fun c hc => ?_⟩
      · cases hc
        decide
      · cases hc
        decide
  have hrun : (writeDocuments "new/../out" twoDocuments).runIn (hostOf crowdedFiles) =
      (.ok ["new/../out/a.docx", "new/../out/b.docx"],
        ((writeDocuments "new/../out" twoDocuments).runIn (hostOf crowdedFiles)).2) := rfl
  obtain ⟨-, hdone, hothers⟩ := writeDocuments_complete hnames hrun
  obtain ⟨hread, hgone⟩ := hdone _ (List.mem_cons_self ..)
  exact ⟨hnames, _, hrun, hread, hgone, hothers ["kept".toList] (by decide)⟩

end MailMerge
