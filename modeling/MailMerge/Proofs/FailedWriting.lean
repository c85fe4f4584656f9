import MailMerge.Output
import MailMerge.Proofs.FaultyHost

/-!
# Failed writing

Documents are written all together or not at all. Writing may fail at any document, when it is written under
its hidden name or when it is moved to its own. What has been written until then is removed again, and
nothing else; so no file is left that was not there before. But a file that was there at one of these
places, under a hidden name or where a document had already been moved to, has been written over, and is
removed with the rest.

Once the directory has been made, paths lead to the same places until the end, so that all changes are told
by the paths that were written to. Staging changes files at the hidden paths, publishing at the targets as
well. A place that is not cleared in the end has been left before: hidden files that were moved are gone from
theirs, unless these are targets, which are cleared.

* `FailedAt` is where writing has failed, and the paths that were written to until then;
* `of_mayEnd_stageAll` — staging comes to its end, or fails and clears what it has written;
* `Publishing` is the invariant of publishing, `Publishing.move` its step, and `of_mayEnd_publishAll` the run;
* `clearedAt_of_mayEnd_writeDocuments` — the files that there are when writing has failed;
* `writeDocuments_undone_iff` — they are those from before, unless one was at a path that was written to.
-/

namespace MailMerge

open FileSystem (leadsTo_append leadsTo_iff)

variable {fs fs' made : FileSystem} {r : Except MergeError Unit}

/-! ### Single operations -/

/-- Discarding **clears** the places of the paths. -/
theorem clearedAt_discard {paths : List Text} {u : Unit} (h : (discard paths).MayEnd fs u fs') :
    fs.ClearedAt paths fs' := by
  induction paths generalizing fs with
  | nil =>
    obtain ⟨-, rfl⟩ := Action.of_mayEnd_pure h
    exact .nil _
  | cons path paths ih =>
    obtain ⟨reply, fs₁, hremove, hrest⟩ := Action.of_mayEnd_bind h
    have hcleared : fs.ClearedAt [path] fs₁ := by
      cases Action.of_mayEnd_of hremove with
      | removed hremoved => exact .remove hremoved
      | absent habsent => exact .refl_of_remove habsent
      | asked hasks => cases hasks
    exact hcleared.trans (ih hrest)

/-- Writing changes the place of its path at most, **also if it fails**. -/
theorem changedAt_writeFile {path : Text} {content : Bytes} {reply : Except StorageFault Unit}
    (h : (Action.writeFile path content).MayEnd fs reply fs') : fs.ChangedAt [path] fs' := by
  cases Action.of_mayEnd_of h with
  | written hwrite => exact .write hwrite
  | unwritten => exact .refl _ _
  | cutShort _ hwrite => exact .write hwrite
  | asked hasks => cases hasks

theorem rename_of_mayEnd {old new : Text} {u : Unit}
    (h : (Action.rename old new).MayEnd fs (.ok u) fs') : fs.rename old new = .ok fs' := by
  cases Action.of_mayEnd_of h with
  | moved hrename => exact hrename
  | asked hasks => cases hasks

theorem eq_of_mayEnd_rename {old new : Text} {fault : StorageFault}
    (h : (Action.rename old new).MayEnd fs (.error fault) fs') : fs' = fs := by
  cases Action.of_mayEnd_of h with
  | unmoved => rfl
  | asked hasks => cases hasks

/-- Changed files **are gone** when those are removed that have not left their places before. -/
theorem FileSystem.ChangedAt.clear {paths removed : List Text} (hchanged : made.ChangedAt paths fs)
    (hremoved : fs.ClearedAt removed fs') (hsub : removed ⊆ paths)
    (hleft : ∀ place, made.LeadsTo paths place → ¬ made.LeadsTo removed place →
      fs.node? place = none) : made.ClearedAt paths fs' where
  toChangedAt := (hchanged.trans hremoved.toChangedAt).mono (List.append_subset.2 ⟨List.Subset.refl _, hsub⟩)
  cleared place hplace hdirectory := by
    have hdirectory' : fs.node? place ≠ some .directory :=
      fun hd => hdirectory ((hchanged.directory place).1 hd)
    by_cases hgone : made.LeadsTo removed place
    · exact hremoved.cleared place ((leadsTo_iff hchanged.toSameDirectories).2 hgone) hdirectory'
    · rw [hremoved.others place (mt (leadsTo_iff hchanged.toSameDirectories).1 hgone)]
      exact hleft place hplace hgone

/-! ### The two phases -/

/-- **Staging** changes the places of the hidden paths. If it fails at one of them, that and all before it
are cleared. -/
theorem of_mayEnd_stageAll {written : List Text} {files : List StagedFile}
    (hchanged : made.ChangedAt written fs) (h : (stageAll written files).MayEnd fs r fs') :
    (r = .ok () ∧ made.ChangedAt (written ++ files.map StagedFile.hidden) fs') ∨
      ∃ before file after fault, files = before ++ file :: after ∧
        r = .error (.storage file.hidden fault) ∧
        made.ClearedAt (written ++ (before ++ [file]).map StagedFile.hidden) fs' := by
  induction files generalizing fs written with
  | nil =>
    obtain ⟨rfl, rfl⟩ := Procedure.of_mayEnd_pure h
    exact .inl ⟨rfl, by simpa using hchanged⟩
  | cons file files ih =>
    obtain ⟨reply, fs₁, hwrite, hrest⟩ := Procedure.of_mayEnd_ofAction_bind h
    have hchanged₁ := hchanged.trans (changedAt_writeFile hwrite)
    cases reply with
    | ok u =>
      rcases ih hchanged₁ hrest with ⟨rfl, hchanged'⟩ | ⟨before, other, after, fault, rfl, rfl, hcleared⟩
      · exact .inl ⟨rfl, by simpa using hchanged'⟩
      · exact .inr ⟨file :: before, other, after, fault, rfl, rfl, by simpa using hcleared⟩
    | error fault =>
      obtain ⟨u, fs₂, hdiscard, hthrow⟩ := Procedure.of_mayEnd_ofAction_bind hrest
      obtain ⟨rfl, rfl⟩ := Procedure.of_mayEnd_throw hthrow
      exact .inr ⟨[], file, files, fault, rfl, rfl,
        hchanged₁.clear (clearedAt_discard hdiscard) (List.Subset.refl _)
          fun place hplace hnot => absurd hplace hnot⟩

/-- While files are **published**, changes are at the places of the targets of those that have been moved,
and at the places of all hidden paths; and the hidden files that have been moved have left their places,
but for targets. -/
structure Publishing (made : FileSystem) (staged moved : List StagedFile) (fs : FileSystem) : Prop where
  changed : made.ChangedAt (moved.map StagedFile.target ++ staged.map StagedFile.hidden) fs
  left : ∀ place, made.LeadsTo (moved.map StagedFile.hidden) place →
    ¬ made.LeadsTo (moved.map StagedFile.target) place → fs.node? place = none

namespace Publishing

variable {staged moved files : List StagedFile} {file : StagedFile}

theorem start (h : made.ChangedAt (staged.map StagedFile.hidden) fs) : Publishing made staged [] fs :=
  ⟨h, fun _ ⟨_, hpath, _⟩ => absurd hpath List.not_mem_nil⟩

/-- The **step** of publishing: one more file is moved. -/
theorem move (h : Publishing made staged moved fs) (hfile : file ∈ staged)
    (hrename : fs.rename file.hidden file.target = .ok fs') :
    Publishing made staged (moved ++ [file]) fs' where
  changed := by
    have hhidden : file.hidden ∈ staged.map StagedFile.hidden := List.mem_map_of_mem hfile
    have hsub : moved.map StagedFile.target ++ staged.map StagedFile.hidden ++
        [file.hidden, file.target] ⊆ (moved ++ [file]).map StagedFile.target ++
          staged.map StagedFile.hidden := by
      rw [List.map_append]
      grind
    exact (h.changed.trans (.rename hrename)).mono hsub
  left place hplace hnot := by
    have hsame := h.changed.toSameDirectories
    rw [List.map_append, leadsTo_append] at hplace hnot
    rw [not_or] at hnot
    have hnew : ¬ fs.LeadsTo [file.target] place := mt (leadsTo_iff hsame).1 hnot.2
    by_cases hhere : fs.LeadsTo [file.hidden] place
    · -- this is the place that the file leaves now
      exact FileSystem.node?_of_rename hrename hhere hnew
    · -- what has left its place before does not come back
      have hother : ¬ fs.LeadsTo [file.hidden, file.target] place := by
        intro hleads
        exact (leadsTo_append.1 hleads).elim hhere hnew
      rw [(FileSystem.ChangedAt.rename hrename).others place hother]
      exact h.left place (hplace.resolve_right (mt (leadsTo_iff hsame).2 hhere)) hnot.1

/-- All changes are undone by **clearing** the targets of the files that were moved and the hidden paths of
those that were not. -/
theorem clear (h : Publishing made staged moved fs) (hstaged : staged = moved ++ files)
    (hcleared : fs.ClearedAt (moved.map StagedFile.target ++ files.map StagedFile.hidden) fs') :
    made.ClearedAt (moved.map StagedFile.target ++ staged.map StagedFile.hidden) fs' := by
  refine h.changed.clear hcleared ?_ ?_
  · rw [hstaged, List.map_append]
    exact List.append_subset.2 ⟨List.subset_append_left _ _,
      List.subset_append_of_subset_right _ (List.subset_append_right _ _)⟩
  · -- the hidden paths of the files that were moved are left over, and these have left their places
    intro place hplace hnot
    rw [hstaged, List.map_append, leadsTo_append, leadsTo_append] at hplace
    rw [leadsTo_append, not_or] at hnot
    exact h.left place ((hplace.resolve_left hnot.1).resolve_right hnot.2) hnot.1

end Publishing

/-- **Publishing** moves all files, or fails at one of them and clears all that was written or moved. -/
theorem of_mayEnd_publishAll {staged moved files : List StagedFile} (hstaged : staged = moved ++ files)
    (hpublishing : Publishing made staged moved fs)
    (h : (publishAll (moved.map StagedFile.target) files).MayEnd fs r fs') :
    r = .ok () ∨ ∃ moved file after fault, staged = moved ++ file :: after ∧
      r = .error (.storage file.target fault) ∧
      made.ClearedAt (moved.map StagedFile.target ++ staged.map StagedFile.hidden) fs' := by
  -- by induction on the files that are left; the invariant is that of publishing
  induction files generalizing fs moved with
  | nil =>
    obtain ⟨rfl, -⟩ := Procedure.of_mayEnd_pure h
    exact .inl rfl
  | cons file files ih =>
    obtain ⟨reply, fs₁, hrename, hrest⟩ := Procedure.of_mayEnd_ofAction_bind h
    cases reply with
    | ok u =>
      have hfile : file ∈ staged := by simp [hstaged]
      refine ih (show staged = (moved ++ [file]) ++ files by simp [hstaged])
        (hpublishing.move hfile (rename_of_mayEnd hrename)) ?_
      rw [List.map_append]
      exact hrest
    | error fault =>
      -- a file that could not be moved is where it was
      obtain rfl := eq_of_mayEnd_rename hrename
      obtain ⟨u, fs₂, hmoved, hrest⟩ := Procedure.of_mayEnd_ofAction_bind hrest
      obtain ⟨u', fs₃, hhidden, hthrow⟩ := Procedure.of_mayEnd_ofAction_bind hrest
      obtain ⟨rfl, rfl⟩ := Procedure.of_mayEnd_throw hthrow
      exact .inr ⟨moved, file, files, fault, hstaged, rfl,
        hpublishing.clear hstaged ((clearedAt_discard hmoved).trans (clearedAt_discard hhidden))⟩

/-! ### Writing documents -/

/-- Where writing **has failed**, and the paths that were written to until then. -/
inductive FailedAt (directory : Text) (staged : List StagedFile) : MergeError → List Text → Prop
  /-- The directory could not be made. -/
  | directory (fault : StorageFault) : FailedAt directory staged (.storage directory fault) []
  /-- A file could not be written under its hidden name. -/
  | staging {before after : List StagedFile} {file : StagedFile} (h : staged = before ++ file :: after)
      (fault : StorageFault) : FailedAt directory staged (.storage file.hidden fault)
        ((before ++ [file]).map StagedFile.hidden)
  /-- A file could not be moved to its own name. -/
  | publishing {moved after : List StagedFile} {file : StagedFile} (h : staged = moved ++ file :: after)
      (fault : StorageFault) : FailedAt directory staged (.storage file.target fault)
        (moved.map StagedFile.target ++ staged.map StagedFile.hidden)

/-- When **writing has failed**, the places that were written to are cleared, and everything else is as it
was when the directory had been made. -/
theorem clearedAt_of_mayEnd_writeDocuments {directory : Text} {files : List OutputFile} {e : MergeError}
    (h : (writeDocuments directory files).MayEnd fs (.error e) fs') :
    ∃ made paths, FailedAt directory (files.map (StagedFile.of directory)) e paths ∧
      fs.GrowsTo made ∧ made.ClearedAt paths fs' := by
  obtain ⟨reply, made, hmake, hrest⟩ := Procedure.of_mayEnd_ofAction_bind h
  have hgrows : fs.GrowsTo made := by
    cases Action.of_mayEnd_of hmake with
    | grown hgrows => exact hgrows
    | asked hasks => cases hasks
  -- three things may fail: making the directory, writing a hidden file, moving one
  cases reply with
  | error fault =>
    rcases Procedure.of_mayEnd_bind hrest with ⟨u, fs₁, hthrow, -⟩ | ⟨e', hthrow, he⟩
    · exact nomatch (Procedure.of_mayEnd_throw hthrow).1
    · obtain ⟨he', rfl⟩ := Procedure.of_mayEnd_throw hthrow
      cases he
      cases he'
      exact ⟨fs', [], .directory fault, hgrows, .nil fs'⟩
  | ok u =>
    rcases Procedure.of_mayEnd_bind hrest with ⟨u, fs₁, hstage, hrest⟩ | ⟨e', hstage, he⟩
    · -- all hidden files were written, so that one could not be moved
      obtain ⟨-, hstaged⟩ | ⟨_, _, _, _, -, hr, -⟩ := of_mayEnd_stageAll (.refl made []) hstage
      · rcases Procedure.of_mayEnd_bind hrest with ⟨u, fs₂, -, hpure⟩ | ⟨e', hpublish, he⟩
        · exact nomatch (Procedure.of_mayEnd_pure hpure).1
        · obtain hr | ⟨moved, file, after, fault, hsplit, hr, hcleared⟩ :=
            of_mayEnd_publishAll (List.nil_append _).symm (.start hstaged) hpublish
          · cases hr
          · cases he
            cases hr
            exact ⟨made, _, .publishing hsplit fault, hgrows, hcleared⟩
      · cases hr
    · obtain ⟨hr, -⟩ | ⟨before, file, after, fault, hsplit, hr, hcleared⟩ :=
        of_mayEnd_stageAll (.refl made []) hstage
      · cases hr
      · cases he
        cases hr
        exact ⟨made, _, .staging hsplit fault, hgrows, hcleared⟩

/-- **Writing is undone** when it fails: no file is there that was not there before, with the same content;
and all that were there before still are **if and only if** none of them was at a path that was written
to. -/
theorem writeDocuments_undone_iff {directory : Text} {files : List OutputFile} {e : MergeError}
    (h : (writeDocuments directory files).MayEnd fs (.error e) fs') :
    ∃ made paths, FailedAt directory (files.map (StagedFile.of directory)) e paths ∧
      fs.GrowsTo made ∧ made.ClearedAt paths fs' ∧
      (∀ place content, fs'.node? place = some (.file content) →
        fs.node? place = some (.file content)) ∧
      ((∀ place content, fs.node? place = some (.file content) →
          fs'.node? place = some (.file content)) ↔
        ∀ place, made.LeadsTo paths place → ∀ content, fs.node? place ≠ some (.file content)) := by
  obtain ⟨made, paths, hfailed, hgrows, hcleared⟩ := clearedAt_of_mayEnd_writeDocuments h
  have hgone {place : Place} {content : Bytes} (hfile : made.node? place = some (.file content))
      (hleads : made.LeadsTo paths place) : fs'.node? place = none :=
    hcleared.cleared place hleads (by simp [hfile])
  refine ⟨made, paths, hfailed, hgrows, hcleared, fun place content hfile => ?_, ?_, ?_⟩
  · by_cases hleads : made.LeadsTo paths place
    · -- a place that was written to holds no file any more
      by_cases hdirectory : made.node? place = some .directory
      · rw [(hcleared.directory place).2 hdirectory] at hfile
        cases hfile
      · rw [hcleared.cleared place hleads hdirectory] at hfile
        cases hfile
    · rw [hcleared.others place hleads] at hfile
      exact hgrows.made place content hfile
  · -- a file at a place that was written to is gone
    intro hkept place hleads content hfile
    have hthere := hkept place content hfile
    rw [hgone (hgrows.kept place _ hfile) hleads] at hthere
    cases hthere
  · intro hfree place content hfile
    have hleads : ¬ made.LeadsTo paths place := fun hleads => hfree place hleads content hfile
    rw [hcleared.others place hleads]
    exact hgrows.kept place _ hfile

/-- A host that holds files and nothing else. -/
def hostOf (files : FileSystem) : World := ⟨files, [], none, ⟨0, 0⟩, fun _ _ => .error [], []⟩

/-- Files with a directory where a document is to be written. -/
def blockedFiles : FileSystem := ⟨[], [(["b.docx".toList], .directory)]⟩

/-- The second of two documents cannot be moved to its name, and the first is removed again. -/
theorem writeDocuments_undone_at_directory :
    ∃ made paths, FailedAt [] (([⟨"a.docx", [1]⟩, ⟨"b.docx", [2]⟩] : List OutputFile).map
        (StagedFile.of [])) (.storage "b.docx" .isADirectory) paths ∧
      blockedFiles.GrowsTo made ∧ made.ClearedAt paths blockedFiles := by
  have hends : (writeDocuments [] [⟨"a.docx", [1]⟩, ⟨"b.docx", [2]⟩]).MayEnd blockedFiles
      (.error (.storage "b.docx" .isADirectory)) blockedFiles :=
    Action.mayEnd_run (ExceptT.run (writeDocuments [] _)) (hostOf blockedFiles)
  obtain ⟨made, paths, hfailed, hgrows, hcleared, -⟩ := writeDocuments_undone_iff hends
  exact ⟨made, paths, hfailed, hgrows, hcleared⟩

/-- A document from before, which the first of the two has been moved in the place of, is **lost** with
it. -/
theorem writeDocuments_loses_document :
    ∃ (fs fs' : FileSystem) (e : MergeError),
      (writeDocuments [] [⟨"a.docx", [1]⟩, ⟨"b.docx", [2]⟩]).MayEnd fs (.error e) fs' ∧
      fs.node? ["a.docx".toList] = some (.file [0]) ∧ fs'.node? ["a.docx".toList] = none :=
  ⟨blockedFiles.put ["a.docx".toList] (.file [0]), blockedFiles, .storage "b.docx" .isADirectory,
    Action.mayEnd_run (ExceptT.run (writeDocuments [] _))
      (hostOf (blockedFiles.put ["a.docx".toList] (.file [0]))), rfl, rfl⟩

end MailMerge
