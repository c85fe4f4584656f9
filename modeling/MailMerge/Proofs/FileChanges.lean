import MailMerge.Storage.FileSystem

/-!
# Changes of files

Names lead through directories alone, so that a path leads to the same place as long as the directories
are the same. Writing, moving and removing files keeps the directories. What these operations change is
therefore said by the paths they are given, whatever comes between them: at all other places everything is
as it was.

* `FileSystem.place?_eq_ok_iff` — where a path leads depends on the directories alone;
* `FileSystem.ChangedAt` and `FileSystem.ClearedAt` — files have changed, or are gone, at the places of some
  paths and nowhere else; `ChangedAt.trans` and `ClearedAt.trans` put changes together;
* `FileSystem.write_eq_ok`, `rename_eq_ok` and `remove_eq_ok` — what the operations do;
* `FileSystem.GrowsTo` — directories have been made, and nothing else has changed.
-/

namespace MailMerge

namespace FileSystem

variable {fs fs' fs'' : FileSystem} {place : Place} {path : Text} {paths paths' : List Text}

/-! ### Erased places -/

theorem node?_erase (h : place ≠ []) (fs : FileSystem) : (fs.erase place).node? place = none := by
  rw [node?, if_neg h, erase, List.lookup_eq_none_iff]
  intro entry hentry
  have hne := (List.mem_filter.1 hentry).2
  rw [bne_iff_ne] at hne ⊢
  exact hne.symm

theorem node?_erase_of_ne {other : Place} (h : other ≠ place) (fs : FileSystem) :
    (fs.erase place).node? other = fs.node? other := by
  have hlookup : (fs.entries.filter fun e => e.1 != place).lookup other = fs.entries.lookup other := by
    induction fs.entries with
    | nil => rfl
    | cons entry entries ih =>
      obtain ⟨name, node⟩ := entry
      by_cases hname : name = place
      · subst hname
        rw [List.filter_cons_of_neg (by simp), ih, List.lookup_cons, beq_eq_false_iff_ne.2 h]
      · rw [List.filter_cons_of_pos (by simpa using hname), List.lookup_cons, List.lookup_cons, ih]
  rw [node?, node?, erase, hlookup]

/-! ### Directories -/

/-- Names lead to the same place where **all directories are still there**: they pass through nothing
else. -/
theorem follow_mono
    (h : ∀ place, fs.node? place = some .directory → fs'.node? place = some .directory)
    {start target : Place} {names : List Text} (hf : fs.follow start names = .ok target) :
    fs'.follow start names = .ok target := by
  induction names generalizing start with
  | nil => exact hf
  | cons name names ih =>
    rw [follow] at hf ⊢
    split at hf
    case h_1 => cases hf
    case h_2 => cases hf
    case h_3 hdirectory =>
      rw [h start hdirectory]
      dsimp only
      -- each kind of name goes on from another place
      split at hf
      case isTrue hidle => rw [if_pos hidle, ih hf]
      case isFalse hidle =>
        rw [if_neg hidle]
        split at hf
        case isTrue hup => rw [if_pos hup, ih hf]
        case isFalse hup =>
          rw [if_neg hup]
          split at hf
          case isTrue => cases hf
          case isFalse hlong => rw [if_neg hlong, ih hf]

/-- The **same directories**, and the same working place. -/
structure SameDirectories (fs fs' : FileSystem) : Prop where
  working : fs'.working = fs.working
  directory : ∀ place, fs'.node? place = some .directory ↔ fs.node? place = some .directory

namespace SameDirectories

theorem refl (fs : FileSystem) : fs.SameDirectories fs := ⟨rfl, fun _ => Iff.rfl⟩

theorem symm (h : fs.SameDirectories fs') : fs'.SameDirectories fs :=
  ⟨h.working.symm, fun place => (h.directory place).symm⟩

theorem trans (h : fs.SameDirectories fs') (h' : fs'.SameDirectories fs'') :
    fs.SameDirectories fs'' :=
  ⟨h'.working.trans h.working, fun place => (h'.directory place).trans (h.directory place)⟩

theorem put (h : fs.node? place ≠ some .directory) (content : Bytes) :
    fs.SameDirectories (fs.put place (.file content)) where
  working := rfl
  directory other := by
    by_cases hother : other = place
    · subst hother
      have hne : other ≠ [] := by
        rintro rfl
        exact h rfl
      rw [node?_put hne]
      exact ⟨fun hfile => (nomatch hfile), fun hdirectory => absurd hdirectory h⟩
    · rw [node?_put_of_ne hother]

theorem erase (h : fs.node? place ≠ some .directory) : fs.SameDirectories (fs.erase place) where
  working := rfl
  directory other := by
    by_cases hother : other = place
    · subst hother
      have hne : other ≠ [] := by
        rintro rfl
        exact h rfl
      rw [node?_erase hne]
      exact ⟨fun hnone => (nomatch hnone), fun hdirectory => absurd hdirectory h⟩
    · rw [node?_erase_of_ne hother]

end SameDirectories

theorem place?_mono (hworking : fs'.working = fs.working)
    (h : ∀ place, fs.node? place = some .directory → fs'.node? place = some .directory)
    (hp : fs.place? path = .ok place) : fs'.place? path = .ok place := by
  unfold place? at hp ⊢
  split at hp
  case h_1 => cases hp
  case h_2 =>
    rw [origin] at hp ⊢
    rw [hworking]
    exact follow_mono h hp

/-- Where a path leads **depends on the directories alone**. -/
theorem place?_eq_ok_iff (h : fs.SameDirectories fs') :
    fs'.place? path = .ok place ↔ fs.place? path = .ok place :=
  ⟨place?_mono h.symm.working fun place => (h.directory place).1,
    place?_mono h.working fun place => (h.directory place).2⟩

/-! ### Places of paths -/

/-- Whether one of some paths **leads to** a place. -/
def LeadsTo (fs : FileSystem) (paths : List Text) (place : Place) : Prop :=
  ∃ path ∈ paths, fs.place? path = .ok place

theorem leadsTo_singleton : fs.LeadsTo [path] place ↔ fs.place? path = .ok place := by
  simp [LeadsTo]

theorem leadsTo_append :
    fs.LeadsTo (paths ++ paths') place ↔ fs.LeadsTo paths place ∨ fs.LeadsTo paths' place := by
  simp only [LeadsTo, List.mem_append, or_and_right, exists_or]

theorem leadsTo_iff (h : fs.SameDirectories fs') : fs'.LeadsTo paths place ↔ fs.LeadsTo paths place := by
  simp only [LeadsTo, place?_eq_ok_iff h]

/-- At the places of some paths **files may have changed**. Everything else is as it was. -/
structure ChangedAt (fs : FileSystem) (paths : List Text) (fs' : FileSystem) : Prop
    extends fs.SameDirectories fs' where
  others : ∀ place, ¬ fs.LeadsTo paths place → fs'.node? place = fs.node? place

/-- The **files** at the places of some paths **are gone**. Everything else is as it was. -/
structure ClearedAt (fs : FileSystem) (paths : List Text) (fs' : FileSystem) : Prop
    extends fs.ChangedAt paths fs' where
  cleared : ∀ place, fs.LeadsTo paths place → fs.node? place ≠ some .directory →
    fs'.node? place = none

theorem ChangedAt.refl (fs : FileSystem) (paths : List Text) : fs.ChangedAt paths fs :=
  ⟨.refl fs, fun _ _ => rfl⟩

theorem ChangedAt.mono (h : fs.ChangedAt paths fs') (hsub : paths ⊆ paths') : fs.ChangedAt paths' fs' where
  toSameDirectories := h.toSameDirectories
  others place hplace := h.others place fun ⟨path, hpath, hleads⟩ => hplace ⟨path, hsub hpath, hleads⟩

theorem ChangedAt.trans (h : fs.ChangedAt paths fs') (h' : fs'.ChangedAt paths' fs'') :
    fs.ChangedAt (paths ++ paths') fs'' where
  toSameDirectories := h.toSameDirectories.trans h'.toSameDirectories
  others place hplace := by
    rw [leadsTo_append, not_or] at hplace
    rw [h'.others place (by rw [leadsTo_iff h.toSameDirectories]; exact hplace.2),
      h.others place hplace.1]

theorem ClearedAt.nil (fs : FileSystem) : fs.ClearedAt [] fs :=
  ⟨.refl fs [], fun _ ⟨_, hpath, _⟩ => absurd hpath List.not_mem_nil⟩

theorem ClearedAt.trans (h : fs.ClearedAt paths fs') (h' : fs'.ClearedAt paths' fs'') :
    fs.ClearedAt (paths ++ paths') fs'' where
  toChangedAt := h.toChangedAt.trans h'.toChangedAt
  cleared place hplace hdirectory := by
    have hdirectory' : fs'.node? place ≠ some .directory :=
      fun hd => hdirectory ((h.directory place).1 hd)
    by_cases hlater : fs'.LeadsTo paths' place
    · exact h'.cleared place hlater hdirectory'
    · -- what was gone before is still gone
      rw [h'.others place hlater]
      rw [leadsTo_iff h.toSameDirectories] at hlater
      exact h.cleared place ((leadsTo_append.1 hplace).resolve_right hlater) hdirectory

/-! ### Operations -/

/-- A file is written at the place of its path, **if no directory stands there**. -/
theorem write_eq_ok {content : Bytes} (h : fs.write path content = .ok fs') :
    ∃ place, fs.place? path = .ok place ∧ fs.node? place ≠ some .directory ∧
      fs' = fs.put place (.file content) := by
  unfold write at h
  cases hplace : fs.place? path with
  | error fault =>
    rw [hplace] at h
    cases h
  | ok place =>
    rw [hplace] at h
    by_cases hdirectory : fs.node? place = some .directory
    · simp only [bind, Except.bind, if_pos hdirectory] at h
      cases h
    · simp only [bind, Except.bind, if_neg hdirectory] at h
      cases h
      exact ⟨place, rfl, hdirectory, rfl⟩

/-- A file is moved to the place of its new path, **if no directory stands there**. -/
theorem rename_eq_ok {old new : Text} (h : fs.rename old new = .ok fs') :
    ∃ source target content, fs.place? old = .ok source ∧ fs.place? new = .ok target ∧
      fs.node? source = some (.file content) ∧ fs.node? target ≠ some .directory ∧
      fs' = if source = target then fs else (fs.erase source).put target (.file content) := by
  unfold rename at h
  cases hsource : fs.place? old with
  | error fault => rw [hsource] at h; cases h
  | ok source =>
    cases htarget : fs.place? new with
    | error fault => rw [hsource, htarget] at h; cases h
    | ok target =>
      rw [hsource, htarget] at h
      simp only [bind, Except.bind] at h
      split at h
      case h_1 => cases h
      case h_2 => cases h
      case h_3 => cases h
      case h_4 content hcontent hdirectory =>
        refine ⟨source, target, content, rfl, rfl, hcontent, fun hd => hdirectory hd, ?_⟩
        by_cases hsame : source = target
        · rw [if_pos hsame] at h ⊢
          exact (Except.ok.inj h).symm
        · rw [if_neg hsame] at h ⊢
          exact (Except.ok.inj h).symm

/-- A file is removed, **if there is one**. -/
theorem remove_eq_ok (h : fs.remove path = .ok fs') :
    ∃ place content, fs.place? path = .ok place ∧ fs.node? place = some (.file content) ∧
      fs' = fs.erase place := by
  unfold remove at h
  cases hplace : fs.place? path with
  | error fault => rw [hplace] at h; cases h
  | ok place =>
    rw [hplace] at h
    simp only [bind, Except.bind] at h
    split at h
    case h_1 content hcontent =>
      cases h
      exact ⟨place, content, rfl, hcontent, rfl⟩
    case h_2 => cases h
    case h_3 => cases h

/-- What cannot be removed **is no file**. -/
theorem remove_eq_error {fault : StorageFault} (h : fs.remove path = .error fault)
    (hplace : fs.place? path = .ok place) (hdirectory : fs.node? place ≠ some .directory) :
    fs.node? place = none := by
  cases hnode : fs.node? place with
  | none => rfl
  | some node =>
    cases node with
    | directory => exact absurd hnode hdirectory
    | file content =>
      rw [remove, hplace] at h
      simp only [bind, Except.bind, hnode] at h
      cases h

theorem ChangedAt.write {content : Bytes} (h : fs.write path content = .ok fs') :
    fs.ChangedAt [path] fs' := by
  obtain ⟨place, hplace, hdirectory, rfl⟩ := write_eq_ok h
  refine ⟨.put hdirectory content, fun other hother => node?_put_of_ne ?_ fs _⟩
  rintro rfl
  exact hother (leadsTo_singleton.2 hplace)

theorem ChangedAt.rename {old new : Text} (h : fs.rename old new = .ok fs') :
    fs.ChangedAt [old, new] fs' := by
  obtain ⟨source, target, content, hsource, htarget, hcontent, hdirectory, rfl⟩ := rename_eq_ok h
  by_cases hsame : source = target
  · -- moving a file to where it is changes nothing
    rw [if_pos hsame]
    exact .refl fs _
  · rw [if_neg hsame]
    have hfile : fs.node? source ≠ some .directory := by simp [hcontent]
    have herase : (fs.erase source).node? target ≠ some .directory := by
      rwa [node?_erase_of_ne (Ne.symm hsame)]
    refine ⟨(SameDirectories.erase hfile).trans (.put herase content), fun other hother => ?_⟩
    have hne : other ≠ source := by
      rintro rfl
      exact hother ⟨old, by simp, hsource⟩
    have hne' : other ≠ target := by
      rintro rfl
      exact hother ⟨new, by simp, htarget⟩
    rw [node?_put_of_ne hne', node?_erase_of_ne hne]

/-- A file that is moved **leaves its place**, unless that is the place it is moved to. -/
theorem node?_of_rename {old new : Text} (h : fs.rename old new = .ok fs') (hold : fs.LeadsTo [old] place)
    (hnew : ¬ fs.LeadsTo [new] place) : fs'.node? place = none := by
  obtain ⟨source, target, content, hsource, htarget, hcontent, hdirectory, rfl⟩ := rename_eq_ok h
  rw [leadsTo_singleton] at hold hnew
  obtain rfl := Except.ok.inj (hsource.symm.trans hold)
  have hne : source ≠ target := by
    rintro rfl
    exact hnew htarget
  have hroot : source ≠ [] := by
    rintro rfl
    cases hcontent
  rw [if_neg hne, node?_put_of_ne hne, node?_erase hroot]

theorem ClearedAt.refl_of_remove {fault : StorageFault} (h : fs.remove path = .error fault) :
    fs.ClearedAt [path] fs where
  toChangedAt := .refl fs _
  cleared _ hplace hdirectory := remove_eq_error h (leadsTo_singleton.1 hplace) hdirectory

theorem ClearedAt.remove (h : fs.remove path = .ok fs') : fs.ClearedAt [path] fs' := by
  obtain ⟨place, content, hplace, hcontent, rfl⟩ := remove_eq_ok h
  have hfile : fs.node? place ≠ some .directory := by simp [hcontent]
  have hroot : place ≠ [] := by
    rintro rfl
    exact hfile rfl
  refine ⟨⟨.erase hfile, fun other hother => node?_erase_of_ne ?_ fs⟩, fun other hother _ => ?_⟩
  · rintro rfl
    exact hother (leadsTo_singleton.2 hplace)
  · obtain rfl := Except.ok.inj (hplace.symm.trans (leadsTo_singleton.1 hother))
    exact node?_erase hroot fs

/-! ### Made directories -/

/-- **Directories have been made** where nothing stood. Everything else is as it was. -/
structure GrowsTo (fs fs' : FileSystem) : Prop where
  working : fs'.working = fs.working
  kept : ∀ place node, fs.node? place = some node → fs'.node? place = some node
  made : ∀ place content, fs'.node? place = some (.file content) → fs.node? place = some (.file content)

theorem GrowsTo.refl (fs : FileSystem) : fs.GrowsTo fs := ⟨rfl, fun _ _ h => h, fun _ _ h => h⟩

theorem GrowsTo.trans (h : fs.GrowsTo fs') (h' : fs'.GrowsTo fs'') : fs.GrowsTo fs'' :=
  ⟨h'.working.trans h.working, fun place node hnode => h'.kept place node (h.kept place node hnode),
    fun place content hfile => h.made place content (h'.made place content hfile)⟩

theorem GrowsTo.put (h : fs.node? place = none) : fs.GrowsTo (fs.put place .directory) := by
  have hroot : place ≠ [] := by
    rintro rfl
    cases h
  refine ⟨rfl, fun other node hnode => ?_, fun other content hfile => ?_⟩
  · have hne : other ≠ place := by
      rintro rfl
      rw [h] at hnode
      cases hnode
    rw [node?_put_of_ne hne, hnode]
  · by_cases hother : other = place
    · subst hother
      rw [node?_put hroot] at hfile
      cases hfile
    · rwa [node?_put_of_ne hother] at hfile

theorem growsTo_createAlong (fs : FileSystem) (place : Place) (names : List Text) :
    fs.GrowsTo (fs.createAlong place names).2 := by
  fun_induction createAlong fs place names with
  | case1 => exact .refl _
  | case2 _ _ _ _ _ ih => exact ih
  | case3 _ _ _ _ _ _ ih => exact ih
  | case4 => exact .refl _
  | case5 _ _ _ _ _ _ _ _ _ ih => exact ih
  | case6 => exact .refl _
  | case7 _ _ _ _ _ _ _ _ hnone ih => exact (GrowsTo.put hnone).trans ih

/-- **Making directories** makes nothing else, also if it fails on the way. -/
theorem growsTo_createDirectories (fs : FileSystem) (path : Text) :
    fs.GrowsTo (fs.createDirectories path).2 := by
  unfold createDirectories
  split
  case isTrue => exact .refl fs
  case isFalse =>
    split
    case h_1 => exact .refl fs
    case h_2 => exact growsTo_createAlong fs _ _

end FileSystem

end MailMerge
