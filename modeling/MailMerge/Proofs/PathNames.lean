import MailMerge.Proofs.FileChanges

/-!
# Names below a directory

A path below a directory is the path of the directory with one more name. Whatever the files are like, that
name is followed from the place of the directory, so that it leads to a place of its own: different names
below one directory never lead to the same place.

* `Path.IsComponent` says which texts are a single name;
* `Path.names_join` — a path below a directory has that name behind the names of the directory;
* `FileSystem.exists_of_place?_join` — it leads to that name below the place of the directory;
* `Path.Apart` says that two paths never lead to the same place, and `Path.apart_join` that different names
  below a directory do not.
-/

namespace MailMerge

namespace Path

/-- Whether a text is **a single name** of a path: it holds no slash, and it leads one step down. -/
structure IsComponent (name : Text) : Prop where
  slash : '/' ∉ name
  notIdle : FileSystem.isIdle name = false
  notUp : FileSystem.isUp name = false

/-- The names of the directory in a path **below a directory**. -/
def front (base : Text) : List Text :=
  if base.isEmpty then []
  else
    match Text.dropSuffix? "/" base with
    | some whole => names whole
    | none => names base

/-! ### Names -/

theorem names_append_slash (s t : Text) : names (s ++ '/' :: t) = names s ++ names t := by
  rw [names, names, names, Text.split_eq_splitOn, Text.split_eq_splitOn, Text.split_eq_splitOn,
    List.splitOn_append_cons_self]

variable {base name a b : Text}

namespace IsComponent

theorem names_eq (h : IsComponent name) : names name = [name] := by
  rw [names, Text.split_eq_splitOn, List.splitOn_eq_singleton h.slash]

theorem startsWith_eq (h : IsComponent name) : Text.startsWith "/" name = false := by
  rw [Bool.eq_false_iff]
  intro hstarts
  obtain ⟨rest, hrest⟩ := Option.isSome_iff_exists.1 hstarts
  have hname := Text.dropPrefix?_eq_some_iff.1 hrest
  exact h.slash (by rw [hname]; exact List.mem_cons_self ..)

/-- A single name **hidden** by a dot and a suffix is a single name. -/
theorem hidden (h : IsComponent name) : IsComponent ("." ++ name ++ ".tmp") := by
  have hlength : 5 ≤ ("." ++ name ++ ".tmp" : Text).length := by
    rw [List.length_append, List.length_append]
    show 5 ≤ 1 + name.length + 4
    omega
  have hlong {t : Text} (ht : t.length < 5) : ("." ++ name ++ ".tmp" : Text) ≠ t := by
    rintro rfl
    exact absurd hlength (Nat.not_le.2 ht)
  refine ⟨by simpa using h.slash, ?_, beq_eq_false_iff_ne.2 (hlong (by decide))⟩
  exact Bool.or_eq_false_iff.2 ⟨rfl, beq_eq_false_iff_ne.2 (hlong (by decide))⟩

end IsComponent

theorem eq_of_dropSuffix? {t front suffix : Text} (h : Text.dropSuffix? suffix t = some front) :
    t = front ++ suffix := by
  obtain ⟨reversed, hreversed, rfl⟩ := Option.map_eq_some_iff.1 h
  rw [← List.reverse_reverse t, Text.dropPrefix?_eq_some_iff.1 hreversed, List.reverse_append,
    List.reverse_reverse]

/-- A path **below a directory** has one more name than the directory. -/
theorem names_join (h : IsComponent name) (base : Text) : names (join base name) = front base ++ [name] := by
  unfold join front
  by_cases hbase : base.isEmpty = true
  · rw [if_pos (.inr hbase), if_pos hbase, h.names_eq, List.nil_append]
  · have hstart : ¬ (Text.startsWith "/" name = true ∨ base.isEmpty = true) := by
      rw [h.startsWith_eq]
      exact fun hor => hor.elim (fun hfalse => nomatch hfalse) hbase
    rw [if_neg hstart, if_neg hbase, Text.endsWith]
    cases hslash : Text.dropSuffix? "/" base with
    | none =>
      show names (base ++ ['/'] ++ name) = names base ++ [name]
      rw [List.append_assoc, List.singleton_append, names_append_slash, h.names_eq]
    | some whole =>
      -- the slash that is there already is not written again
      show names (base ++ name) = names whole ++ [name]
      rw [eq_of_dropSuffix? hslash]
      show names (whole ++ ['/'] ++ name) = _
      rw [List.append_assoc, List.singleton_append, names_append_slash, h.names_eq]

end Path

/-! ### Places -/

namespace FileSystem

variable {fs : FileSystem} {place : Place} {base name : Text}

/-- Names are followed **one after the other**. -/
theorem follow_append (fs : FileSystem) (start : Place) (names names' : List Text) :
    fs.follow start (names ++ names') = fs.follow start names >>= fun place => fs.follow place names' := by
  induction names generalizing start with
  | nil => rfl
  | cons name names ih =>
    rw [List.cons_append, follow, follow]
    cases fs.node? start with
    | none => rfl
    | some node =>
      cases node with
      | file content => rfl
      | directory =>
        dsimp only
        -- the same step is made in front of the rest
        by_cases hidle : isIdle name = true
        · rw [if_pos hidle, if_pos hidle, ih]
        · rw [if_neg hidle, if_neg hidle]
          by_cases hup : isUp name = true
          · rw [if_pos hup, if_pos hup, ih]
          · rw [if_neg hup, if_neg hup]
            by_cases hlong : maxName < Text.utf8Size name
            · rw [if_pos hlong, if_pos hlong]
              rfl
            · rw [if_neg hlong, if_neg hlong, ih]

theorem eq_of_follow_singleton {start : Place} (h : Path.IsComponent name)
    (hfollow : fs.follow start [name] = .ok place) : place = start ++ [name] := by
  rw [follow] at hfollow
  split at hfollow
  case h_1 => cases hfollow
  case h_2 => cases hfollow
  case h_3 =>
    rw [h.notIdle, h.notUp, if_neg (by decide), if_neg (by decide)] at hfollow
    split at hfollow
    case isTrue => cases hfollow
    case isFalse => exact (Except.ok.inj hfollow).symm

theorem origin_join (h : Path.IsComponent name) (fs : FileSystem) (base : Text) :
    fs.origin (Path.join base name) = fs.origin base := by
  have hstart : Text.startsWith "/" (Path.join base name) = Text.startsWith "/" base := by
    cases base with
    | nil =>
      rw [Path.join, if_pos (.inr rfl), h.startsWith_eq]
      rfl
    | cons c base =>
      have hcons (t : Text) : Text.startsWith "/" (c :: base ++ t) = Text.startsWith "/" (c :: base) := by
        show (if '/' = c then some (base ++ t) else none).isSome = (if '/' = c then some base else none).isSome
        by_cases hc : '/' = c
        · rw [if_pos hc, if_pos hc]
          rfl
        · rw [if_neg hc, if_neg hc]
      rw [Path.join, h.startsWith_eq, if_neg (by simp)]
      split
      · exact hcons name
      · rw [List.append_assoc]
        exact hcons _
  rw [origin, origin, hstart]

/-- A path below a directory leads to **its name below the place of the directory**. -/
theorem exists_of_place?_join (h : Path.IsComponent name)
    (hplace : fs.place? (Path.join base name) = .ok place) :
    ∃ directory, fs.follow (fs.origin base) (Path.front base) = .ok directory ∧
      place = directory ++ [name] := by
  unfold place? at hplace
  split at hplace
  case h_1 => cases hplace
  case h_2 =>
    rw [origin_join h, Path.names_join h, follow_append] at hplace
    cases hdirectory : fs.follow (fs.origin base) (Path.front base) with
    | error fault =>
      rw [hdirectory] at hplace
      cases hplace
    | ok directory =>
      rw [hdirectory] at hplace
      exact ⟨directory, rfl, eq_of_follow_singleton h hplace⟩

end FileSystem

/-- Whether two paths **never lead to the same place**, whatever the files are like. -/
def Path.Apart (path other : Text) : Prop :=
  ∀ (fs : FileSystem) (place : Place), fs.place? path = .ok place → fs.place? other ≠ .ok place

theorem Path.Apart.symm {path other : Text} (h : Apart path other) : Apart other path :=
  fun fs place hother hpath => h fs place hpath hother

/-- **Different names** below a directory never lead to the same place. -/
theorem Path.apart_join {a b : Text} (ha : IsComponent a) (hb : IsComponent b) (h : a ≠ b) (base : Text) :
    Apart (join base a) (join base b) := by
  intro fs place hplace hother
  obtain ⟨directory, hdirectory, rfl⟩ := FileSystem.exists_of_place?_join ha hplace
  obtain ⟨directory', hdirectory', hsame⟩ := FileSystem.exists_of_place?_join hb hother
  rw [hdirectory] at hdirectory'
  cases hdirectory'
  exact h (List.singleton_inj.1 (List.append_cancel_left hsame))

end MailMerge
