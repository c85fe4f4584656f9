import Mathlib.Data.List.Chain
import Mathlib.Data.List.DropRight
import MailMerge.Output
import MailMerge.Proofs.Digits
import MailMerge.Proofs.ListedPlaceholders
import MailMerge.Proofs.PathNames
import MailMerge.Proofs.SeparateDocuments

/-!
# Names of separate documents

Each record's document is named after the prefix and the fields of the record, whatever characters they
hold, and a name that is taken gets a number. Any of these can collide: a field may equal another one, or
another one with a number behind it, or the index of a record without naming fields. The names are
distinct all the same, for a free number is looked for among all names given so far; and since numbered
names are pairwise distinct, one of them is free before as many have been tried as there are names.

Every name is a *stem* before the suffix, and stems are closed under all that is done to them: parts and
indices are stems, and so are two stems with an underscore between them.

* `FirstFree` is the search for a free name, without a bound, and `firstFree_iff` says that it ends with
  `uniqueName`;
* `IsStem` is the form of what stands before the suffix, `isStem_sanitizeComponent` and
  `IsStem.append_underscore` say what is a stem;
* `NamedInTurn` says how the names of records are given one after the other: `NamedInTurn.nodup` and
  `NamedInTurn.isSafeName` by induction on it;
* `generateEach_fileNames` — the names of separate documents are distinct and safe.
-/

namespace MailMerge

variable {used : List Text} {name free : Text}

/-! ### The search for a free name -/

/-- The **search for a free number**: each numbered name is tried, until one is not used. -/
inductive NumberedFrom (used : List Text) (name : Text) : Nat → Text → Prop
  | free {n : Nat} (h : numberedName name n ∉ used) : NumberedFrom used name n (numberedName name n)
  | taken {n : Nat} {free : Text} (h : numberedName name n ∈ used)
      (hnext : NumberedFrom used name (n + 1) free) : NumberedFrom used name n free

/-- The **search for a free name**: the name itself, or the first free numbered one from two on. -/
inductive FirstFree (used : List Text) (name : Text) : Text → Prop
  | unused (h : name ∉ used) : FirstFree used name name
  | numbered {free : Text} (h : name ∈ used) (hnumber : NumberedFrom used name 2 free) :
      FirstFree used name free

theorem numberedName_injective (name : Text) : Function.Injective (numberedName name) := by
  intro m n h
  have hnumbers : Text.ofNat m = Text.ofNat n :=
    List.append_cancel_left (List.append_cancel_right h)
  calc
    m = Text.digitsValue (Text.ofNat m) := (Text.digitsValue_ofNat m).symm
    _ = Text.digitsValue (Text.ofNat n) := by rw [hnumbers]
    _ = n := Text.digitsValue_ofNat n

/-- Of as many numbered names as there are used names and one more, **one is free**. -/
theorem exists_free (used : List Text) (name : Text) (n : Nat) :
    ∃ k, k ≤ used.length ∧ numberedName name (n + k) ∉ used := by
  -- If none were, one more distinct names than there are used ones would all be used.
  by_contra hnone
  have hall : ∀ k ≤ used.length, numberedName name (n + k) ∈ used := by
    intro k hk
    by_contra hfree
    exact hnone ⟨k, hk, hfree⟩
  let tried := (List.range (used.length + 1)).map fun k => numberedName name (n + k)
  have hdistinct : tried.Nodup :=
    List.nodup_range.map fun _ _ heq => Nat.add_left_cancel (numberedName_injective name heq)
  have hused : tried ⊆ used := by
    intro candidate hcandidate
    obtain ⟨k, hk, rfl⟩ := List.mem_map.1 hcandidate
    exact hall k (Nat.le_of_lt_succ (List.mem_range.1 hk))
  have hlength := (List.subperm_of_subset hdistinct hused).length_le
  rw [List.length_map, List.length_range] at hlength
  exact Nat.not_succ_le_self _ hlength

theorem NumberedFrom.not_mem {n : Nat} (h : NumberedFrom used name n free) : free ∉ used := by
  induction h with
  | free h => exact h
  | taken _ _ ih => exact ih

theorem NumberedFrom.exists_eq {n : Nat} (h : NumberedFrom used name n free) :
    ∃ k, free = numberedName name k := by
  induction h with
  | free => exact ⟨_, rfl⟩
  | taken _ _ ih => exact ih

theorem NumberedFrom.unique {n : Nat} {free' : Text} (h : NumberedFrom used name n free)
    (h' : NumberedFrom used name n free') : free = free' := by
  induction h with
  | free h =>
    cases h' with
    | free => rfl
    | taken htaken _ => exact absurd htaken h
  | taken htaken _ ih =>
    cases h' with
    | free h => exact absurd htaken h
    | taken _ hnext => exact ih hnext

/-- The search comes to its end within a number of steps, **if one of the names it tries is free**. -/
theorem numberedFrom_freeName {steps n : Nat} (h : ∃ k, k ≤ steps ∧ numberedName name (n + k) ∉ used) :
    NumberedFrom used name n (freeName used name steps n) := by
  induction steps generalizing n with
  | zero =>
    obtain ⟨k, hk, hfree⟩ := h
    obtain rfl := Nat.le_zero.1 hk
    exact .free hfree
  | succ steps ih =>
    rw [freeName]
    by_cases hused : numberedName name n ∈ used
    · rw [if_pos (List.contains_iff_mem.2 hused)]
      refine .taken hused (ih ?_)
      -- the free one is not the one that was tried just now
      obtain ⟨k, hk, hfree⟩ := h
      cases k with
      | zero => exact absurd hused hfree
      | succ k => exact ⟨k, Nat.le_of_succ_le_succ hk, by rwa [Nat.add_assoc, Nat.add_comm 1 k]⟩
    · rw [if_neg (mt List.contains_iff_mem.1 hused)]
      exact .free hused

theorem firstFree_uniqueName (used : List Text) (name : Text) :
    FirstFree used name (uniqueName used name) := by
  rw [uniqueName]
  by_cases hused : name ∈ used
  · rw [if_pos (List.contains_iff_mem.2 hused)]
    exact .numbered hused (numberedFrom_freeName (exists_free used name 2))
  · rw [if_neg (mt List.contains_iff_mem.1 hused)]
    exact .unused hused

namespace FirstFree

theorem not_mem (h : FirstFree used name free) : free ∉ used := by
  cases h with
  | unused h => exact h
  | numbered _ hnumber => exact hnumber.not_mem

theorem eq_or_numbered (h : FirstFree used name free) :
    free = name ∨ ∃ n, free = numberedName name n := by
  cases h with
  | unused => exact .inl rfl
  | numbered _ hnumber => exact .inr hnumber.exists_eq

end FirstFree

/-- The search for a free name **ends**, with the unique name and with no other. -/
theorem firstFree_iff : FirstFree used name free ↔ uniqueName used name = free := by
  constructor
  · intro h
    -- Both names come from a search that has ended, and such a search ends in one way only.
    have hfound := firstFree_uniqueName used name
    generalize uniqueName used name = found at hfound
    cases h with
    | unused h =>
      cases hfound with
      | unused => rfl
      | numbered hused _ => exact absurd hused h
    | numbered hused hnumber =>
      cases hfound with
      | unused h => exact absurd hused h
      | numbered _ hnumber' => exact hnumber'.unique hnumber
  · rintro rfl
    exact firstFree_uniqueName used name

/-! ### Stems -/

/-- Whether **no two underscores** follow each other. -/
def SingleUnderscores (t : Text) : Prop := t.IsChain fun a b => ¬ (a = '_' ∧ b = '_')

/-- What stands **before the suffix** of a name: characters of file names and single underscores, with no
dot and no underscore at the ends. -/
structure IsStem (t : Text) : Prop where
  characters : ∀ c ∈ t, isNameChar c = true ∨ c = '_'
  single : SingleUnderscores t
  begins : ∃ c ∈ t.head?, isNameEdge c = false
  ends : ∃ c ∈ t.getLast?, isNameEdge c = false

theorem ne_underscore {c : Char} (h : isNameEdge c = false) : c ≠ '_' := by
  rintro rfl
  cases h

/-- Squeezing leaves **characters of file names and single underscores**, and it begins with no underscore
within a run. -/
theorem squeeze_spec (inRun : Bool) (t : Text) :
    (∀ c ∈ squeeze inRun t, isNameChar c = true ∨ c = '_') ∧ SingleUnderscores (squeeze inRun t) ∧
      (inRun = true → ∀ c ∈ (squeeze inRun t).head?, c ≠ '_') := by
  have hunderscore : ¬ isNameChar '_' = true := by decide
  fun_induction squeeze inRun t with
  | case1 => exact ⟨List.forall_mem_nil _, .nil, fun _ _ h => nomatch h⟩
  | case2 inRun c t hname ih =>
    obtain ⟨hmem, hsingle, -⟩ := ih
    have hc : c ≠ '_' := by
      rintro rfl
      exact hunderscore hname
    refine ⟨List.forall_mem_cons.2 ⟨.inl hname, hmem⟩, List.isChain_cons.2 ⟨?_, hsingle⟩, fun _ d hd => ?_⟩
    · exact fun d _ h => hc h.1
    · cases hd
      exact hc
  | case3 c t _ ih => exact ih
  | case4 inRun c t _ hrun ih =>
    -- the underscore stands for the run, and what follows in the run is dropped
    obtain ⟨hmem, hsingle, hhead⟩ := ih
    refine ⟨List.forall_mem_cons.2 ⟨.inr rfl, hmem⟩, List.isChain_cons.2 ⟨?_, hsingle⟩, ?_⟩
    · exact fun d hd h => hhead rfl d hd h.2
    · exact fun h => absurd h hrun

/-- A **part of a file name** is a stem, if anything is left of it. -/
theorem isStem_sanitizeComponent {raw : Text} (h : sanitizeComponent raw ≠ []) :
    IsStem (sanitizeComponent raw) := by
  let squeezed := squeeze false (Text.trim raw)
  let front := squeezed.dropWhile isNameEdge
  have hback : sanitizeComponent raw = front.rdropWhile isNameEdge := rfl
  have hfront : front.rdropWhile isNameEdge <+: front := List.rdropWhile_prefix isNameEdge front
  have hwithin : sanitizeComponent raw <:+: squeezed :=
    hback ▸ hfront.isInfix.trans (List.dropWhile_suffix _).isInfix
  obtain ⟨hmem, hsingle, -⟩ := squeeze_spec false (Text.trim raw)
  refine ⟨fun c hc => hmem c (hwithin.subset hc), hsingle.infix hwithin, ?_, ?_⟩
  · -- the first character is the one at which dropping from the front has stopped
    obtain ⟨c, t, hcons⟩ := List.exists_cons_of_ne_nil h
    have hhead : front.head? = some c := by
      obtain ⟨rest, hrest⟩ := hfront
      rw [← hback, hcons] at hrest
      rw [← hrest, List.cons_append, List.head?_cons]
    refine ⟨c, by rw [hcons, List.head?_cons]; rfl, ?_⟩
    have hstop := List.head?_dropWhile_not isNameEdge squeezed
    rw [show (squeezed.dropWhile isNameEdge).head? = some c from hhead] at hstop
    simpa using hstop
  · have hlast := List.rdropWhile_last_not isNameEdge front (hback ▸ h)
    exact ⟨_, List.getLast?_eq_getLast_of_ne_nil (hback ▸ h), Bool.eq_false_iff.2 hlast⟩

theorem singleUnderscores_of_not_mem {t : Text} (h : '_' ∉ t) : SingleUnderscores t := by
  induction t with
  | nil => exact .nil
  | cons c t ih =>
    refine List.isChain_cons.2 ⟨fun d _ hboth => ?_, ih (List.not_mem_of_not_mem_cons h)⟩
    exact List.ne_of_not_mem_cons h hboth.1.symm

/-- The **digits of a number** are a stem. -/
theorem isStem_ofNat (n : Nat) : IsStem (Text.ofNat n) := by
  have hname {c : Char} (hc : c.isDigit = true) : isNameChar c = true := by
    have hascii : c.toNat < 128 := by
      rw [Char.isDigit, Bool.and_eq_true, decide_eq_true_eq, decide_eq_true_eq] at hc
      have hhigh : c.toNat ≤ 57 := hc.2
      omega
    rw [isNameChar, isAlphanumeric, if_pos hascii, Char.isAlphanum, hc, Bool.or_true, Bool.true_or,
      Bool.true_or]
  have hedge {c : Char} (hc : c.isDigit = true) : isNameEdge c = false := by
    rw [isNameEdge, Bool.or_eq_false_iff, beq_eq_false_iff_ne, beq_eq_false_iff_ne]
    constructor <;> (rintro rfl; cases hc)
  have hdigits : ∀ c ∈ Text.ofNat n, c.isDigit = true := fun c => Text.isDigit_of_mem_ofNat
  have hne := Text.ofNat_ne_nil n
  refine ⟨fun c hc => .inl (hname (hdigits c hc)), singleUnderscores_of_not_mem fun h => ?_, ?_, ?_⟩
  · exact absurd (hdigits _ h) (by decide)
  · exact ⟨_, List.head?_eq_some_head hne, hedge (hdigits _ (List.head_mem hne))⟩
  · exact ⟨_, List.getLast?_eq_getLast_of_ne_nil hne, hedge (hdigits _ (List.getLast_mem hne))⟩

namespace IsStem

variable {s t : Text}

theorem ne_nil (h : IsStem t) : t ≠ [] := by
  rintro rfl
  obtain ⟨c, hc, -⟩ := h.begins
  cases hc

/-- Two stems **with an underscore between them** are a stem. -/
theorem append_underscore (hs : IsStem s) (ht : IsStem t) : IsStem (s ++ '_' :: t) where
  characters := by
    rintro c hc
    rcases List.mem_append.1 hc with hc | hc
    · exact hs.characters c hc
    · rcases List.mem_cons.1 hc with rfl | hc
      · exact .inr rfl
      · exact ht.characters c hc
  single := by
    obtain ⟨last, hlast, hedge⟩ := hs.ends
    obtain ⟨first, hfirst, hedge'⟩ := ht.begins
    refine List.isChain_append.2 ⟨hs.single, List.isChain_cons.2 ⟨?_, ht.single⟩, ?_⟩
    · -- what follows the underscore is no other one
      intro c hc hboth
      obtain rfl := Option.mem_unique hfirst hc
      exact ne_underscore hedge' hboth.2
    · intro c hc d _ hboth
      obtain rfl := Option.mem_unique hlast hc
      exact ne_underscore hedge hboth.1
  begins := by
    obtain ⟨c, hc, hedge⟩ := hs.begins
    exact ⟨c, List.mem_head?_append_of_mem_head? hc, hedge⟩
  ends := by
    obtain ⟨c, hc, hedge⟩ := ht.ends
    refine ⟨c, ?_, hedge⟩
    rw [List.append_cons, List.getLast?_append_of_ne_nil _ ht.ne_nil]
    exact hc

/-- **Parts joined** by underscores are a stem, if there are any. -/
theorem join {parts : List Text} (h : ∀ part ∈ parts, IsStem part) (hne : parts ≠ []) :
    IsStem (Text.join "_" parts) := by
  induction parts with
  | nil => exact absurd rfl hne
  | cons part parts ih =>
    obtain ⟨hpart, hparts⟩ := List.forall_mem_cons.1 h
    -- An underscore stands between two parts only, so the last part is a case of its own.
    cases parts with
    | nil => exact hpart
    | cons part' parts =>
      have hjoin : Text.join "_" (part :: part' :: parts) =
          part ++ '_' :: Text.join "_" (part' :: parts) := by
        rw [Text.join]
        · simp
        · exact List.cons_ne_nil _ _
      rw [hjoin]
      exact hpart.append_underscore (ih hparts (List.cons_ne_nil _ _))

end IsStem

/-- What tells a record in a name is a stem: **its fields or its index**. -/
theorem isStem_recordStem (nameFields : List Text) (record : Record) (index : Nat) :
    IsStem (recordStem nameFields record index) := by
  unfold recordStem
  dsimp only
  split
  case h_1 => exact isStem_ofNat index
  case h_2 parts hne =>
    refine IsStem.join (fun part hpart => ?_) hne
    obtain ⟨hmem, hpart⟩ := List.mem_filter.1 hpart
    obtain ⟨value, -, rfl⟩ := List.mem_map.1 hmem
    refine isStem_sanitizeComponent fun hnil => ?_
    rw [hnil] at hpart
    cases hpart

/-- The name of a document is **a stem before the suffix**. -/
theorem exists_documentFileName_eq (filePrefix : Text) (nameFields : List Text) (record : Record)
    (index : Nat) : ∃ stem, IsStem stem ∧
      documentFileName filePrefix nameFields record index = stem ++ documentSuffix := by
  have hstem := isStem_recordStem nameFields record index
  unfold documentFileName
  dsimp only
  split
  case isTrue => exact ⟨_, hstem, rfl⟩
  case isFalse hfront =>
    have hne : sanitizeComponent filePrefix ≠ [] := fun hnil => hfront (by rw [hnil]; rfl)
    exact ⟨_, (isStem_sanitizeComponent hne).append_underscore hstem, by simp⟩

/-- A **number** goes between the stem and the suffix. -/
theorem numberedName_append (stem : Text) (n : Nat) :
    numberedName (stem ++ documentSuffix) n = (stem ++ '_' :: Text.ofNat n) ++ documentSuffix := by
  have hdrop : Text.dropSuffix? documentSuffix (stem ++ documentSuffix) = some stem := by
    rw [Text.dropSuffix?, List.reverse_append, Text.dropPrefix?_eq_some_iff.2 rfl, Option.map_some,
      List.reverse_reverse]
  rw [numberedName, hdrop, Option.getD_some]
  simp

/-- What the search finds for a stem before the suffix **is of that form** itself. -/
theorem FirstFree.exists_eq {stem : Text} (h : FirstFree used (stem ++ documentSuffix) free)
    (hstem : IsStem stem) : ∃ stem', IsStem stem' ∧ free = stem' ++ documentSuffix := by
  rcases h.eq_or_numbered with rfl | ⟨n, rfl⟩
  · exact ⟨stem, hstem, rfl⟩
  · exact ⟨_, hstem.append_underscore (isStem_ofNat n), numberedName_append stem n⟩

/-! ### Safe names -/

/-- Whether a name is **safe**: letters, digits, dashes, dots and single underscores, with the suffix at
the end and no dot or underscore at the beginning. -/
structure IsSafeName (name : Text) : Prop where
  characters : ∀ c ∈ name, isAlphanumeric c = true ∨ c = '-' ∨ c = '.' ∨ c = '_'
  suffix : documentSuffix <:+ name
  begins : ∀ c ∈ name.head?, c ≠ '.' ∧ c ≠ '_'
  single : ¬ ['_', '_'] <:+: name

/-- A **stem before the suffix** is a safe name. -/
theorem IsStem.isSafeName {stem : Text} (h : IsStem stem) : IsSafeName (stem ++ documentSuffix) where
  characters := by
    have hname {c : Char} (hc : isNameChar c = true ∨ c = '_') :
        isAlphanumeric c = true ∨ c = '-' ∨ c = '.' ∨ c = '_' := by
      rw [isNameChar, Bool.or_eq_true, Bool.or_eq_true, beq_iff_eq, beq_iff_eq] at hc
      tauto
    have hsuffix : ∀ c ∈ documentSuffix, isNameChar c = true ∨ c = '_' := by decide
    intro c hc
    rcases List.mem_append.1 hc with hc | hc
    · exact hname (h.characters c hc)
    · exact hname (hsuffix c hc)
  suffix := List.suffix_append _ _
  begins := by
    obtain ⟨first, hfirst, hedge⟩ := h.begins
    intro c hc
    rw [List.head?_append_of_ne_nil _ h.ne_nil] at hc
    obtain rfl := Option.mem_unique hfirst hc
    rw [isNameEdge, Bool.or_eq_false_iff, beq_eq_false_iff_ne, beq_eq_false_iff_ne] at hedge
    exact ⟨hedge.2, hedge.1⟩
  single := by
    have hsuffix : SingleUnderscores documentSuffix := singleUnderscores_of_not_mem (by decide)
    have hwhole : SingleUnderscores (stem ++ documentSuffix) := by
      refine List.isChain_append.2 ⟨h.single, hsuffix, fun c _ d hd hboth => ?_⟩
      -- the suffix begins with a dot
      cases hd
      exact absurd hboth.2 (by decide)
    intro hwithin
    have hpair : SingleUnderscores ['_', '_'] := hwhole.infix hwithin
    exact (List.isChain_cons.1 hpair).1 '_' rfl ⟨rfl, rfl⟩

namespace IsSafeName

theorem not_mem (h : IsSafeName name) {c : Char} (hc : isAlphanumeric c = false)
    (hother : c ≠ '-' ∧ c ≠ '.' ∧ c ≠ '_') : c ∉ name := by
  intro hmem
  rcases h.characters c hmem with halphanumeric | hdash | hdot | hunderscore
  · rw [hc] at halphanumeric
    cases halphanumeric
  · exact hother.1 hdash
  · exact hother.2.1 hdot
  · exact hother.2.2 hunderscore

/-- A safe name is **a single name** of a path. -/
theorem isComponent (h : IsSafeName name) : Path.IsComponent name := by
  have hne : name ≠ [] := by
    rintro rfl
    exact absurd (List.suffix_nil.1 h.suffix) (by decide)
  have hdot {rest : Text} : name ≠ '.' :: rest := by
    rintro rfl
    exact (h.begins '.' rfl).1 rfl
  refine ⟨h.not_mem (by decide) (by decide), ?_, beq_eq_false_iff_ne.2 hdot⟩
  rw [FileSystem.isIdle, Bool.or_eq_false_iff]
  exact ⟨List.isEmpty_eq_false_iff.2 hne, beq_eq_false_iff_ne.2 hdot⟩

/-- A safe name is **no hidden name**. -/
theorem ne_hidden (h : IsSafeName name) (other : Text) : name ≠ "." ++ other ++ ".tmp" := by
  rintro rfl
  exact (h.begins '.' rfl).1 rfl

end IsSafeName

/-! ### One name after the other -/

/-- How the documents of records **are named in turn**: each after its record and its index, by the search
for a name that none before it has. -/
inductive NamedInTurn (options : MergeOptions) : List Text → Nat → List Record → List Text → Prop
  | nil (used : List Text) (index : Nat) : NamedInTurn options used index [] []
  | cons {used : List Text} {index : Nat} {record : Record} {records : List Record} {name : Text}
      {names : List Text}
      (h : FirstFree used (documentFileName options.filePrefix options.nameFields record (index + 1)) name)
      (hothers : NamedInTurn options (name :: used) (index + 1) records names) :
      NamedInTurn options used index (record :: records) (name :: names)

namespace NamedInTurn

variable {options : MergeOptions} {index : Nat} {records : List Record} {names : List Text}

/-- The names are **distinct**, from each other and from those that were used before. -/
theorem nodup (h : NamedInTurn options used index records names) :
    names.Nodup ∧ ∀ name ∈ names, name ∉ used := by
  induction h with
  | nil => exact ⟨.nil, List.forall_mem_nil _⟩
  | cons hfree _ ih =>
    obtain ⟨hnodup, hothers⟩ := ih
    refine ⟨List.nodup_cons.2 ⟨fun hmem => ?_, hnodup⟩, List.forall_mem_cons.2 ⟨hfree.not_mem, ?_⟩⟩
    · exact hothers _ hmem (List.mem_cons_self ..)
    · exact fun name hname hused => hothers name hname (List.mem_cons_of_mem _ hused)

theorem isSafeName (h : NamedInTurn options used index records names) : ∀ name ∈ names, IsSafeName name := by
  induction h with
  | nil => exact List.forall_mem_nil _
  | @cons _ index record _ _ _ hfree _ ih =>
    refine List.forall_mem_cons.2 ⟨?_, ih⟩
    obtain ⟨stem, hstem, hname⟩ :=
      exists_documentFileName_eq options.filePrefix options.nameFields record (index + 1)
    rw [hname] at hfree
    obtain ⟨stem', hstem', rfl⟩ := hfree.exists_eq hstem
    exact hstem'.isSafeName

end NamedInTurn

section Documents

variable {options : MergeOptions} {shared : SharedContext} {total index : Nat} {records : List Record}
  {documents : List Document}

/-- Documents of records **are named in turn**. -/
theorem namedInTurn_documentsOf {template : Template}
    (h : (documentsOf options template shared total used index records).result = .ok documents) :
    NamedInTurn options used index records (documents.map Document.fileName) := by
  induction records generalizing used index documents with
  | nil =>
    cases h
    exact .nil used index
  | cons record records ih =>
    rw [documentsOf] at h
    simp only [Tracked.result_bind, Tracked.result_report, Tracked.result_ofResult,
      Tracked.result_pure] at h
    obtain ⟨archive, -, h⟩ := bind_eq_ok_iff.1 h
    obtain ⟨_, -, h⟩ := bind_eq_ok_iff.1 h
    obtain ⟨others, hothers, h⟩ := bind_eq_ok_iff.1 h
    cases h
    exact .cons (firstFree_uniqueName _ _) (ih hothers)

/-- The **names of separate documents** are given in turn, each by a search for a free name, which always
comes to an end. They are distinct and safe, so that each is a single name of a path; and no document has
the hidden name of one, nor is it ever written where one is hidden. -/
theorem generateEach_fileNames (options : MergeOptions) (template : Bytes) (records : List Record)
    (shared : SharedContext) :
    (∀ used name, ∃! free, FirstFree used name free) ∧
    ∀ documents, (generateEach options template records shared).result = .ok documents →
      NamedInTurn options [] 0 records (documents.map Document.fileName) ∧
      (documents.map Document.fileName).Nodup ∧
      (∀ d ∈ documents, IsSafeName d.fileName ∧ Path.IsComponent d.fileName ∧ '\x00' ∉ d.fileName) ∧
      ∀ d ∈ documents, ∀ d' ∈ documents, d.fileName ≠ "." ++ d'.fileName ++ ".tmp" ∧
        ∀ directory, Path.Apart (StagedFile.of directory ⟨d.fileName, d.bytes⟩).target
          (StagedFile.of directory ⟨d'.fileName, d'.bytes⟩).hidden := by
  refine ⟨fun used name => ⟨uniqueName used name, firstFree_uniqueName used name, fun free hfree => ?_⟩,
    fun documents h => ?_⟩
  · exact (firstFree_iff.1 hfree).symm
  · have hnamed : NamedInTurn options [] 0 records (documents.map Document.fileName) := by
      rw [generateEach] at h
      simp only [Tracked.result_bind, Tracked.result_report, Tracked.result_ofResult] at h
      obtain ⟨_, -, h⟩ := bind_eq_ok_iff.1 h
      obtain ⟨opened, -, h⟩ := bind_eq_ok_iff.1 h
      obtain ⟨_, -, h⟩ := bind_eq_ok_iff.1 h
      exact namedInTurn_documentsOf h
    -- A safe name does not begin with a period, and a hidden name does.
    have hsafe : ∀ d ∈ documents, IsSafeName d.fileName := fun d hd =>
      hnamed.isSafeName _ (List.mem_map_of_mem hd)
    refine ⟨hnamed, hnamed.nodup.1, fun d hd => ?_, fun d hd d' hd' => ?_⟩
    · exact ⟨hsafe d hd, (hsafe d hd).isComponent, (hsafe d hd).not_mem (by decide) (by decide)⟩
    · have hne := (hsafe d hd).ne_hidden d'.fileName
      exact ⟨hne, Path.apart_join (hsafe d hd).isComponent (hsafe d' hd').isComponent.hidden hne⟩

end Documents

/-- Options that name documents after the field `x` alone. -/
def namingOptions : MergeOptions := { uncheckedOptions with filePrefix := [], nameFields := ["x"] }

/-- The second name is taken and gets a number; the third **is taken by that**, and gets another number. -/
theorem generateEach_fileNames_that_collide :
    ∃ documents, (generateEach namingOptions (templateOf paragraphText)
        [recordOf "A/B", recordOf "A B", recordOf "A B 2"] .empty).result = .ok documents ∧
      documents.map Document.fileName =
        ["A_B.docx".toList, "A_B_2.docx".toList, "A_B_2_2.docx".toList] ∧
      (documents.map Document.fileName).Nodup ∧ ∀ d ∈ documents, IsSafeName d.fileName := by
  have hunchecked (text : Text) : namingOptions.validates = true → checkWellFormed text = .ok () :=
    fun h => nomatch h
  obtain ⟨documents, hdocuments⟩ : ∃ documents, (generateEach namingOptions (templateOf paragraphText)
      [recordOf "A/B", recordOf "A B", recordOf "A B 2"] .empty).result = .ok documents :=
    generateEach_succeeds_iff.2 ⟨⟨paragraphTemplate⟩, fun _ _ =>
      ⟨_, result_generate_eq_ok_iff.2 ⟨paragraphTemplate, hunchecked _, rfl⟩⟩⟩
  obtain ⟨hnamed, hnodup, hsafe, -⟩ := (generateEach_fileNames _ _ _ _).2 documents hdocuments
  refine ⟨documents, hdocuments, ?_, hnodup, fun d hd => (hsafe d hd).1⟩
  -- the search finds no other names than the program
  generalize documents.map Document.fileName = names at hnamed
  obtain _ | ⟨hfirst, hnamed⟩ := hnamed
  obtain _ | ⟨hsecond, hnamed⟩ := hnamed
  obtain _ | ⟨hthird, hnamed⟩ := hnamed
  cases hnamed
  obtain rfl := firstFree_iff.1 hfirst
  obtain rfl := firstFree_iff.1 hsecond
  obtain rfl := firstFree_iff.1 hthird
  decide +kernel

end MailMerge
