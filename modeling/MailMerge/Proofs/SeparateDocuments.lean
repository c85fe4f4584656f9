import Mathlib.Data.List.Forall2
import MailMerge.Proofs.Merging

/-!
# A document for each record

Records are put into one document, or each into a document of its own. The second does for every record
what the first does for a list of that record alone: it makes the same documents but for their names, and
it fails where the first one of these fails. Hence, without breaks, what stands in the place of the region
in the one document is what stands there in the documents of the records, one behind the other.

* `IsDocumentOf` is the document of one record alone, `IsFirstError` the first error of such documents,
  and `IsOpeningError` the error of a template that does not open;
* `OpenedTemplate.HoldsRegion` says what a document holds in the place of the region;
* `OpenedTemplate.result_documentsOf_cons` — the step: the document of the first record, or its error;
* `OpenedTemplate.documentsOf_eq_ok` and `OpenedTemplate.documentsOf_eq_error_iff` — the run;
* `generateEach_agrees` — both ways of generating agree.
-/

namespace MailMerge

/-! ### The specification -/

section Specification

variable (options : MergeOptions) (template : Bytes) (shared : SharedContext)

/-- Whether a document is **that of a record alone**, up to its name: it is the same archive, and it
holds one copy. -/
structure IsDocumentOf (record : Record) (document : Document) : Prop where
  exists_alone : ∃ alone, (generate options template [record] shared).result = .ok alone ∧
    document.archive = alone.archive
  copies_eq : document.copies = 1

/-- Whether an error is **the first** that the documents of single records meet. -/
def IsFirstError (records : List Record) (e : MergeError) : Prop :=
  ∃ before record after, records = before ++ record :: after ∧
    (∀ r ∈ before, ∃ document, (generate options template [r] shared).result = .ok document) ∧
    (generate options template [record] shared).result = .error e

end Specification

/-- Why a template **does not open**: it is no package, or it lacks a marker. -/
inductive IsOpeningError (names : MarkerNames) (template : Bytes) : MergeError → Prop
  | package {fault : PackageFault} (h : Package.ofBytes? template = .error fault) :
      IsOpeningError names template (.malformedPackage fault)
  | region {package : Package} {missing : MissingMarker}
      (hpackage : Package.ofBytes? template = .ok package)
      (h : locate names package.mainText = .error missing) :
      IsOpeningError names template (.markerNotFound missing)

namespace OpenedTemplate

variable {names : MarkerNames} {template : Bytes} (t : OpenedTemplate names template)

/-- Whether a document holds a text **in the place of the region**, with the section properties once
behind it. -/
def HoldsRegion (document : Document) (text : Text) : Prop :=
  (document.archive.part? t.package.mainName).map Part.text =
    some (.ok (t.region.before ++ text ++ t.location.trailing ++ t.region.after))

/-- The archive with the copy of **one record**. -/
def archiveOf (options : MergeOptions) (shared : SharedContext) (record : Record) :
    Except MergeError Archive :=
  (Template.mk t.package t.location).assemble options.validates
    (options.copy t.location.template shared record)

end OpenedTemplate

/-! ### Opening -/

/-- A template that is not opened **has an opening error**. -/
theorem ofBytes?_eq_error_iff {names : MarkerNames} {template : Bytes} {e : MergeError} :
    Template.ofBytes? names template = .error e ↔ IsOpeningError names template e := by
  cases hpackage : Package.ofBytes? template with
  | error fault =>
    have hopen : Template.ofBytes? names template = .error (.malformedPackage fault) := by
      rw [Template.ofBytes?, hpackage]
      rfl
    rw [hopen]
    constructor
    · rintro ⟨⟩
      exact .package hpackage
    · rintro (⟨h⟩ | ⟨hpackage', -⟩)
      · rw [hpackage] at h
        cases h
        rfl
      · rw [hpackage] at hpackage'
        cases hpackage'
  | ok package =>
    have hopen : Template.ofBytes? names template = Template.ofPackage? names package := by
      rw [Template.ofBytes?, hpackage]
      rfl
    rw [hopen, Template.ofPackage?]
    -- once there is a package, only its region may be missing
    constructor
    · intro h
      cases hlocate : locate names package.mainText with
      | ok location =>
        rw [hlocate] at h
        cases h
      | error missing =>
        rw [hlocate] at h
        cases h
        exact .region hpackage hlocate
    · rintro (⟨h⟩ | ⟨hpackage', hlocate⟩)
      · rw [hpackage] at h
        cases h
      · rw [hpackage] at hpackage'
        cases hpackage'
        rw [hlocate]
        rfl

/-! ### One record after the other -/

namespace OpenedTemplate

variable {options : MergeOptions} {template : Bytes} {shared : SharedContext}
  (t : OpenedTemplate options.markers template) {total index : Nat} {used : List Text}
  {record : Record} {records : List Record} {documents : List Document} {e : MergeError}

/-- Generating from **one record alone** gives its archive. -/
theorem result_generate_single (record : Record) :
    (generate options template [record] shared).result =
      (t.archiveOf options shared record).map fun archive => ⟨options.batchName, archive, 1⟩ := by
  have hcopy : options.copies t.location shared [record] =
      options.copy t.location.template shared record := by
    simp [MergeOptions.copies, List.intercalate]
  rw [result_generate, t.ofBytes?_eq]
  change ((Template.mk t.package t.location).assemble _ _).map _ = _
  rw [hcopy, archiveOf]
  rfl

/-- One record alone gives a document **if there is an archive of it**. -/
theorem exists_alone_iff :
    (∃ document, (generate options template [record] shared).result = .ok document) ↔
      ∃ archive, t.archiveOf options shared record = .ok archive := by
  rw [t.result_generate_single]
  constructor
  · rintro ⟨document, h⟩
    obtain ⟨archive, harchive, -⟩ := map_eq_ok_iff.1 h
    exact ⟨archive, harchive⟩
  · rintro ⟨archive, h⟩
    exact ⟨_, map_eq_ok_iff.2 ⟨archive, h, rfl⟩⟩

theorem error_alone_iff :
    (generate options template [record] shared).result = .error e ↔
      t.archiveOf options shared record = .error e := by
  rw [t.result_generate_single]
  exact map_eq_error_iff

/-- The **step** of generating a document for each record: the archive of the first record or its error,
and the documents of the others behind it. -/
theorem result_documentsOf_cons (shared : SharedContext) (total : Nat) (used : List Text) (index : Nat)
    (record : Record) (records : List Record) :
    ∃ name, (documentsOf options ⟨t.package, t.location⟩ shared total used index
        (record :: records)).result =
      t.archiveOf options shared record >>= fun archive =>
        (documentsOf options ⟨t.package, t.location⟩ shared total (name :: used) (index + 1)
          records).result.map fun documents => ⟨name, archive, 1⟩ :: documents := by
  refine ⟨uniqueName used
    (documentFileName options.filePrefix options.nameFields record (index + 1)), ?_⟩
  rw [documentsOf]
  simp only [Tracked.result_bind, Tracked.result_report, Tracked.result_ofResult,
    Tracked.result_pure]
  change (t.archiveOf options shared record >>= _) = (t.archiveOf options shared record >>= _)
  -- naming and reporting do not fail
  congr 1

/-- The documents of a run are **those of its records**, in their order. -/
theorem documentsOf_eq_ok
    (h : (documentsOf options ⟨t.package, t.location⟩ shared total used index records).result =
      .ok documents) :
    List.Forall₂ (fun record document =>
      t.archiveOf options shared record = .ok document.archive ∧ document.copies = 1)
      records documents := by
  induction records generalizing used index documents with
  | nil =>
    cases h
    exact .nil
  | cons record records ih =>
    obtain ⟨name, hstep⟩ := t.result_documentsOf_cons shared total used index record records
    rw [hstep] at h
    obtain ⟨archive, harchive, h⟩ := bind_eq_ok_iff.1 h
    obtain ⟨others, hothers, rfl⟩ := map_eq_ok_iff.1 h
    exact .cons ⟨harchive, rfl⟩ (ih hothers)

/-- **Where the first failure stands** in a list of records: at its head, or behind a head that does
not fail. -/
theorem exists_first_failure_cons_iff {Succeeds Fails : Record → Prop} {first : Record} :
    (∃ before record after, first :: records = before ++ record :: after ∧
        (∀ r ∈ before, Succeeds r) ∧ Fails record) ↔
      Fails first ∨ Succeeds first ∧ ∃ before record after, records = before ++ record :: after ∧
        (∀ r ∈ before, Succeeds r) ∧ Fails record := by
  constructor
  · rintro ⟨before, record, after, h, hbefore, hfails⟩
    cases before with
    | nil =>
      obtain ⟨rfl, -⟩ := List.cons.inj h
      exact .inl hfails
    | cons r before =>
      obtain ⟨rfl, hrest⟩ := List.cons.inj h
      obtain ⟨hfirst, hbefore⟩ := List.forall_mem_cons.1 hbefore
      exact .inr ⟨hfirst, before, record, after, hrest, hbefore, hfails⟩
  · rintro (hfails | ⟨hfirst, before, record, after, rfl, hbefore, hfails⟩)
    · exact ⟨[], first, records, rfl, List.forall_mem_nil _, hfails⟩
    · exact ⟨first :: before, record, after, rfl, List.forall_mem_cons.2 ⟨hfirst, hbefore⟩, hfails⟩

/-- A run fails **with the error of the first record that fails**. -/
theorem documentsOf_eq_error_iff :
    (documentsOf options ⟨t.package, t.location⟩ shared total used index records).result =
        .error e ↔
      ∃ before record after, records = before ++ record :: after ∧
        (∀ r ∈ before, ∃ archive, t.archiveOf options shared r = .ok archive) ∧
        t.archiveOf options shared record = .error e := by
  induction records generalizing used index with
  | nil =>
    constructor
    · intro h
      cases h
    · rintro ⟨before, record, after, h, -⟩
      cases before <;> cases h
  | cons first records ih =>
    obtain ⟨name, hstep⟩ := t.result_documentsOf_cons shared total used index first records
    rw [hstep, exists_first_failure_cons_iff]
    cases harchive : t.archiveOf options shared first with
    | error e' =>
      -- nothing behind the first record matters
      have hnot : ¬ ∃ archive, (Except.error e' : Except MergeError Archive) = .ok archive :=
        fun ⟨_, h⟩ => nomatch h
      rw [iff_false_intro hnot, false_and, or_false]
      exact ⟨fun h => by cases h; rfl, fun h => by cases h; rfl⟩
    | ok archive =>
      change Except.map _ (documentsOf _ _ _ _ _ _ _).result = _ ↔ _
      rw [map_eq_error_iff, ih]
      constructor
      · exact fun h => .inr ⟨⟨archive, rfl⟩, h⟩
      · rintro (h | ⟨-, h⟩)
        · cases h
        · exact h

/-- There is a document for each record **if there is an archive of each**. -/
theorem exists_documentsOf_iff :
    (∃ documents, (documentsOf options ⟨t.package, t.location⟩ shared total used index
      records).result = .ok documents) ↔
      ∀ record ∈ records, ∃ archive, t.archiveOf options shared record = .ok archive := by
  constructor
  · rintro ⟨documents, h⟩
    have harchives := (t.documentsOf_eq_ok h).imp
      (S := fun record _ => (∃ archive, t.archiveOf options shared record = .ok archive) ∧ True)
      fun record document hdocument => ⟨⟨_, hdocument.1⟩, trivial⟩
    exact ((List.forall₂_and_left _ _).1 harchives).1
  · intro h
    cases hrun : (documentsOf options ⟨t.package, t.location⟩ shared total used index
        records).result with
    | ok documents => exact ⟨documents, rfl⟩
    | error e =>
      -- the record that fails would have an archive
      obtain ⟨before, record, after, rfl, -, herror⟩ := t.documentsOf_eq_error_iff.1 hrun
      obtain ⟨archive, harchive⟩ := h record (by simp)
      rw [harchive] at herror
      cases herror

/-- Generating a document for each record of an opened template is a run over the records. -/
theorem result_generateEach (records : List Record) :
    (generateEach options template records shared).result =
      (documentsOf options ⟨t.package, t.location⟩ shared records.length [] 0 records).result := by
  rw [generateEach]
  simp only [Tracked.result_bind, Tracked.result_report, Tracked.result_ofResult, t.ofBytes?_eq]
  rfl

/-! ### Regions -/

/-- The document of all records holds **their copies** in the place of the region. -/
theorem holdsRegion_generate {document : Document}
    (h : (generate options template records shared).result = .ok document) :
    t.HoldsRegion document (options.copies t.location shared records) := by
  obtain ⟨t', -, rfl⟩ := result_generate_eq_ok_iff.1 h
  obtain rfl := t'.eq t
  exact part?_repackage t'.package_eq _

/-- The document of one record holds **its copy** in the place of the region. -/
theorem holdsRegion_archiveOf {document : Document}
    (h : t.archiveOf options shared record = .ok document.archive) :
    t.HoldsRegion document (options.copy t.location.template shared record) := by
  obtain ⟨text, htext, harchive⟩ := bind_eq_ok_iff.1 h
  rw [mapError_eq_ok_iff] at htext
  obtain ⟨rfl, -⟩ := t.mainPart_eq_ok_iff.1 htext
  rw [HoldsRegion, ← Except.ok.inj harchive]
  exact part?_repackage t.package_eq _

end OpenedTemplate

theorem intercalate_nil_left (ts : List Text) : List.intercalate [] ts = ts.flatten := by
  rw [← Text.join_eq_intercalate]
  fun_induction Text.join [] ts with
  | case1 => rfl
  | case2 t => simp
  | case3 t ts hne ih => rw [ih, List.flatten_cons, List.append_nil]

/-- Without breaks the copies of records stand **one behind the other**. -/
theorem copies_of_no_breaks {options : MergeOptions} (h : options.breakKind = .none)
    (location : Location) (shared : SharedContext) (records : List Record) :
    options.copies location shared records =
      (records.map (options.copy location.template shared)).flatten := by
  have hseparator : options.separator location = [] := by
    rw [MergeOptions.separator, h]
    rfl
  rw [MergeOptions.copies, hseparator, intercalate_nil_left]

/-! ### Both ways of generating -/

section Agreement

variable {options : MergeOptions} {template : Bytes} {shared : SharedContext}
  {records : List Record} {e : MergeError}

/-- A template that opens has no opening error. -/
theorem not_isOpeningError (t : OpenedTemplate options.markers template) :
    ¬ IsOpeningError options.markers template e := by
  rw [← ofBytes?_eq_error_iff, t.ofBytes?_eq]
  exact fun h => nomatch h

/-- Nothing comes out of a template that **does not open**, but the error of opening it. -/
theorem generateEach_of_isOpeningError (h : IsOpeningError options.markers template e) :
    (generateEach options template records shared).result = .error e := by
  rw [generateEach]
  simp only [Tracked.result_bind, Tracked.result_report, Tracked.result_ofResult,
    ofBytes?_eq_error_iff.2 h]
  rfl

/-- A template opens, **or it has an opening error**. -/
theorem opened_or_isOpeningError (names : MarkerNames) (template : Bytes) :
    Nonempty (OpenedTemplate names template) ∨ ∃ e, IsOpeningError names template e := by
  cases hopen : Template.ofBytes? names template with
  | ok opened =>
    obtain ⟨t, -⟩ := exists_opened hopen
    exact .inl ⟨t⟩
  | error e => exact .inr ⟨e, ofBytes?_eq_error_iff.1 hopen⟩

theorem generateEach_succeeds_iff :
    (∃ documents, (generateEach options template records shared).result = .ok documents) ↔
      Nonempty (OpenedTemplate options.markers template) ∧
        ∀ record ∈ records, ∃ document,
          (generate options template [record] shared).result = .ok document := by
  rcases opened_or_isOpeningError options.markers template with ⟨⟨t⟩⟩ | ⟨e, he⟩
  · rw [t.result_generateEach, t.exists_documentsOf_iff]
    simp only [t.exists_alone_iff]
    exact ⟨fun h => ⟨⟨t⟩, h⟩, fun h => h.2⟩
  · rw [generateEach_of_isOpeningError he]
    constructor
    · rintro ⟨documents, h⟩
      cases h
    · rintro ⟨⟨t⟩, -⟩
      exact absurd he (not_isOpeningError t)

theorem generateEach_eq_error_iff :
    (generateEach options template records shared).result = .error e ↔
      IsOpeningError options.markers template e ∨
        Nonempty (OpenedTemplate options.markers template) ∧
          IsFirstError options template shared records e := by
  rcases opened_or_isOpeningError options.markers template with ⟨⟨t⟩⟩ | ⟨e', he'⟩
  · rw [t.result_generateEach, t.documentsOf_eq_error_iff]
    simp only [IsFirstError, t.exists_alone_iff, t.error_alone_iff]
    constructor
    · exact fun h => .inr ⟨⟨t⟩, h⟩
    · rintro (h | ⟨-, h⟩)
      · exact absurd h (not_isOpeningError t)
      · exact h
  · rw [generateEach_of_isOpeningError he']
    constructor
    · intro h
      cases h
      exact .inl he'
    · rintro (h | ⟨⟨t⟩, -⟩)
      · -- a template has one opening error only
        rw [← ofBytes?_eq_error_iff] at h he'
        rw [h] at he'
        cases he'
        rfl
      · exact absurd he' (not_isOpeningError t)

end Agreement

/-- **Generating one document for each record agrees** with generating from each record alone. There are
documents if and only if the template opens and every record alone has one; each of them is that of its
record, in the order of the records; and otherwise the error is that of opening the template or that of
the first record that fails alone. Without breaks, the document of all records holds in the place of the
region what these documents hold there, one behind the other. -/
theorem generateEach_agrees (options : MergeOptions) (template : Bytes) (records : List Record)
    (shared : SharedContext) :
    ((∃ documents, (generateEach options template records shared).result = .ok documents) ↔
      Nonempty (OpenedTemplate options.markers template) ∧
        ∀ record ∈ records, ∃ document,
          (generate options template [record] shared).result = .ok document) ∧
    (∀ documents, (generateEach options template records shared).result = .ok documents →
      List.Forall₂ (IsDocumentOf options template shared) records documents) ∧
    (∀ e, (generateEach options template records shared).result = .error e ↔
      IsOpeningError options.markers template e ∨
        Nonempty (OpenedTemplate options.markers template) ∧
          IsFirstError options template shared records e) ∧
    (∀ document documents, options.breakKind = .none →
      (generate options template records shared).result = .ok document →
      (generateEach options template records shared).result = .ok documents →
      ∃ (t : OpenedTemplate options.markers template) (regions : List Text),
        List.Forall₂ t.HoldsRegion documents regions ∧ t.HoldsRegion document regions.flatten) := by
  refine ⟨generateEach_succeeds_iff, fun documents hdocuments => ?_,
    fun e => generateEach_eq_error_iff, fun document documents hbreaks hdocument hdocuments => ?_⟩
  · -- the archive of a record does not depend on its name
    obtain ⟨⟨t⟩, -⟩ := generateEach_succeeds_iff.1 ⟨documents, hdocuments⟩
    rw [t.result_generateEach] at hdocuments
    refine (t.documentsOf_eq_ok hdocuments).imp fun record document ⟨harchive, hcopies⟩ => ?_
    refine ⟨⟨⟨options.batchName, document.archive, 1⟩, ?_, rfl⟩, hcopies⟩
    rw [t.result_generate_single, harchive]
    rfl
  · -- both are read off the same opened template
    obtain ⟨⟨t⟩, -⟩ := generateEach_succeeds_iff.1 ⟨documents, hdocuments⟩
    rw [t.result_generateEach] at hdocuments
    refine ⟨t, records.map (options.copy t.location.template shared), ?_, ?_⟩
    · rw [List.forall₂_map_right_iff]
      exact (t.documentsOf_eq_ok hdocuments).flip.imp fun document record ⟨harchive, _⟩ =>
        t.holdsRegion_archiveOf harchive
    · rw [← copies_of_no_breaks hbreaks]
      exact t.holdsRegion_generate hdocument

end MailMerge
