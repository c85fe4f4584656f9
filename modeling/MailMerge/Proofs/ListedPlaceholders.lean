import Mathlib.Data.List.Forall2
import MailMerge.Inspection
import MailMerge.Proofs.DataSafety
import MailMerge.Proofs.RunSplitting
import MailMerge.Proofs.TokenRows

/-!
# The placeholders that a report lists

A report lists the names that stand in the tokens of a region, after the tokens that were split have
been joined. Filling in a copy looks up these names and no others, so the values of the listed names
are all that a document takes from its records. Each listed name is looked up as well: a value for
it shows.

The scan for names and the filling in go over the same matches of one text. So the first half says
that what is put in place of a match depends on the name in the match alone (`copy_congr`), and the
second that a copy in which a match is filled is longer than one in which it is dropped
(`copy_ne_of_listed`).

* `MergeOptions.valueOf` is what stands for a name in the copy of a record;
* `mem_scanPlaceholders` — the names that are listed are those in the tokens;
* `inspect_lists_names_read` — the names that a report lists are those that generating reads.
-/

namespace MailMerge

/-! ### The specification -/

/-- The **value of a name** in the copy of a record. A name that has none is empty. -/
def MergeOptions.valueOf (options : MergeOptions) (shared : SharedContext) (record : Record)
    (name : Text) : Text :=
  ((Substitutions.resolve options.format options.aliases shared record).lookup name).getD []

/-- The record that gives a name the value `x`, and no other name any. -/
def crossed (name : Text) : Record := ⟨[(name, .text "x")]⟩

variable {options : MergeOptions} {template : Bytes} {shared shared' : SharedContext}
  {record record' : Record} {convention : PlaceholderConvention} {d : Delimiters} {name t : Text}

/-! ### Names in tokens -/

/-- The names that are listed are **those in the tokens**. -/
theorem mem_scanPlaceholders (hd : convention.delimiters? = some d) :
    name ∈ scanPlaceholders convention t ↔
      ∃ token ∈ matchesIn d.token t, d.tokenName token = name := by
  rw [scanPlaceholders, hd]
  dsimp only
  rw [mem_firstOccurrences, List.mem_map]
  exact and_iff_left List.not_mem_nil

/-! ### Reports -/

/-- A report is made from the template **as it is opened** for generating. -/
theorem exists_report_of_inspect {names : MarkerNames} {report : TemplateReport}
    (h : inspect names template = .ok report) :
    ∃ opened : OpenedTemplate names template,
      report = (Template.mk opened.package opened.location).report := by
  obtain ⟨opened, hopen, hreport⟩ := bind_eq_ok_iff.1 h
  obtain ⟨t, rfl⟩ := exists_opened hopen
  exact ⟨t, (Except.ok.inj hreport).symm⟩

/-- A template that is opened has a report. -/
theorem OpenedTemplate.inspect_eq {names : MarkerNames} (opened : OpenedTemplate names template) :
    inspect names template = .ok (Template.mk opened.package opened.location).report :=
  bind_eq_ok_iff.2 ⟨_, opened.ofBytes?_eq, rfl⟩

/-! ### Copies -/

/-- In a region with tokens, a copy is the template with its tokens filled in. -/
theorem copy_eq_substituteTokens (hd : (PlaceholderConvention.detect t).delimiters? = some d)
    (shared : SharedContext) (record : Record) :
    options.copy t shared record =
      substituteTokens d (.resolve options.format options.aliases shared record)
        (repairTokens (.detect t) t) := by
  unfold MergeOptions.copy substitute
  dsimp only
  rw [hd]

/-- Records that give the listed names the same values **have the same copy**. -/
theorem copy_congr (hd : (PlaceholderConvention.detect t).delimiters? = some d)
    (h : ∀ name ∈ scanPlaceholders (.detect t) (repairTokens (.detect t) t),
      options.valueOf shared record name = options.valueOf shared' record' name) :
    options.copy t shared record = options.copy t shared' record' := by
  rw [copy_eq_substituteTokens hd, copy_eq_substituteTokens hd]
  -- the two copies differ at most in what stands for a token
  refine rewriteMatches_congr fun token htoken => ?_
  exact h (d.tokenName token) ((mem_scanPlaceholders hd).2 ⟨token, htoken, rfl⟩)

/-- The table of a record with one field, where nothing else gives values. -/
theorem resolve_crossed {rules : FormatRules} (hshared : shared.values = .empty)
    (hformat : rules.dateFormat? name = none) :
    Substitutions.resolve rules [] shared (crossed name) = ⟨[], [(name, "x")]⟩ := by
  have hshadows : shared.shadows name = false := by
    simp [SharedContext.shadows, SharedContext.get?, hshared, Record.get?, Record.empty]
  have hrender : renderField rules name (.text ['x']) = ['x'] := by
    rw [renderField, hformat, renderValue]
    -- the value has neither markup nor line feeds in it
    cases rules.lineBreaks
    · rfl
    · exact (by decide +kernel : withLineBreaks (escapeMarkup ['x']) = ['x'])
  simp [Substitutions.resolve, crossed, hshared, Record.empty, hshadows, upsert, hrender]

theorem resolve_empty {rules : FormatRules} (hshared : shared.values = .empty) :
    Substitutions.resolve rules [] shared .empty = .empty := by
  simp [Substitutions.resolve, hshared, Record.empty, Substitutions.empty]

/-- A value for a listed name **shows in the copy**. -/
theorem copy_ne_of_listed (hd : (PlaceholderConvention.detect t).delimiters? = some d)
    (hname : name ∈ scanPlaceholders (.detect t) (repairTokens (.detect t) t))
    (haliases : options.aliases = []) (hshared : shared.values = .empty)
    (hformat : options.format.dateFormat? name = none) :
    options.copy t shared (crossed name) ≠ options.copy t shared .empty := by
  intro heq
  rw [copy_eq_substituteTokens hd, copy_eq_substituteTokens hd, haliases,
    resolve_crossed hshared hformat, resolve_empty hshared] at heq
  obtain ⟨token, htoken, hlooked⟩ := (mem_scanPlaceholders hd).1 hname
  -- without values all tokens are dropped, and the one of the name is not if it has a value
  have hnil := eq_nil_of_rewriteMatches_eq heq token htoken
  rw [hlooked, Substitutions.lookup, List.nil_append, List.lookup_cons, beq_self_eq_true] at hnil
  cases hnil

/-! ### Generating -/

/-- Generating depends on **the copies alone**: as many records with the same copies give the same
reports, and the same document or the same error. -/
theorem generate_congr (opened : OpenedTemplate options.markers template)
    {records records' : List Record}
    (h : List.Forall₂ (fun record record' => options.copy opened.location.template shared record =
      options.copy opened.location.template shared' record') records records') :
    generate options template records shared = generate options template records' shared' := by
  have hcopies : records.map (options.copy opened.location.template shared) =
      records'.map (options.copy opened.location.template shared') := by
    rwa [← List.forall₂_eq_eq_eq, List.forall₂_map_left_iff, List.forall₂_map_right_iff]
  have hmerged : (options.replicator ⟨opened.package, opened.location⟩).copies shared records =
      (options.replicator ⟨opened.package, opened.location⟩).copies shared' records' := by
    rw [copies_replicator, copies_replicator, MergeOptions.copies, MergeOptions.copies, hcopies]
  unfold generate
  rw [opened.ofBytes?_eq, h.length_eq]
  -- what comes after the opening is the same for both
  refine congrArg (Tracked.report (.phase "Locating section") >>= ·) (funext fun _ => ?_)
  change Tracked.bind _ _ = Tracked.bind _ _
  simp only [Tracked.bind, Tracked.result_ofResult, hmerged]

/-- **A report lists the names that generating reads.** Where the region has tokens, two lists of
records of one length that give the listed names the same values make the same document, or fail
with the same error. And each listed name makes a difference: with no aliases, shared values or date
format that could hide it, and no check of the document, a record that gives it a value makes
another main part than an empty record. -/
theorem inspect_lists_names_read (options : MergeOptions) (template : Bytes)
    (report : TemplateReport)
    (hinspect : inspect options.markers template = .ok report)
    (hdelimited : report.convention ≠ .bare) :
    (∀ (records records' : List Record) (shared shared' : SharedContext),
      List.Forall₂ (fun record record' => ∀ name ∈ report.placeholders,
        options.valueOf shared record name = options.valueOf shared' record' name)
        records records' →
      generate options template records shared = generate options template records' shared') ∧
    ∀ name ∈ report.placeholders, ∀ shared : SharedContext,
      options.aliases = [] → shared.values = .empty → options.format.dateFormat? name = none →
      options.validates = false →
      ∃ document document' text text',
        (generate options template [crossed name] shared).result = .ok document ∧
        (generate options template [.empty] shared).result = .ok document' ∧
        (document.archive.part? report.mainName).map Part.text = some (.ok text) ∧
        (document'.archive.part? report.mainName).map Part.text = some (.ok text') ∧
        text ≠ text' := by
  obtain ⟨opened, rfl⟩ := exists_report_of_inspect hinspect
  have hconvention : PlaceholderConvention.detect opened.location.template ≠ .bare := hdelimited
  obtain ⟨d, hd⟩ : ∃ d,
      (PlaceholderConvention.detect opened.location.template).delimiters? = some d := by
    cases h : PlaceholderConvention.detect opened.location.template with
    | braces => exact ⟨_, rfl⟩
    | angles => exact ⟨_, rfl⟩
    | bare => exact absurd h hconvention
  refine ⟨fun records records' shared shared' h => ?_,
    fun name hname shared haliases hshared hformat hvalidates => ?_⟩
  · exact generate_congr opened (h.imp fun record record' hvalues => copy_congr hd hvalues)
  · have hunchecked (text : Text) : options.validates = true → checkWellFormed text = .ok () := by
      rw [hvalidates]
      exact fun h => nomatch h
    have hmade (records : List Record) :
        (generate options template records shared).result = .ok ⟨options.batchName,
          opened.package.repackage (opened.merged options shared records), records.length⟩ :=
      result_generate_eq_ok_iff.2 ⟨opened, hunchecked _, rfl⟩
    refine ⟨_, _, _, _, hmade _, hmade _, part?_repackage opened.package_eq _,
      part?_repackage opened.package_eq _, fun heq => ?_⟩
    -- what stands around the one copy is the same in both main parts
    simp only [OpenedTemplate.merged, MergeOptions.copies, List.map_cons, List.map_nil,
      List.intercalate_singleton, List.append_cancel_right_eq, List.append_cancel_left_eq] at heq
    exact copy_ne_of_listed hd hname haliases hshared hformat heq

/-- Options without aliases and without a check of the document. -/
def uncheckedOptions : MergeOptions := { lineBreakOptions with aliases := [], validates := false }

/-- The template of a paragraph reads the name `x` and **no other**. -/
theorem paragraph_reads_one_name :
    ∃ report, inspect uncheckedOptions.markers (templateOf paragraphText) = .ok report ∧
      report.convention ≠ .bare ∧ report.placeholders = ["x".toList] ∧
      generate uncheckedOptions (templateOf paragraphText)
          [⟨[("x", .text "1"), ("y", .text "2")]⟩] .empty =
        generate uncheckedOptions (templateOf paragraphText) [⟨[("x", .text "1")]⟩] .empty ∧
      ∃ document document' text text',
        (generate uncheckedOptions (templateOf paragraphText) [crossed "x"] .empty).result =
          .ok document ∧
        (generate uncheckedOptions (templateOf paragraphText) [.empty] .empty).result =
          .ok document' ∧
        (document.archive.part? report.mainName).map Part.text = some (.ok text) ∧
        (document'.archive.part? report.mainName).map Part.text = some (.ok text') ∧
        text ≠ text' := by
  have hinspect := OpenedTemplate.inspect_eq paragraphTemplate
  have hlisted :
      (Template.mk paragraphTemplate.package paragraphTemplate.location).report.placeholders =
        ["x".toList] := by
    decide +kernel
  obtain ⟨hsame, hshows⟩ :=
    inspect_lists_names_read uncheckedOptions (templateOf paragraphText) _ hinspect
      (by decide +kernel)
  refine ⟨_, hinspect, by decide +kernel, hlisted, hsame _ _ .empty .empty ?_, ?_⟩
  · refine .cons (fun name hname => ?_) .nil
    rw [hlisted, List.mem_singleton] at hname
    rw [hname]
    decide +kernel
  · exact hshows "x" (by rw [hlisted]; exact List.mem_singleton_self _) .empty rfl rfl
      (by decide +kernel) rfl

end MailMerge
