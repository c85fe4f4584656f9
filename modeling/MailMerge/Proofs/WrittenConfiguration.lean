import Mathlib.Data.List.Nodup
import MailMerge.Configuration.Printer
import MailMerge.Configuration.Reader
import MailMerge.Proofs.BuiltTables

/-!
# A written configuration is read back

Each section of a configuration is written as a table with an entry for each setting that is set. What is
not set has no entry and is read as not set. The two lists of tables and texts that could be mistaken for
missing ones are written even if they are empty: an empty list of aliases has an entry of its own, while
any others are rows behind the section.

* `TemplateSettings.entries` and so on are the entries that a section is written as, and each section is
  read back from them;
* `Configuration.root` puts the sections together, and `Configuration.spellsLines_toText` and
  `Configuration.builds_root` say that the text of a configuration builds it;
* `Configuration.InBounds` bounds the numbers, and `Configuration.inBounds_of_ofText?` says that they are in
  bounds where a configuration was read;
* `Configuration.ofText?_toText` — a written configuration is read back.
-/

namespace MailMerge

open SettingReader TomlReader TomlToken Toml

/-! ### Lists of settings -/

section Settings

variable {α β : Type} {entries : TomlEntries} {name key : Text} {value : Toml} {standard : α}

theorem mapM_map_eq_some {read : β → Option α} {write : α → β} (as : List α)
    (h : ∀ a ∈ as, read (write a) = some a) : (as.map write).mapM read = some as := by
  induction as with
  | nil => rfl
  | cons a as ih =>
    obtain ⟨ha, has⟩ := List.forall_mem_cons.1 h
    rw [List.map_cons, List.mapM_cons, ha, ih has]
    rfl

/-- A list of texts **is read back** from its items. -/
theorem list?_texts (ts : List Text) : list? text? (.array (ts.map .text)) = some ts := by
  show (ts.map Toml.text).mapM text? = some ts
  exact mapM_map_eq_some ts fun _ _ => rfl

theorem setting_of_lookup {read : Toml → Option α} (h : entries.lookup name = some value) :
    setting entries name read standard = read value := by
  rw [setting, h]

theorem natural?_natCast {n most : Nat} (h : n ≤ most) : natural? most (.integer n) = some n := by
  have hbounds : (0 : Int) ≤ n ∧ (n : Int) ≤ most := ⟨Int.natCast_nonneg n, Int.ofNat_le.2 h⟩
  rw [natural?, integer?, if_pos hbounds]
  rfl

/-- The entry of a setting. -/
def givenEntry (key : Text) (value : Toml) : TomlEntries := [(key, value)]

/-- The entry of a text, if it is set. -/
def optionalEntry (key : Text) : Option Text → TomlEntries
  | some t => [(key, .text t)]
  | none => []

theorem sublist_givenEntry (key : Text) (value : Toml) :
    ((givenEntry key value).map Prod.fst).Sublist [key] := List.Sublist.refl _

theorem sublist_optionalEntry (key : Text) (t : Option Text) :
    ((optionalEntry key t).map Prod.fst).Sublist [key] := by
  cases t with
  | none => exact List.nil_sublist _
  | some t => exact List.Sublist.refl _

end Settings

/-! ### Lines of entries -/

section Lines

variable {u t path key : Text} {names : List Text} {l : Line} {entries entries' : TomlEntries} {v : Toml}

/-- Behind the lines of some entries, those of **other entries** may follow. -/
theorem spellsLines_pairs (h : SpellsLines u (l :: pairLines entries))
    (h' : SpellsLines t (pairLines entries')) :
    SpellsLines (u ++ t) (l :: pairLines (entries ++ entries')) := by
  have hsplit : l :: pairLines (entries ++ entries') = l :: pairLines entries ++ pairLines entries' :=
    congrArg (l :: ·) List.map_append
  rw [hsplit]
  exact h.append h'

theorem spellsLines_pair (hkey : IsBareName key) (hv : Spells u v) :
    SpellsLines (pairLine key u) (pairLines (givenEntry key v)) := spellsLines_pairLine hkey hv

theorem spellsLines_optionalLine (hkey : IsBareName key) (t : Option Text) :
    SpellsLines (optionalLine key t) (pairLines (optionalEntry key t)) := by
  cases t with
  | none => exact spellsLines_nil
  | some t => exact spellsLines_pair hkey (spells_stringText t)

theorem spellsLines_table (h : SpellsKey path names) :
    SpellsLines (tableLine path) (.table names :: pairLines []) := spellsLines_tableLine h

theorem spellsLines_row (h : SpellsKey path names) :
    SpellsLines (rowLine path) (.row names :: pairLines []) := spellsLines_rowLine h

end Lines

/-! ### The template section -/

namespace TemplateSettings

/-- The entries of the section. -/
def entries (s : TemplateSettings) : TomlEntries :=
  givenEntry "dir" (.text s.directory) ++ optionalEntry "remote_url" s.remoteUrl ++
    optionalEntry "token_env" s.tokenVariable ++ givenEntry "timeout_secs" (.integer s.timeoutSeconds)

theorem nodup_entries (s : TemplateSettings) : (s.entries.map Prod.fst).Nodup := by
  have hsub : (s.entries.map Prod.fst).Sublist
      (["dir".toList] ++ ["remote_url".toList] ++ ["token_env".toList] ++ ["timeout_secs".toList]) := by
    rw [entries, List.map_append, List.map_append, List.map_append]
    exact (((sublist_givenEntry _ _).append (sublist_optionalEntry _ _)).append
      (sublist_optionalEntry _ _)).append (sublist_givenEntry _ _)
  exact hsub.nodup (by decide)

/-- The section is **read back** from its entries. -/
theorem ofToml?_entries {s : TemplateSettings} (h : s.timeoutSeconds ≤ 9223372036854775807) :
    ofToml? (.table .header s.entries) = some s := by
  obtain ⟨directory, remoteUrl, tokenVariable, timeoutSeconds⟩ := s
  have hseconds : natural? 9223372036854775807 (.integer timeoutSeconds) = some timeoutSeconds :=
    natural?_natCast h
  -- an entry is looked up behind the optional ones, whether they are there or not
  have hlast : (entries ⟨directory, remoteUrl, tokenVariable, timeoutSeconds⟩).lookup "timeout_secs".toList =
      some (.integer timeoutSeconds) := by
    cases remoteUrl <;> cases tokenVariable <;> rfl
  have hurl : optional (entries ⟨directory, remoteUrl, tokenVariable, timeoutSeconds⟩) "remote_url" text? =
      some remoteUrl := by
    cases remoteUrl <;> cases tokenVariable <;> rfl
  have htoken : optional (entries ⟨directory, remoteUrl, tokenVariable, timeoutSeconds⟩) "token_env" text? =
      some tokenVariable := by
    cases remoteUrl <;> cases tokenVariable <;> rfl
  simp only [ofToml?, section?, Option.bind_eq_bind, Option.bind_some, hurl, htoken,
    setting_of_lookup hlast, hseconds]
  rfl

theorem spellsLines_lines {s : TemplateSettings} (h : s.timeoutSeconds ≤ 9223372036854775807) :
    SpellsLines s.lines (tableLines ["template"] s.entries) := by
  have hseconds : Spells (Text.ofNat s.timeoutSeconds) (.integer s.timeoutSeconds) :=
    spells_ofInt (n := s.timeoutSeconds) ⟨by omega, by omega⟩
  apply spellsLines_pairs (spellsLines_pairs (spellsLines_pairs (spellsLines_pairs
    (spellsLines_table (spellsKey_name (by decide))) ?_) ?_) ?_) ?_
  · exact spellsLines_pair (by decide) (spells_stringText _)
  · exact spellsLines_optionalLine (by decide) _
  · exact spellsLines_optionalLine (by decide) _
  · exact spellsLines_pair (by decide) hseconds

end TemplateSettings

/-! ### The output section -/

namespace OutputSettings

/-- The entries of the section. -/
def entries (s : OutputSettings) : TomlEntries :=
  givenEntry "dir" (.text s.directory) ++ givenEntry "batch_name" (.text s.batchName) ++
    givenEntry "file_prefix" (.text s.filePrefix) ++
    givenEntry "name_fields" (.array (s.nameFields.map .text))

theorem nodup_entries (s : OutputSettings) : (s.entries.map Prod.fst).Nodup := by
  show ["dir".toList, "batch_name".toList, "file_prefix".toList, "name_fields".toList].Nodup
  decide

/-- The section is **read back** from its entries. -/
theorem ofToml?_entries (s : OutputSettings) : ofToml? (.table .header s.entries) = some s := by
  have hfields : s.entries.lookup "name_fields".toList = some (.array (s.nameFields.map .text)) := rfl
  have hdirectory : setting s.entries "dir" text? "." = some s.directory := rfl
  have hbatch : setting s.entries "batch_name" text? "zeugnisse.docx" = some s.batchName := rfl
  have hprefix : setting s.entries "file_prefix" text? "zeugnis" = some s.filePrefix := rfl
  simp only [ofToml?, section?, Option.bind_eq_bind, Option.bind_some, hdirectory, hbatch, hprefix,
    setting_of_lookup hfields, list?_texts]
  rfl

theorem spellsLines_lines (s : OutputSettings) :
    SpellsLines s.lines (tableLines ["output"] s.entries) := by
  apply spellsLines_pairs (spellsLines_pairs (spellsLines_pairs (spellsLines_pairs
    (spellsLines_table (spellsKey_name (by decide))) ?_) ?_) ?_) ?_
  · exact spellsLines_pair (by decide) (spells_stringText _)
  · exact spellsLines_pair (by decide) (spells_stringText _)
  · exact spellsLines_pair (by decide) (spells_stringText _)
  · exact spellsLines_pair (by decide) (spells_stringsText _)

end OutputSettings

/-! ### Aliases -/

theorem DateFormat.ofName?_name (f : DateFormat) : ofName? f.name = some f := by
  cases f with
  | serialDate => rfl
  | isoDate => rfl

namespace Alias

/-- The entries of an alias. -/
def entries (a : Alias) : TomlEntries :=
  givenEntry "name" (.text a.name) ++ givenEntry "source" (.text a.source) ++
    optionalEntry "format" (a.format.map DateFormat.name)

theorem nodup_entries (a : Alias) : (a.entries.map Prod.fst).Nodup := by
  have hsub : (a.entries.map Prod.fst).Sublist (["name".toList] ++ ["source".toList] ++ ["format".toList]) := by
    rw [entries, List.map_append, List.map_append]
    exact ((sublist_givenEntry _ _).append (sublist_givenEntry _ _)).append (sublist_optionalEntry _ _)
  exact hsub.nodup (by decide)

/-- An alias is **read back** from its entries. -/
theorem ofToml?_entries (a : Alias) : ofToml? (.table .header a.entries) = some a := by
  have hname : a.entries.lookup "name".toList = some (.text a.name) := rfl
  have hsource : a.entries.lookup "source".toList = some (.text a.source) := rfl
  have hformat : optional a.entries "format" (choice? DateFormat.ofName?) = some a.format := by
    obtain ⟨name, source, format⟩ := a
    cases format with
    | none => rfl
    | some f =>
      show ((choice? DateFormat.ofName?) (.text f.name)).map some = _
      rw [choice?, DateFormat.ofName?_name]
      rfl
  simp only [ofToml?, section?, Option.bind_eq_bind, Option.bind_some, hname, hsource, hformat, text?]
  rfl

theorem spellsLines_lines (a : Alias) :
    SpellsLines a.lines (rowLines ["placeholders", "aliases"] a.entries) := by
  have hkey : SpellsKey "placeholders.aliases" ["placeholders", "aliases"] :=
    @spellsKey_dot "placeholders" "aliases" (by decide) (by decide)
  apply spellsLines_pairs (spellsLines_pairs (spellsLines_pairs (spellsLines_row hkey) ?_) ?_) ?_
  · exact spellsLines_pair (by decide) (spells_stringText _)
  · exact spellsLines_pair (by decide) (spells_stringText _)
  · exact spellsLines_optionalLine (by decide) _

end Alias

/-! ### The placeholder section -/

namespace PlaceholderSettings

/-- The entries that are written behind the line of the section. -/
def headEntries (s : PlaceholderSettings) : TomlEntries :=
  (if s.aliases.isEmpty then givenEntry "aliases" (.array []) else []) ++
    givenEntry "reserved" (.array (s.reserved.map .text))

/-- The entries of the section. -/
def entries (s : PlaceholderSettings) : TomlEntries :=
  s.headEntries ++ if s.aliases.isEmpty then [] else givenEntry "aliases" (.rows (s.aliases.map Alias.entries))

/-- The lines of the section and its aliases. -/
def tomlLines (s : PlaceholderSettings) : List Line :=
  tableLines ["placeholders"] s.headEntries ++
    s.aliases.flatMap fun a => rowLines ["placeholders", "aliases"] a.entries

/-- Aliases are **read back** from their rows. -/
theorem list?_aliases (aliases : List Alias) :
    list? Alias.ofToml? (.rows (aliases.map Alias.entries)) = some aliases := by
  show ((aliases.map Alias.entries).map (.table .header)).mapM Alias.ofToml? = some aliases
  rw [List.map_map]
  exact mapM_map_eq_some aliases fun a _ => a.ofToml?_entries

/-- The section is **read back** from its entries. -/
theorem ofToml?_entries (s : PlaceholderSettings) : ofToml? (.table .header s.entries) = some s := by
  obtain ⟨aliases, reserved⟩ := s
  have hreserved : (entries ⟨aliases, reserved⟩).lookup "reserved".toList =
      some (.array (reserved.map .text)) := by
    cases aliases with
    | nil => rfl
    | cons a aliases => rfl
  have haliases : setting (entries ⟨aliases, reserved⟩) "aliases" (list? Alias.ofToml?) Alias.standard =
      some aliases := by
    cases aliases with
    | nil => rfl
    | cons a aliases => exact list?_aliases (a :: aliases)
  simp only [ofToml?, section?, Option.bind_eq_bind, Option.bind_some, haliases,
    setting_of_lookup hreserved, list?_texts]
  rfl

theorem spellsLines_lines (s : PlaceholderSettings) : SpellsLines s.lines s.tomlLines := by
  refine SpellsLines.append ?_ (spellsLines_flatMap _ ?_)
  · apply spellsLines_pairs (spellsLines_pairs (spellsLines_table (spellsKey_name (by decide))) ?_) ?_
    · cases s.aliases with
      | nil => exact @spellsLines_pair "[]" "aliases" (.array []) (by decide) (spells_stringsText [])
      | cons a aliases => exact spellsLines_nil
    · exact spellsLines_pair (by decide) (spells_stringsText _)
  · intro a _
    exact spellsLines_newLine.append a.spellsLines_lines

theorem nodup_headEntries (s : PlaceholderSettings) : (s.headEntries.map Prod.fst).Nodup := by
  have hsub : (s.headEntries.map Prod.fst).Sublist (["aliases".toList] ++ ["reserved".toList]) := by
    rw [headEntries, List.map_append]
    refine List.Sublist.append ?_ (sublist_givenEntry _ _)
    cases s.aliases with
    | nil => exact sublist_givenEntry _ _
    | cons a aliases => exact List.nil_sublist _
  exact hsub.nodup (by decide)

/-- The lines of the section **build it**. -/
theorem builds_tomlLines (s : PlaceholderSettings) {root : TomlEntries}
    (h : "placeholders".toList ∉ root.map Prod.fst) :
    Builds s.tomlLines root (root ++ givenEntry "placeholders" (.table .header s.entries)) := by
  have hhead := builds_table leadsTo_nil h s.nodup_headEntries
  obtain ⟨aliases, reserved⟩ := s
  cases aliases with
  | nil => exact hhead.append (builds_nil _)
  | cons a aliases =>
    -- the rows go into the table that was opened before them
    refine hhead.append ?_
    have hkey : "aliases".toList ∉ (headEntries ⟨a :: aliases, reserved⟩).map Prod.fst := by
      show "aliases".toList ∉ ["reserved".toList]
      decide
    have hrows : ∀ row ∈ (a :: aliases).map Alias.entries, (row.map Prod.fst).Nodup := by
      intro row hrow
      obtain ⟨b, -, rfl⟩ := List.mem_map.1 hrow
      exact b.nodup_entries
    have hbuilds := builds_rows (leadsTo_table h) hkey hrows
    have hlines : (a :: aliases).flatMap (fun b => rowLines ["placeholders", "aliases"] b.entries) =
        ((a :: aliases).map Alias.entries).flatMap (rowLines (["placeholders"] ++ ["aliases"])) :=
      (List.flatMap_map ..).symm
    rw [hlines]
    exact hbuilds

end PlaceholderSettings

/-! ### The format section -/

namespace FormatRules

/-- The entries of the section. -/
def entries (r : FormatRules) : TomlEntries :=
  givenEntry "serial_date_fields" (.array (r.serialDateFields.map .text)) ++
    givenEntry "iso_date_fields" (.array (r.isoDateFields.map .text)) ++
    givenEntry "line_breaks" (.boolean r.lineBreaks)

theorem nodup_entries (r : FormatRules) : (r.entries.map Prod.fst).Nodup := by
  show ["serial_date_fields".toList, "iso_date_fields".toList, "line_breaks".toList].Nodup
  decide

/-- The section is **read back** from its entries. -/
theorem ofToml?_entries (r : FormatRules) : ofToml? (.table .header r.entries) = some r := by
  have hserial : r.entries.lookup "serial_date_fields".toList =
      some (.array (r.serialDateFields.map .text)) := rfl
  have hiso : r.entries.lookup "iso_date_fields".toList = some (.array (r.isoDateFields.map .text)) := rfl
  have hbreaks : r.entries.lookup "line_breaks".toList = some (.boolean r.lineBreaks) := rfl
  simp only [ofToml?, section?, Option.bind_eq_bind, Option.bind_some, setting_of_lookup hserial,
    setting_of_lookup hiso, setting_of_lookup hbreaks, list?_texts, boolean?]
  rfl

theorem spellsLines_lines (r : FormatRules) : SpellsLines r.lines (tableLines ["format"] r.entries) := by
  apply spellsLines_pairs (spellsLines_pairs (spellsLines_pairs
    (spellsLines_table (spellsKey_name (by decide))) ?_) ?_) ?_
  · exact spellsLines_pair (by decide) (spells_stringsText _)
  · exact spellsLines_pair (by decide) (spells_stringsText _)
  · exact spellsLines_pair (by decide) (spells_booleanText _)

end FormatRules

/-! ### The generation section -/

theorem BreakKind.ofName?_name (kind : BreakKind) : ofName? kind.name = some kind := by
  cases kind with
  | page => rfl
  | «section» => rfl
  | none => rfl

/-- The entries of the markers. -/
def MarkerNames.entries (m : MarkerNames) : TomlEntries :=
  givenEntry "start" (.text m.start) ++ givenEntry "end" (.text m.stop)

theorem MarkerNames.nodup_entries (m : MarkerNames) : (m.entries.map Prod.fst).Nodup := by
  show ["start".toList, "end".toList].Nodup
  decide

theorem MarkerNames.ofToml?_entries (m : MarkerNames) : ofToml? (.table .header m.entries) = some m := rfl

namespace GenerationSettings

/-- The entries that are written behind the line of the section. -/
def headEntries (s : GenerationSettings) : TomlEntries :=
  givenEntry "break_kind" (.text s.breakKind.name) ++ givenEntry "validate" (.boolean s.validates)

/-- The entries of the section. -/
def entries (s : GenerationSettings) : TomlEntries :=
  s.headEntries ++ givenEntry "markers" (.table .header s.markers.entries)

/-- The lines of the section and its markers. -/
def tomlLines (s : GenerationSettings) : List Line :=
  tableLines ["generation"] s.headEntries ++ tableLines ["generation", "markers"] s.markers.entries

/-- The section is **read back** from its entries. -/
theorem ofToml?_entries (s : GenerationSettings) : ofToml? (.table .header s.entries) = some s := by
  have hkind : s.entries.lookup "break_kind".toList = some (.text s.breakKind.name) := rfl
  have hvalidates : s.entries.lookup "validate".toList = some (.boolean s.validates) := rfl
  have hmarkers : s.entries.lookup "markers".toList = some (.table .header s.markers.entries) := rfl
  simp only [ofToml?, section?, Option.bind_eq_bind, Option.bind_some, setting_of_lookup hkind,
    setting_of_lookup hvalidates, setting_of_lookup hmarkers, choice?, BreakKind.ofName?_name, boolean?,
    MarkerNames.ofToml?_entries]
  rfl

theorem spellsLines_lines (s : GenerationSettings) : SpellsLines s.lines s.tomlLines := by
  have hmarkers : SpellsKey "generation.markers" ["generation", "markers"] :=
    @spellsKey_dot "generation" "markers" (by decide) (by decide)
  have htext : s.lines =
      (tableLine "generation" ++ pairLine "break_kind" (stringText s.breakKind.name) ++
        pairLine "validate" (booleanText s.validates)) ++
      (['\n'] ++ (tableLine "generation.markers" ++ pairLine "start" (stringText s.markers.start) ++
        pairLine "end" (stringText s.markers.stop))) := by
    simp only [lines, List.append_assoc]
    rfl
  rw [htext]
  refine SpellsLines.append ?_ (spellsLines_newLine.append ?_)
  · apply spellsLines_pairs (spellsLines_pairs (spellsLines_table (spellsKey_name (by decide))) ?_) ?_
    · exact spellsLines_pair (by decide) (spells_stringText _)
    · exact spellsLines_pair (by decide) (spells_booleanText _)
  · apply spellsLines_pairs (spellsLines_pairs (spellsLines_table hmarkers) ?_) ?_
    · exact spellsLines_pair (by decide) (spells_stringText _)
    · exact spellsLines_pair (by decide) (spells_stringText _)

/-- The lines of the section **build it**. -/
theorem builds_tomlLines (s : GenerationSettings) {root : TomlEntries}
    (h : "generation".toList ∉ root.map Prod.fst) :
    Builds s.tomlLines root (root ++ givenEntry "generation" (.table .header s.entries)) := by
  have hkeys : (s.headEntries.map Prod.fst).Nodup := by
    show ["break_kind".toList, "validate".toList].Nodup
    decide
  have hmarkers : "markers".toList ∉ s.headEntries.map Prod.fst := by
    show "markers".toList ∉ ["break_kind".toList, "validate".toList]
    decide
  exact (builds_table leadsTo_nil h hkeys).append
    (builds_table (leadsTo_table h) hmarkers s.markers.nodup_entries)

end GenerationSettings

/-! ### The access section -/

namespace AccessSettings

/-- The entries of the section. -/
def entries (s : AccessSettings) : TomlEntries :=
  optionalEntry "validate_url" s.validateUrl ++ givenEntry "password_env" (.text s.passwordVariable) ++
    givenEntry "max_attempts" (.integer s.maxAttempts) ++
    givenEntry "lockout_minutes" (.integer s.lockoutMinutes)

theorem nodup_entries (s : AccessSettings) : (s.entries.map Prod.fst).Nodup := by
  have hsub : (s.entries.map Prod.fst).Sublist (["validate_url".toList] ++ ["password_env".toList] ++
      ["max_attempts".toList] ++ ["lockout_minutes".toList]) := by
    rw [entries, List.map_append, List.map_append, List.map_append]
    exact (((sublist_optionalEntry _ _).append (sublist_givenEntry _ _)).append
      (sublist_givenEntry _ _)).append (sublist_givenEntry _ _)
  exact hsub.nodup (by decide)

/-- The section is **read back** from its entries. -/
theorem ofToml?_entries {s : AccessSettings} (hattempts : s.maxAttempts ≤ 4294967295)
    (hminutes : TomlScalar.Fits s.lockoutMinutes) :
    ofToml? (.table .header s.entries) = some s := by
  obtain ⟨validateUrl, passwordVariable, maxAttempts, lockoutMinutes⟩ := s
  have hnatural : natural? 4294967295 (.integer maxAttempts) = some maxAttempts :=
    natural?_natCast hattempts
  have hinteger : integer? (-9223372036854775808) 9223372036854775807 (.integer lockoutMinutes) =
      some lockoutMinutes := if_pos hminutes
  have hurl : optional (entries ⟨validateUrl, passwordVariable, maxAttempts, lockoutMinutes⟩)
      "validate_url" text? = some validateUrl := by
    cases validateUrl <;> rfl
  have hvariable : setting (entries ⟨validateUrl, passwordVariable, maxAttempts, lockoutMinutes⟩)
      "password_env" text? "DOCMERGE_PASSWORD" = some passwordVariable := by
    cases validateUrl <;> rfl
  have hmax : (entries ⟨validateUrl, passwordVariable, maxAttempts, lockoutMinutes⟩).lookup
      "max_attempts".toList = some (.integer maxAttempts) := by
    cases validateUrl <;> rfl
  have hlockout : (entries ⟨validateUrl, passwordVariable, maxAttempts, lockoutMinutes⟩).lookup
      "lockout_minutes".toList = some (.integer lockoutMinutes) := by
    cases validateUrl <;> rfl
  simp only [ofToml?, section?, Option.bind_eq_bind, Option.bind_some, hurl, hvariable,
    setting_of_lookup hmax, setting_of_lookup hlockout, hnatural, hinteger]
  rfl

theorem spellsLines_lines {s : AccessSettings} (hattempts : s.maxAttempts ≤ 4294967295)
    (hminutes : TomlScalar.Fits s.lockoutMinutes) :
    SpellsLines s.lines (tableLines ["access"] s.entries) := by
  have hnumber : Spells (Text.ofNat s.maxAttempts) (.integer s.maxAttempts) :=
    spells_ofInt (n := s.maxAttempts) ⟨by omega, by omega⟩
  apply spellsLines_pairs (spellsLines_pairs (spellsLines_pairs (spellsLines_pairs
    (spellsLines_table (spellsKey_name (by decide))) ?_) ?_) ?_) ?_
  · exact spellsLines_optionalLine (by decide) _
  · exact spellsLines_pair (by decide) (spells_stringText _)
  · exact spellsLines_pair (by decide) hnumber
  · exact spellsLines_pair (by decide) (spells_ofInt hminutes)

end AccessSettings

/-! ### The whole configuration -/

/-- The lines of a section **build its table** behind those before it. -/
theorem builds_section {name : Text} {root entries : TomlEntries} (h : name ∉ root.map Prod.fst)
    (hkeys : (entries.map Prod.fst).Nodup) :
    Builds (tableLines [name] entries) root (root ++ givenEntry name (.table .header entries)) :=
  builds_table leadsTo_nil h hkeys

/-- Texts with an empty line between two of them are read as **the lines of the one and then of the other**. -/
theorem spellsLines_join (sections : List (Text × List Line))
    (h : ∀ s ∈ sections, SpellsLines s.1 s.2) :
    SpellsLines (Text.join "\n" (sections.map Prod.fst)) (sections.flatMap Prod.snd) := by
  induction sections with
  | nil => exact spellsLines_nil
  | cons s sections ih =>
    obtain ⟨hs, hsections⟩ := List.forall_mem_cons.1 h
    rw [List.flatMap_cons]
    cases sections with
    | nil =>
      rw [List.flatMap_nil, List.append_nil]
      exact hs
    | cons other sections =>
      have hblank := hs.append spellsLines_newLine
      rw [List.append_nil] at hblank
      exact hblank.append (ih hsections)

namespace Configuration

variable {c : Configuration} {t : Text}

/-- The bounds of the **numbers** of a configuration. -/
structure InBounds (c : Configuration) : Prop where
  timeout : c.template.timeoutSeconds ≤ 9223372036854775807
  attempts : c.access.maxAttempts ≤ 4294967295
  minutes : TomlScalar.Fits c.access.lockoutMinutes

/-- The sections of a configuration, as they are written and as their lines. -/
def sections (c : Configuration) : List (Text × List Line) :=
  [(c.template.lines, tableLines ["template"] c.template.entries),
    (c.output.lines, tableLines ["output"] c.output.entries),
    (c.placeholders.lines, c.placeholders.tomlLines),
    (c.format.lines, tableLines ["format"] c.format.entries),
    (c.generation.lines, c.generation.tomlLines),
    (c.access.lines, tableLines ["access"] c.access.entries)]

/-- The lines of a configuration. -/
def tomlLines (c : Configuration) : List Line := c.sections.flatMap Prod.snd

/-- The entries of a configuration. -/
def root (c : Configuration) : TomlEntries :=
  givenEntry "template" (.table .header c.template.entries) ++
    givenEntry "output" (.table .header c.output.entries) ++
    givenEntry "placeholders" (.table .header c.placeholders.entries) ++
    givenEntry "format" (.table .header c.format.entries) ++
    givenEntry "generation" (.table .header c.generation.entries) ++
    givenEntry "access" (.table .header c.access.entries)

/-- A configuration is **written as its lines**. -/
theorem spellsLines_toText (h : c.InBounds) : SpellsLines c.toText c.tomlLines := by
  refine spellsLines_join c.sections ?_
  simp only [sections, List.forall_mem_cons]
  refine ⟨?_, ?_, ?_, ?_, ?_, ?_, fun s hs => absurd hs List.not_mem_nil⟩
  · exact TemplateSettings.spellsLines_lines h.timeout
  · exact OutputSettings.spellsLines_lines _
  · exact PlaceholderSettings.spellsLines_lines _
  · exact FormatRules.spellsLines_lines _
  · exact GenerationSettings.spellsLines_lines _
  · exact AccessSettings.spellsLines_lines h.attempts h.minutes

/-- The lines of a configuration **build its entries**. -/
theorem builds_root (c : Configuration) : Builds c.tomlLines [] c.root := by
  refine (builds_section ?_ c.template.nodup_entries).append
    ((builds_section ?_ c.output.nodup_entries).append
      ((c.placeholders.builds_tomlLines ?_).append
        ((builds_section ?_ c.format.nodup_entries).append
          ((c.generation.builds_tomlLines ?_).append
            ((builds_section ?_ c.access.nodup_entries).append (builds_nil c.root))))))
  -- no section has the name of one before it
  · exact List.not_mem_nil
  · show "output".toList ∉ ["template".toList]
    decide
  · show "placeholders".toList ∉ ["template".toList, "output".toList]
    decide
  · show "format".toList ∉ ["template".toList, "output".toList, "placeholders".toList]
    decide
  · show "generation".toList ∉ ["template".toList, "output".toList, "placeholders".toList, "format".toList]
    decide
  · show "access".toList ∉ ["template".toList, "output".toList, "placeholders".toList, "format".toList,
      "generation".toList]
    decide

/-- The entries of a configuration **are read back**. -/
theorem ofEntries?_root (h : c.InBounds) : ofEntries? c.root = some c := by
  have htemplate : c.root.lookup "template".toList = some (.table .header c.template.entries) := rfl
  have houtput : c.root.lookup "output".toList = some (.table .header c.output.entries) := rfl
  have hplaceholders : c.root.lookup "placeholders".toList =
      some (.table .header c.placeholders.entries) := rfl
  have hformat : c.root.lookup "format".toList = some (.table .header c.format.entries) := rfl
  have hgeneration : c.root.lookup "generation".toList = some (.table .header c.generation.entries) := rfl
  have haccess : c.root.lookup "access".toList = some (.table .header c.access.entries) := rfl
  simp only [ofEntries?, Option.bind_eq_bind, Option.bind_some, setting_of_lookup htemplate,
    setting_of_lookup houtput, setting_of_lookup hplaceholders, setting_of_lookup hformat,
    setting_of_lookup hgeneration, setting_of_lookup haccess, TemplateSettings.ofToml?_entries h.timeout,
    OutputSettings.ofToml?_entries, PlaceholderSettings.ofToml?_entries, FormatRules.ofToml?_entries,
    GenerationSettings.ofToml?_entries, AccessSettings.ofToml?_entries h.attempts h.minutes]
  rfl

/-- A configuration **is read back** from its text, with a line feed behind it or without. -/
theorem ofText?_toText (h : c.InBounds) :
    ofText? c.toText = some c ∧ ofText? (c.toText ++ ['\n']) = some c := by
  have hlines := spellsLines_toText h
  have hmore := hlines.append spellsLines_newLine
  rw [List.append_nil] at hmore
  -- the text begins with the bracket of the first table, and so with no mark to drop
  have hmark : (c.toText ++ ['\n']).head? ≠ some '\ufeff' ∧ c.toText.head? ≠ some '\ufeff' := by
    have hhead : (c.toText ++ ['\n']).head? = some '[' ∧ c.toText.head? = some '[' := ⟨rfl, rfl⟩
    rw [hhead.1, hhead.2]
    decide
  have hread : Toml.ofText? c.toText = some c.root := ofText?_of_builds hmark.2 hlines c.builds_root
  have hreadMore : Toml.ofText? (c.toText ++ ['\n']) = some c.root :=
    ofText?_of_builds hmark.1 hmore c.builds_root
  constructor
  · rw [ofText?, hread]
    exact ofEntries?_root h
  · rw [ofText?, hreadMore]
    exact ofEntries?_root h

end Configuration

/-! ### Numbers in bounds -/

section Bounds

variable {α : Type} {P : α → Prop} {entries : TomlEntries} {name : Text} {read : Toml → Option α}
  {standard a : α}

/-- A setting has a property that its **default and every value** have. -/
theorem forall_setting (h : setting entries name read standard = some a) (hstandard : P standard)
    (hread : ∀ value, read value = some a → P a) : P a := by
  unfold setting at h
  split at h
  case h_1 =>
    cases h
    exact hstandard
  case h_2 value _ => exact hread value h

theorem integer?_bounds {least most n : Int} {value : Toml} (h : integer? least most value = some n) :
    least ≤ n ∧ n ≤ most := by
  unfold integer? at h
  split at h
  case h_1 =>
    split at h
    case isTrue hbounds =>
      cases h
      exact hbounds
    case isFalse => cases h
  case h_2 => cases h

theorem natural?_le {most : Int} {n : Nat} {value : Toml} (h : natural? most value = some n) : n ≤ most := by
  obtain ⟨i, hi, rfl⟩ := Option.map_eq_some_iff.1 h
  obtain ⟨hleast, hmost⟩ := integer?_bounds hi
  rw [Int.toNat_of_nonneg hleast]
  exact hmost

end Bounds

/-- The timeout of a template section **is in bounds**. -/
theorem TemplateSettings.timeoutSeconds_le {value : Toml} {s : TemplateSettings}
    (h : ofToml? value = some s) : s.timeoutSeconds ≤ 9223372036854775807 := by
  simp only [ofToml?, Option.bind_eq_bind, Option.bind_eq_some_iff] at h
  obtain ⟨_, -, _, -, _, -, _, -, timeoutSeconds, htimeout, h⟩ := h
  cases h
  refine forall_setting (P := fun n => n ≤ 9223372036854775807) htimeout (by decide) ?_
  intro value hvalue
  exact Int.ofNat_le.1 (natural?_le hvalue)

/-- The numbers of an access section **are in bounds**. -/
theorem AccessSettings.bounds {value : Toml} {s : AccessSettings} (h : ofToml? value = some s) :
    s.maxAttempts ≤ 4294967295 ∧ TomlScalar.Fits s.lockoutMinutes := by
  simp only [ofToml?, Option.bind_eq_bind, Option.bind_eq_some_iff] at h
  obtain ⟨_, -, _, -, _, -, maxAttempts, hattempts, lockoutMinutes, hminutes, h⟩ := h
  cases h
  constructor
  · refine forall_setting (P := fun n => n ≤ 4294967295) hattempts (by decide) ?_
    intro value hvalue
    exact Int.ofNat_le.1 (natural?_le hvalue)
  · refine forall_setting hminutes ⟨by decide, by decide⟩ ?_
    intro value hvalue
    exact integer?_bounds hvalue

namespace Configuration

/-- The numbers of a configuration that was read **are in bounds**. -/
theorem inBounds_of_ofText? {c : Configuration} {t : Text} (h : ofText? t = some c) : c.InBounds := by
  obtain ⟨entries, -, h⟩ := Option.bind_eq_some_iff.1 h
  simp only [ofEntries?, Option.bind_eq_bind, Option.bind_eq_some_iff] at h
  obtain ⟨template, htemplate, _, -, _, -, _, -, _, -, access, haccess, h⟩ := h
  cases h
  have htimeout : template.timeoutSeconds ≤ 9223372036854775807 :=
    forall_setting (P := fun s => s.timeoutSeconds ≤ 9223372036854775807) htemplate (by decide)
      fun _ => TemplateSettings.timeoutSeconds_le
  have hbounds : access.maxAttempts ≤ 4294967295 ∧ TomlScalar.Fits access.lockoutMinutes :=
    forall_setting (P := fun s => s.maxAttempts ≤ 4294967295 ∧ TomlScalar.Fits s.lockoutMinutes) haccess
      ⟨by decide, by decide, by decide⟩ fun _ => AccessSettings.bounds
  exact ⟨htimeout, hbounds.1, hbounds.2⟩

end Configuration

end MailMerge
