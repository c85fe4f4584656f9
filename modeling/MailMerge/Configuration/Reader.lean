import MailMerge.Configuration.Basic
import MailMerge.Toml.Reader

/-!
# Reading configurations

Each section is a table of settings, or a list of them in their order. Settings that are
missing have their defaults, and settings of other names are passed over.

* `SettingReader` reads the values of single settings;
* `Configuration.ofText?` reads a configuration.
-/

namespace MailMerge

namespace SettingReader

/-! ### Values -/

/-- A setting that is a text. -/
def text? : Toml → Option Text
  | .text t => some t
  | _ => none

/-- A setting that is a truth value. -/
def boolean? : Toml → Option Bool
  | .boolean b => some b
  | _ => none

/-- A setting that is a whole number within bounds. -/
def integer? (least most : Int) : Toml → Option Int
  | .integer n => if least ≤ n ∧ n ≤ most then some n else none
  | _ => none

/-- A setting that is a natural number up to a bound. -/
def natural? (most : Int) (value : Toml) : Option Nat := (integer? 0 most value).map Int.toNat

/-- The items of a list, or the rows of a list of tables. -/
def items? : Toml → Option (List Toml)
  | .array items => some items
  | .rows tables => some (tables.map (.table .header))
  | _ => none

/-- A setting that is a list. -/
def list? {α : Type} (read : Toml → Option α) (value : Toml) : Option (List α) :=
  items? value >>= fun items => items.mapM read

/-- A setting that is one of some names: as a text, or as a table in which an empty table
stands under the name. A table on one line has no other entries. -/
def choice? {α : Type} (ofName? : Text → Option α) : Toml → Option α
  | .text t => ofName? t
  | .table .inline [(name, .table _ [])] => ofName? name
  | .table .inline _ => none
  | .table _ ((name, .table _ []) :: _) => ofName? name
  | _ => none

/-! ### Sections -/

/-- The settings of a section: the entries of a table, or the items of a list under the
names of the settings in their order. A moment has no settings. -/
def section? (names : List String) : Toml → Option TomlEntries
  | .table _ entries => some entries
  | .moment _ => some []
  | value => (items? value).map fun items => (names.map String.toList).zip items

/-- A setting, or its default if it is missing. -/
def setting {α : Type} (entries : TomlEntries) (name : Text) (read : Toml → Option α)
    (standard : α) : Option α :=
  match entries.lookup name with
  | none => some standard
  | some value => read value

/-- A setting that need not be set. -/
def optional {α : Type} (entries : TomlEntries) (name : Text) (read : Toml → Option α) :
    Option (Option α) :=
  setting entries name (fun value => (read value).map some) none

end SettingReader

open SettingReader

/-- Reads the template section. -/
def TemplateSettings.ofToml? (value : Toml) : Option TemplateSettings := do
  let standard : TemplateSettings := {}
  let entries ← section? ["dir", "remote_url", "token_env", "timeout_secs"] value
  return {
    directory := ← setting entries "dir" text? standard.directory
    remoteUrl := ← optional entries "remote_url" text?
    tokenVariable := ← optional entries "token_env" text?
    timeoutSeconds := ← setting entries "timeout_secs" (natural? 9223372036854775807)
      standard.timeoutSeconds }

/-- Reads the output section. -/
def OutputSettings.ofToml? (value : Toml) : Option OutputSettings := do
  let standard : OutputSettings := {}
  let entries ← section? ["dir", "batch_name", "file_prefix", "name_fields"] value
  return {
    directory := ← setting entries "dir" text? standard.directory
    batchName := ← setting entries "batch_name" text? standard.batchName
    filePrefix := ← setting entries "file_prefix" text? standard.filePrefix
    nameFields := ← setting entries "name_fields" (list? text?) standard.nameFields }

/-- Reads an alias. Its name and source must be given. -/
def Alias.ofToml? (value : Toml) : Option Alias := do
  let entries ← section? ["name", "source", "format"] value
  let name ← entries.lookup "name".toList >>= text?
  let source ← entries.lookup "source".toList >>= text?
  let format ← optional entries "format" (choice? DateFormat.ofName?)
  return ⟨name, source, format⟩

/-- Reads the placeholder section. -/
def PlaceholderSettings.ofToml? (value : Toml) : Option PlaceholderSettings := do
  let standard : PlaceholderSettings := {}
  let entries ← section? ["aliases", "reserved"] value
  return {
    aliases := ← setting entries "aliases" (list? Alias.ofToml?) standard.aliases
    reserved := ← setting entries "reserved" (list? text?) standard.reserved }

/-- Reads the format section. -/
def FormatRules.ofToml? (value : Toml) : Option FormatRules := do
  let entries ← section? ["serial_date_fields", "iso_date_fields", "line_breaks"] value
  let standard := FormatRules.standard
  return {
    serialDateFields := ← setting entries "serial_date_fields" (list? text?)
      standard.serialDateFields
    isoDateFields := ← setting entries "iso_date_fields" (list? text?) standard.isoDateFields
    lineBreaks := ← setting entries "line_breaks" boolean? standard.lineBreaks }

/-- Reads the names of the markers. -/
def MarkerNames.ofToml? (value : Toml) : Option MarkerNames := do
  let entries ← section? ["start", "end"] value
  return {
    start := ← setting entries "start" text? MarkerNames.standard.start
    stop := ← setting entries "end" text? MarkerNames.standard.stop }

/-- Reads the generation section. -/
def GenerationSettings.ofToml? (value : Toml) : Option GenerationSettings := do
  let standard : GenerationSettings := {}
  let entries ← section? ["break_kind", "validate", "markers"] value
  return {
    breakKind := ← setting entries "break_kind" (choice? BreakKind.ofName?) standard.breakKind
    validates := ← setting entries "validate" boolean? standard.validates
    markers := ← setting entries "markers" MarkerNames.ofToml? standard.markers }

/-- Reads the access section. -/
def AccessSettings.ofToml? (value : Toml) : Option AccessSettings := do
  let standard : AccessSettings := {}
  let entries ← section? ["validate_url", "password_env", "max_attempts", "lockout_minutes"] value
  return {
    validateUrl := ← optional entries "validate_url" text?
    passwordVariable := ← setting entries "password_env" text? standard.passwordVariable
    maxAttempts := ← setting entries "max_attempts" (natural? 4294967295)
      standard.maxAttempts
    lockoutMinutes := ← setting entries "lockout_minutes"
      (integer? (-9223372036854775808) 9223372036854775807) standard.lockoutMinutes }

namespace Configuration

/-- The configuration of the entries of a document. -/
def ofEntries? (entries : TomlEntries) : Option Configuration := do
  let standard := Configuration.standard
  return {
    template := ← setting entries "template" TemplateSettings.ofToml? standard.template
    output := ← setting entries "output" OutputSettings.ofToml? standard.output
    placeholders := ← setting entries "placeholders" PlaceholderSettings.ofToml?
      standard.placeholders
    format := ← setting entries "format" FormatRules.ofToml? standard.format
    generation := ← setting entries "generation" GenerationSettings.ofToml? standard.generation
    access := ← setting entries "access" AccessSettings.ofToml? standard.access }

/-- Reads a **configuration**. -/
def ofText? (t : Text) : Option Configuration := Toml.ofText? t >>= ofEntries?

end Configuration

end MailMerge
