import MailMerge.Configuration.Basic
import MailMerge.Toml.Printer

/-!
# Writing configurations

A configuration is written section by section, with an empty line between two sections.
Settings that are not set are left out.

* `Configuration.toText` writes a configuration.
-/

namespace MailMerge

open Toml

/-- The line of a text, if it is set. -/
def optionalLine (key : Text) : Option Text → Text
  | some t => pairLine key (stringText t)
  | none => []

/-- The lines of the template section. -/
def TemplateSettings.lines (s : TemplateSettings) : Text :=
  tableLine "template" ++ pairLine "dir" (stringText s.directory) ++
    optionalLine "remote_url" s.remoteUrl ++ optionalLine "token_env" s.tokenVariable ++
    pairLine "timeout_secs" (Text.ofNat s.timeoutSeconds)

/-- The lines of the output section. -/
def OutputSettings.lines (s : OutputSettings) : Text :=
  tableLine "output" ++ pairLine "dir" (stringText s.directory) ++
    pairLine "batch_name" (stringText s.batchName) ++
    pairLine "file_prefix" (stringText s.filePrefix) ++
    pairLine "name_fields" (stringsText s.nameFields)

/-- The lines of an alias, a row of its own. -/
def Alias.lines (a : Alias) : Text :=
  rowLine "placeholders.aliases" ++ pairLine "name" (stringText a.name) ++
    pairLine "source" (stringText a.source) ++ optionalLine "format" (a.format.map DateFormat.name)

/-- The lines of the placeholder section. An empty list of aliases must be told from one
that is not given. -/
def PlaceholderSettings.lines (s : PlaceholderSettings) : Text :=
  tableLine "placeholders" ++
    (if s.aliases.isEmpty then pairLine "aliases" "[]" else []) ++
    pairLine "reserved" (stringsText s.reserved) ++
    s.aliases.flatMap fun a => '\n' :: a.lines

/-- The lines of the format section. -/
def FormatRules.lines (r : FormatRules) : Text :=
  tableLine "format" ++ pairLine "serial_date_fields" (stringsText r.serialDateFields) ++
    pairLine "iso_date_fields" (stringsText r.isoDateFields) ++
    pairLine "line_breaks" (booleanText r.lineBreaks)

/-- The lines of the generation section. -/
def GenerationSettings.lines (s : GenerationSettings) : Text :=
  tableLine "generation" ++ pairLine "break_kind" (stringText s.breakKind.name) ++
    pairLine "validate" (booleanText s.validates) ++ "\n" ++
    tableLine "generation.markers" ++ pairLine "start" (stringText s.markers.start) ++
    pairLine "end" (stringText s.markers.stop)

/-- The lines of the access section. -/
def AccessSettings.lines (s : AccessSettings) : Text :=
  tableLine "access" ++ optionalLine "validate_url" s.validateUrl ++
    pairLine "password_env" (stringText s.passwordVariable) ++
    pairLine "max_attempts" (Text.ofNat s.maxAttempts) ++
    pairLine "lockout_minutes" (Text.ofInt s.lockoutMinutes)

/-- A **configuration as text**. -/
def Configuration.toText (c : Configuration) : Text :=
  Text.join "\n" [c.template.lines, c.output.lines, c.placeholders.lines, c.format.lines,
    c.generation.lines, c.access.lines]

end MailMerge
