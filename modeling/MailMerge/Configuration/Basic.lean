import MailMerge.Placeholder.Table
import MailMerge.Region.Marker
import MailMerge.Replication

/-!
# Configuration

The settings of the program, section by section. A setting that is not given has a
default.

* `Configuration` holds all sections;
* `Configuration.standard` is the configuration in which nothing is given.
-/

namespace MailMerge

/-- Where **templates** come from. -/
structure TemplateSettings where
  directory : Text := "templates"
  remoteUrl : Option Text := none
  tokenVariable : Option Text := none
  timeoutSeconds : Nat := 30
  deriving DecidableEq, Repr

/-- Where **documents** go, and how they are named. -/
structure OutputSettings where
  directory : Text := "."
  batchName : Text := "zeugnisse.docx"
  filePrefix : Text := "zeugnis"
  nameFields : List Text := ["Nachname", "Vorname"]
  deriving DecidableEq, Repr

/-- The aliases that templates use by default. -/
def Alias.standard : List Alias :=
  [⟨"SJ", "schuljahr", none⟩, ⟨"Kl", "Klasse", none⟩,
    ⟨"GDat", "Geburtsdatum", some .serialDate⟩, ⟨"GOrt", "Geburtsort", none⟩]

/-- Which **placeholders** have a meaning of their own: the aliases, and the shared
names that a record does not override. -/
structure PlaceholderSettings where
  aliases : List Alias := Alias.standard
  reserved : List Text := ["schuljahr", "klassenleitung", "schulleitung", "datum", "zeugnisart"]
  deriving DecidableEq, Repr

/-- The rules of formatting by default. -/
def FormatRules.standard : FormatRules := ⟨["Geburtsdatum"], ["datum"], true⟩

/-- How **copies** are put together. -/
structure GenerationSettings where
  breakKind : BreakKind := .page
  validates : Bool := true
  markers : MarkerNames := .standard
  deriving DecidableEq, Repr

/-- Who may **generate**: the endpoint that checks passwords, the variable that holds
the password, and how many attempts are allowed before the gate is locked for a while. -/
structure AccessSettings where
  validateUrl : Option Text := none
  passwordVariable : Text := "DOCMERGE_PASSWORD"
  maxAttempts : Nat := 5
  lockoutMinutes : Int := 60
  deriving DecidableEq, Repr

/-- The **configuration** of the program. -/
structure Configuration where
  template : TemplateSettings := {}
  output : OutputSettings := {}
  placeholders : PlaceholderSettings := {}
  format : FormatRules := .standard
  generation : GenerationSettings := {}
  access : AccessSettings := {}
  deriving DecidableEq, Repr

/-- The configuration in which nothing is given. -/
def Configuration.standard : Configuration := {}

end MailMerge
