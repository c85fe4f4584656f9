import MailMerge.Text.Blank
import MailMerge.Text.Lowercase

/-!
# Kinds of documents

The three kinds of certificates, each with a template of its own.

* `DocumentKind.ofText?` reads a kind from its full or short name, in any case and
  with blanks around it;
* `DocumentKind.templateFileName` is the file name of its template.
-/

namespace MailMerge

/-- The **kind of a document**, by which its template is chosen. -/
inductive DocumentKind where
  | interim
  | annual
  | leaving
  deriving DecidableEq, Repr

namespace DocumentKind

/-- All kinds. -/
def all : List DocumentKind := [.interim, .annual, .leaving]

/-- The name of a kind. -/
def name : DocumentKind → Text
  | .interim => "Zwischenzeugnis"
  | .annual => "Jahreszeugnis"
  | .leaving => "Abschlusszeugnis"

/-- The name of a kind within file names. -/
def shortName : DocumentKind → Text
  | .interim => "zwischen"
  | .annual => "jahr"
  | .leaving => "abschluss"

/-- The file name of the template of a kind. -/
def templateFileName (kind : DocumentKind) : Text :=
  "template_" ++ kind.shortName ++ ".docx"

/-- The kind of a name. -/
def ofText? (t : Text) : Option DocumentKind :=
  let wanted := Text.lower (Text.trim t)
  all.find? fun kind => Text.lower kind.name == wanted || kind.shortName == wanted

end DocumentKind

end MailMerge
