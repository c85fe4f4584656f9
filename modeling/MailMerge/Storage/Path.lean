import MailMerge.Text.Basic

/-!
# Paths

A path is a text of names between slashes. It is kept as it was given; only the file
system looks at its names.
-/

namespace MailMerge

namespace Path

/-- A path below another. A path that begins with a slash stands for itself. -/
def join (base path : Text) : Text :=
  if Text.startsWith "/" path ∨ base.isEmpty then path
  else if Text.endsWith "/" base then base ++ path
  else base ++ "/" ++ path

/-- Drops the slashes at the end. -/
def dropSlashes (path : Text) : Text := (path.reverse.dropWhile (· == '/')).reverse

/-- The path of the directory in which a path stands, if it has a name to drop. -/
def parent? (path : Text) : Option Text :=
  match Text.lastCut? "/" (dropSlashes path) with
  | some ([], _) => some ['/']
  | some (front, _) => some (dropSlashes front)
  | none => if (dropSlashes path).isEmpty then none else some []

/-- The names of a path. -/
def names (path : Text) : List Text := Text.split '/' path

end Path

end MailMerge
