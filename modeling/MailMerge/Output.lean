import MailMerge.Host.Action
import MailMerge.Storage.Path

/-!
# Writing documents

Documents are written to a directory all together. Each is first written under a hidden
name; only when all are there, they are moved to their names. If anything fails, what was
written is removed.

* `stageAll` writes the hidden files, and `publishAll` moves them;
* `writeDocuments` does both.
-/

namespace MailMerge

/-- A **file to be written**: its name and its content. -/
structure OutputFile where
  name : Text
  content : Bytes
  deriving DecidableEq, Repr

/-- A file on its way: the hidden path, the path it will have, and its content. -/
structure StagedFile where
  hidden : Text
  target : Text
  content : Bytes
  deriving DecidableEq, Repr

/-- The paths of a file in a directory. -/
def StagedFile.of (directory : Text) (file : OutputFile) : StagedFile where
  hidden := Path.join directory ("." ++ file.name ++ ".tmp")
  target := Path.join directory file.name
  content := file.content

/-- Removes files. What cannot be removed stays. -/
def discard : List Text → Action Unit
  | [] => pure ()
  | path :: paths => do
    let _ ← Action.removeFile path
    discard paths

/-- Writes the hidden files. If one cannot be written, it is removed with all before
it. -/
def stageAll (written : List Text) : List StagedFile → Procedure Unit
  | [] => pure ()
  | file :: files => do
    match ← Procedure.ofAction (Action.writeFile file.hidden file.content) with
    | .ok _ => stageAll (written ++ [file.hidden]) files
    | .error fault =>
      Procedure.ofAction (discard (written ++ [file.hidden]))
      throw (.storage file.hidden fault)

/-- Moves the hidden files to their names. If one cannot be moved, those that were moved
are removed, and so are the hidden ones that are left. -/
def publishAll (moved : List Text) : List StagedFile → Procedure Unit
  | [] => pure ()
  | file :: files => do
    match ← Procedure.ofAction (Action.rename file.hidden file.target) with
    | .ok _ => publishAll (moved ++ [file.target]) files
    | .error fault =>
      Procedure.ofAction (discard moved)
      Procedure.ofAction (discard ((file :: files).map StagedFile.hidden))
      throw (.storage file.target fault)

/-- **Writes** files to a directory, and gives their paths. -/
def writeDocuments (directory : Text) (files : List OutputFile) : Procedure (List Text) := do
  match ← Procedure.ofAction (Action.createDirectories directory) with
  | .ok _ => pure ()
  | .error fault => throw (.storage directory fault)
  let staged := files.map (StagedFile.of directory)
  stageAll [] staged
  publishAll [] staged
  return staged.map StagedFile.target

end MailMerge
