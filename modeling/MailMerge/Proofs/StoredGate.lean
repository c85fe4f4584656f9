import MailMerge.Access.Authorize
import MailMerge.Host.World
import MailMerge.Proofs.FileChanges
import MailMerge.Proofs.WrittenGate

/-!
# The stored gate

The gate outlives the program in a file. Between two attempts nothing of it is left but that file, so
what the next attempt finds is what the last one saved: a file that was written is read back, and so is
the gate that its text holds.

* `FileSystem.read_write` — a written file is read back;
* `Procedure.runIn` performs a procedure in a world, and `runIn_bind` says that procedures follow
  each other until one fails;
* `storedGate` is the gate that a file holds, and `runIn_loadGate` says that loading finds it;
* `runIn_saveGate` — saving puts the written gate into its file, and `FileSystem.read_save` reads it back.
-/

namespace MailMerge

/-! ### Written files -/

namespace FileSystem

variable {fs fs' : FileSystem} {place : Place}

theorem read_of_node? {path : Text} {content : Bytes} (hplace : fs.place? path = .ok place)
    (hnode : fs.node? place = some (.file content)) : fs.read path = .ok content := by
  rw [read, hplace]
  simp only [bind, Except.bind, hnode]
  rfl

/-- A **written file is read back**. -/
theorem read_write {path : Text} {content : Bytes} (h : fs.write path content = .ok fs') :
    fs'.read path = .ok content := by
  obtain ⟨place, hplace, hdirectory, rfl⟩ := write_eq_ok h
  -- the root is a directory, so that the file is not written there
  have hne : place ≠ [] := by
    rintro rfl
    exact hdirectory rfl
  exact read_of_node? ((place?_eq_ok_iff (.put hdirectory content)).2 hplace) (node?_put hne fs _)

end FileSystem

/-! ### Procedures in a world -/

namespace Procedure

variable {α β : Type}

/-- Performs a **procedure** in a world. -/
def runIn (procedure : Procedure α) (w : World) : Except MergeError α × World := procedure.run.run w

@[simp] theorem runIn_pure (a : α) (w : World) : (pure a : Procedure α).runIn w = (.ok a, w) := rfl

@[simp] theorem runIn_throw (e : MergeError) (w : World) :
    (throw e : Procedure α).runIn w = (.error e, w) := rfl

@[simp] theorem runIn_ofResult (result : Except MergeError α) (w : World) :
    (ofResult result).runIn w = (result, w) := rfl

@[simp] theorem runIn_ofAction (action : Action α) (w : World) :
    (ofAction action).runIn w = (.ok (action.run w).1, (action.run w).2) := by
  show (do let a ← action; pure (Except.ok a) : Action _).run w = _
  rw [Action.run_bind]
  rfl

/-- Procedures **follow each other** until one fails. -/
theorem runIn_bind (procedure : Procedure α) (next : α → Procedure β) (w : World) :
    (procedure >>= next).runIn w =
      match procedure.runIn w with
      | (.ok a, w') => (next a).runIn w'
      | (.error e, w') => (.error e, w') := by
  show (procedure.run >>= _).run w = _
  rw [Action.run_bind]
  unfold runIn
  split
  case h_1 a w' heq => rw [heq]; rfl
  case h_2 e w' heq => rw [heq]; rfl

/-- A procedure behind another runs **where the other has come to an end**, and not if that failed. -/
theorem of_runIn_bind {procedure : Procedure α} {next : α → Procedure β} {w w' : World}
    {r : Except MergeError β} (h : (procedure >>= next).runIn w = (r, w')) :
    (∃ a w₁, procedure.runIn w = (.ok a, w₁) ∧ (next a).runIn w₁ = (r, w')) ∨
      ∃ e, procedure.runIn w = (.error e, w') ∧ r = .error e := by
  rw [runIn_bind] at h
  split at h
  case h_1 a w₁ hrun => exact .inl ⟨a, w₁, hrun, h⟩
  case h_2 e w₁ hrun =>
    cases h
    exact .inr ⟨e, hrun, rfl⟩

/-- A result changes nothing before the procedure behind it. -/
theorem of_runIn_ofResult_bind {result : Except MergeError α} {next : α → Procedure β} {w w' : World}
    {r : Except MergeError β} (h : (ofResult result >>= next).runIn w = (r, w')) :
    (∃ a, result = .ok a ∧ (next a).runIn w = (r, w')) ∨
      ∃ e, result = .error e ∧ r = .error e ∧ w' = w := by
  rw [runIn_bind, runIn_ofResult] at h
  cases result with
  | ok a => exact .inl ⟨a, rfl, h⟩
  | error e =>
    cases h
    exact .inr ⟨e, rfl, rfl, rfl⟩

end Procedure

/-! ### Loading and saving -/

/-- The gate that a file holds: the fresh one, if there is no file or its text means none. -/
def storedGate (files : FileSystem) (path : Text) : Except MergeError AccessGate :=
  match files.read path with
  | .error .notFound => .ok .fresh
  | .error fault => .error (.storage path fault)
  | .ok bytes =>
    match Text.ofUtf8? bytes with
    | some t => .ok ((AccessGate.ofText? t).getD .fresh)
    | none => .error (.storage path .notText)

/-- **Loading** finds the stored gate and changes nothing. -/
theorem runIn_loadGate (path : Text) (w : World) :
    (loadGate path).runIn w = (storedGate w.files path, w) := by
  have hread : (Procedure.ofAction (Action.readFile path)).runIn w = (.ok (w.files.read path), w) := by
    rw [Procedure.runIn_ofAction]
    rfl
  rw [loadGate, Procedure.runIn_bind, hread, storedGate]
  dsimp only
  generalize w.files.read path = stored
  cases stored with
  | error fault => cases fault <;> rfl
  | ok bytes =>
    dsimp only
    cases Text.ofUtf8? bytes <;> rfl

/-- A file that holds a written gate **stores that gate**. -/
theorem storedGate_of_read {files : FileSystem} {path : Text} {gate : AccessGate}
    (hgate : gate.IsWritable) (h : files.read path = .ok gate.toText.toUtf8) :
    storedGate files path = .ok gate := by
  unfold storedGate
  rw [h]
  dsimp only
  rw [Text.ofUtf8?_toUtf8]
  dsimp only
  rw [AccessGate.ofText?_toText hgate]
  rfl

/-- Where there is **no file**, the gate is fresh. -/
theorem storedGate_of_notFound {files : FileSystem} {path : Text}
    (h : files.read path = .error .notFound) : storedGate files path = .ok .fresh := by
  unfold storedGate
  rw [h]

/-- Whether a result is a fault of the file system. -/
def isFault {α : Type} : Except MergeError α → Bool
  | .error (.storage _ _) => true
  | _ => false

/-- A file system **after saving** a content: the directory of the file is made if need be, and then the
file is written. -/
def FileSystem.save (files : FileSystem) (path : Text) (content : Bytes) :
    Except MergeError Unit × FileSystem :=
  let made : Except MergeError Unit × FileSystem :=
    match Path.parent? path with
    | none => (.ok (), files)
    | some directory =>
      ((files.createDirectories directory).1.mapError (.storage directory),
        (files.createDirectories directory).2)
  match made with
  | (.error e, files) => (.error e, files)
  | (.ok _, files) =>
    match files.write path content with
    | .ok written => (.ok (), written)
    | .error fault => (.error (.storage path fault), files)

/-- A content that was saved without a fault **is read back**. -/
theorem FileSystem.read_save (files : FileSystem) (path : Text) (content : Bytes) :
    isFault (files.save path content).1 = true ∨
      (files.save path content).1 = .ok () ∧ (files.save path content).2.read path = .ok content := by
  unfold save
  dsimp only
  split
  case h_1 e files' hmade =>
    left
    split at hmade
    case h_1 => cases hmade
    case h_2 directory _ =>
      cases hcreate : (files.createDirectories directory).1 with
      | ok => rw [hcreate] at hmade; cases hmade
      | error fault =>
        rw [hcreate] at hmade
        cases hmade
        rfl
  case h_2 files' hmade =>
    split
    case h_1 written hwrite => exact .inr ⟨rfl, read_write hwrite⟩
    case h_2 => exact .inl rfl

/-- **Writing** a file changes nothing but the files. -/
theorem runIn_writeFile (path : Text) (content : Bytes) (w : World) :
    Procedure.runIn (do
      match ← Procedure.ofAction (Action.writeFile path content) with
      | .ok _ => pure ()
      | .error fault => throw (.storage path fault)) w =
    match w.files.write path content with
    | .ok written => (.ok (), { w with files := written })
    | .error fault => (.error (.storage path fault), w) := by
  have hrun : (Procedure.ofAction (Action.writeFile path content)).runIn w =
      (.ok (w.updateFiles (w.files.write path content)).1,
        (w.updateFiles (w.files.write path content)).2) := Procedure.runIn_ofAction _ _
  rw [Procedure.runIn_bind, hrun]
  cases w.files.write path content <;> rfl

/-- **Saving** the gate puts its text into the file, and changes nothing but the files. -/
theorem runIn_saveGate (path : Text) (gate : AccessGate) (w : World) :
    (saveGate path gate).runIn w = ((w.files.save path gate.toText.toUtf8).1,
      { w with files := (w.files.save path gate.toText.toUtf8).2 }) := by
  unfold saveGate FileSystem.save
  dsimp only
  cases hparent : Path.parent? path with
  | none =>
    refine (runIn_writeFile path gate.toText.toUtf8 w).trans ?_
    dsimp only
    cases w.files.write path gate.toText.toUtf8 <;> rfl
  | some directory =>
    dsimp only
    have hrun : (Procedure.ofAction (Action.createDirectories directory)).runIn w =
        (.ok (w.files.createDirectories directory).1,
          { w with files := (w.files.createDirectories directory).2 }) :=
      Procedure.runIn_ofAction _ _
    rw [Procedure.runIn_bind, hrun]
    generalize w.files.createDirectories directory = made
    obtain ⟨result, files⟩ := made
    cases result with
    | error fault => rfl
    | ok _ =>
      refine (runIn_writeFile path gate.toText.toUtf8 { w with files }).trans ?_
      dsimp only [Except.mapError]
      cases files.write path gate.toText.toUtf8 <;> rfl

end MailMerge
