import MailMerge.Host.World
import MailMerge.Proofs.FileChanges

/-!
# Hosts that fail

Any operation may fail, whatever the files are like: the disk may be full, or the program may lack a right.
A host does what an operation asks for, or it reports a fault and leaves everything as it was; only a file
that could not be written to its end may be left with another content, and directories that could not all
be made may be left in part. Files that are there can be removed.

* `FileSystem.HostStep` is all that a host may do at an operation;
* `Action.MayEnd` and `Procedure.MayEnd` are how actions and procedures may end on such a host;
* `Procedure.of_mayEnd_bind` — procedures follow each other until one fails;
* `Action.mayEnd_run` — performing an action in a world is one way for it to end.
-/

namespace MailMerge

/-- Whether an operation **only asks** for something, and leaves the files as they are. -/
def Operation.onlyAsks : Operation → Bool
  | .writeFile _ _ | .createDirectories _ | .rename _ _ | .removeFile _ => false
  | .readFile _ | .hasEntry _ | .environment _ | .homeDirectory | .currentTime | .exchange _ => true

/-- What a **host** may reply to an operation, and which files there are then. -/
inductive FileSystem.HostStep (fs : FileSystem) :
    (operation : Operation) → operation.Reply → FileSystem → Prop
  | written {path : Text} {content : Bytes} {fs' : FileSystem} (h : fs.write path content = .ok fs') :
      fs.HostStep (.writeFile path content) (.ok ()) fs'
  | unwritten (path : Text) (content : Bytes) (fault : StorageFault) :
      fs.HostStep (.writeFile path content) (.error fault) fs
  /-- The write came to an end too early, or another file was cut to nothing. -/
  | cutShort {path : Text} {content part : Bytes} {fs' : FileSystem} (fault : StorageFault)
      (h : fs.write path part = .ok fs') : fs.HostStep (.writeFile path content) (.error fault) fs'
  | grown {path : Text} {fs' : FileSystem} (h : fs.GrowsTo fs') (reply : Except StorageFault Unit) :
      fs.HostStep (.createDirectories path) reply fs'
  | moved {old new : Text} {fs' : FileSystem} (h : fs.rename old new = .ok fs') :
      fs.HostStep (.rename old new) (.ok ()) fs'
  | unmoved (old new : Text) (fault : StorageFault) :
      fs.HostStep (.rename old new) (.error fault) fs
  | removed {path : Text} {fs' : FileSystem} (h : fs.remove path = .ok fs') :
      fs.HostStep (.removeFile path) (.ok ()) fs'
  | absent {path : Text} {fault : StorageFault} (h : fs.remove path = .error fault) :
      fs.HostStep (.removeFile path) (.error fault) fs
  | asked {operation : Operation} (h : operation.onlyAsks = true) (reply : operation.Reply) :
      fs.HostStep operation reply fs

/-- How an **action may end**: with a value, and with files that are there then. -/
inductive Action.MayEnd {α : Type} : Action α → FileSystem → α → FileSystem → Prop
  | done (a : α) (fs : FileSystem) : (Action.done a).MayEnd fs a fs
  | perform {operation : Operation} {next : operation.Reply → Action α} {fs fs₁ fs₂ : FileSystem}
      {reply : operation.Reply} {a : α} (hstep : fs.HostStep operation reply fs₁)
      (hrest : (next reply).MayEnd fs₁ a fs₂) : (Action.perform operation next).MayEnd fs a fs₂

/-- How a **procedure may end**: with a value or an error. -/
def Procedure.MayEnd {α : Type} (procedure : Procedure α) (fs : FileSystem) (r : Except MergeError α)
    (fs' : FileSystem) : Prop := Action.MayEnd procedure.run fs r fs'

variable {α β : Type} {fs fs' : FileSystem}

/-! ### Actions -/

namespace Action

theorem of_mayEnd_pure {a b : α} (h : (pure a : Action α).MayEnd fs b fs') : b = a ∧ fs' = fs := by
  cases h
  exact ⟨rfl, rfl⟩

theorem of_mayEnd_of {operation : Operation} {reply : operation.Reply}
    (h : (Action.of operation).MayEnd fs reply fs') : fs.HostStep operation reply fs' := by
  cases h with
  | perform hstep hrest =>
    cases hrest
    exact hstep

/-- An action behind another goes on **where that may have ended**. -/
theorem of_mayEnd_bind {x : Action α} {f : α → Action β} {b : β} (h : (x >>= f).MayEnd fs b fs') :
    ∃ a fs₁, x.MayEnd fs a fs₁ ∧ (f a).MayEnd fs₁ b fs' := by
  change (x.bind f).MayEnd fs b fs' at h
  induction x generalizing fs with
  | done a => exact ⟨a, fs, .done a fs, h⟩
  | perform operation next ih =>
    cases h with
    | perform hstep hrest =>
      obtain ⟨a, fs₁, hx, hf⟩ := ih _ hrest
      exact ⟨a, fs₁, .perform hstep hx, hf⟩

end Action

/-! ### Procedures -/

namespace Procedure

theorem of_mayEnd_pure {a : α} {r : Except MergeError α} (h : (pure a : Procedure α).MayEnd fs r fs') :
    r = .ok a ∧ fs' = fs := Action.of_mayEnd_pure h

theorem of_mayEnd_throw {e : MergeError} {r : Except MergeError α}
    (h : (throw e : Procedure α).MayEnd fs r fs') : r = .error e ∧ fs' = fs := Action.of_mayEnd_pure h

/-- A procedure behind another goes on **where that may have ended**, and not if it failed. -/
theorem of_mayEnd_bind {procedure : Procedure α} {next : α → Procedure β} {r : Except MergeError β}
    (h : (procedure >>= next).MayEnd fs r fs') :
    (∃ a fs₁, procedure.MayEnd fs (.ok a) fs₁ ∧ (next a).MayEnd fs₁ r fs') ∨
      ∃ e, procedure.MayEnd fs (.error e) fs' ∧ r = .error e := by
  obtain ⟨a, fs₁, hprocedure, hnext⟩ := Action.of_mayEnd_bind h
  cases a with
  | ok a => exact .inl ⟨a, fs₁, hprocedure, hnext⟩
  | error e =>
    obtain ⟨rfl, rfl⟩ := Action.of_mayEnd_pure hnext
    exact .inr ⟨e, hprocedure, rfl⟩

/-- An action does not fail, so that a procedure behind it goes on in any case. -/
theorem of_mayEnd_ofAction_bind {x : Action α} {next : α → Procedure β} {r : Except MergeError β}
    (h : (ofAction x >>= next).MayEnd fs r fs') :
    ∃ a fs₁, x.MayEnd fs a fs₁ ∧ (next a).MayEnd fs₁ r fs' := by
  obtain ⟨lifted, fs₁, hlift, hnext⟩ := Action.of_mayEnd_bind h
  obtain ⟨a, fs₂, hx, hpure⟩ := Action.of_mayEnd_bind hlift
  obtain ⟨rfl, rfl⟩ := Action.of_mayEnd_pure hpure
  exact ⟨a, _, hx, hnext⟩

end Procedure

/-! ### Worlds -/

/-- **Sending** a request leaves the files as they are. -/
theorem World.files_send (w : World) (request : HttpRequest) : (w.send request).2.files = w.files := by
  unfold send
  split <;> rfl

/-- A world **is a host**. -/
theorem World.hostStep_perform (w : World) (operation : Operation) :
    w.files.HostStep operation (w.perform operation).1 (w.perform operation).2.files := by
  -- operations on files succeed or leave the files as they are, and the others only ask
  cases operation with
  | writeFile path content =>
    rw [perform]
    cases hwrite : w.files.write path content with
    | ok files => exact .written hwrite
    | error fault => exact .unwritten path content fault
  | createDirectories path => exact .grown (w.files.growsTo_createDirectories path) _
  | rename old new =>
    rw [perform]
    cases hrename : w.files.rename old new with
    | ok files => exact .moved hrename
    | error fault => exact .unmoved old new fault
  | removeFile path =>
    rw [perform]
    cases hremove : w.files.remove path with
    | ok files => exact .removed hremove
    | error fault => exact .absent hremove
  | exchange request =>
    rw [perform, files_send]
    exact .asked rfl _
  | readFile _ => exact .asked rfl _
  | hasEntry _ => exact .asked rfl _
  | environment _ => exact .asked rfl _
  | homeDirectory => exact .asked rfl _
  | currentTime => exact .asked rfl _

/-- **Performing an action** in a world is one way for it to end. -/
theorem Action.mayEnd_run (action : Action α) (w : World) :
    action.MayEnd w.files (action.run w).1 (action.run w).2.files := by
  induction action generalizing w with
  | done a => exact .done a w.files
  | perform operation next ih => exact .perform (w.hostStep_perform operation) (ih _ _)

end MailMerge
