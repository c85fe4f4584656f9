import MailMerge.Proofs.FaultyHost
import MailMerge.Proofs.StoredGate

/-!
# The steps of a run

An action that is performed in a world takes steps: each is an operation, together with the world that the
operation finds. What comes first and what may come at all is a statement about these steps; what becomes of
the files follows from the kinds of operations among them.

* `Action.steps` are the steps of an action, and `Action.steps_bind` says that those of one action come before
  those of the next;
* `Action.Performs` says that all operations are of some kind, and `Action.performs_bindExcept` that it
  is enough to see this of one action after the other until one fails;
* `Action.run_of_looks` — an action that only looks leaves the world as it is;
* `Action.differsAt_run` — operations that spare all files but some leave the others as they are.
-/

namespace MailMerge

/-! ### Steps -/

/-- A **step** of a run: an operation, and the world in which it is performed. -/
structure Step where
  world : World
  operation : Operation

namespace Action

variable {ε α β : Type} {P Q : Operation → Prop} {w : World}

/-- The **steps** of an action in a world, in their order. -/
def steps : Action α → World → List Step
  | .done _, _ => []
  | .perform operation next, w =>
    ⟨w, operation⟩ :: (next (w.perform operation).1).steps (w.perform operation).2

@[simp] theorem steps_pure (a : α) (w : World) : (pure a : Action α).steps w = [] := rfl

@[simp] theorem steps_of (operation : Operation) (w : World) :
    (of operation).steps w = [⟨w, operation⟩] := rfl

/-- The steps of an action **come before** those of the action behind it. -/
theorem steps_bind (x : Action α) (f : α → Action β) (w : World) :
    (x >>= f).steps w = x.steps w ++ (f (x.run w).1).steps (x.run w).2 := by
  change (bind x f).steps w = _
  induction x generalizing w with
  | done a => rfl
  | perform operation next ih => exact congrArg (_ :: ·) (ih _ _)

/-- Actions put behind each other **do not depend on the brackets**. -/
theorem bind_assoc {γ : Type} (x : Action α) (f : α → Action β) (g : β → Action γ) :
    (x.bind f).bind g = x.bind fun a => (f a).bind g := by
  induction x with
  | done a => rfl
  | perform operation next ih => exact congrArg (perform operation) (funext ih)

theorem bind_pure (x : Action α) : x.bind .done = x := by
  induction x with
  | done a => rfl
  | perform operation next ih => exact congrArg (perform operation) (funext ih)

instance : LawfulMonad Action :=
  LawfulMonad.mk' Action bind_pure (fun _ _ => rfl) bind_assoc

/-- The steps of actions that may fail: those of the second come **if the first succeeds**. -/
theorem steps_bindExcept (x : ExceptT ε Action α) (f : α → ExceptT ε Action β) (w : World) :
    (x >>= f).run.steps w = x.run.steps w ++
      match x.run.run w with
      | (.ok a, w') => (f a).run.steps w'
      | (.error _, _) => [] := by
  change (x.run >>= _).steps w = _
  rw [steps_bind]
  congr 1
  split
  case h_1 a w' hrun => rw [hrun]; rfl
  case h_2 e w' hrun => rw [hrun]; rfl

/-- Actions that may fail **follow each other** until one does. -/
theorem run_bindExcept (x : ExceptT ε Action α) (f : α → ExceptT ε Action β) (w : World) :
    (x >>= f).run.run w =
      match x.run.run w with
      | (.ok a, w') => (f a).run.run w'
      | (.error e, w') => (.error e, w') := by
  change (x.run >>= _).run w = _
  rw [run_bind]
  split
  case h_1 a w' hrun => rw [hrun]; rfl
  case h_2 e w' hrun => rw [hrun]; rfl

/-- What **succeeds** has succeeded in the first action and in the second. -/
theorem of_run_bindExcept {x : ExceptT ε Action α} {f : α → ExceptT ε Action β} {b : β} {w' : World}
    (h : (x >>= f).run.run w = (.ok b, w')) :
    ∃ a w₁, x.run.run w = (.ok a, w₁) ∧ (f a).run.run w₁ = (.ok b, w') := by
  rw [run_bindExcept] at h
  split at h
  case h_1 a w₁ hrun => exact ⟨a, w₁, hrun, h⟩
  case h_2 => cases h

/-- The steps of the second action are **among those of both**, if the first succeeds. -/
theorem mem_steps_bindExcept {x : ExceptT ε Action α} {f : α → ExceptT ε Action β} {a : α}
    {w₁ : World} {step : Step} (hrun : x.run.run w = (.ok a, w₁)) (h : step ∈ (f a).run.steps w₁) :
    step ∈ (x >>= f).run.steps w := by
  rw [steps_bindExcept, hrun]
  exact List.mem_append_right _ h

theorem mem_steps_bindExcept_left {x : ExceptT ε Action α} {step : Step} (h : step ∈ x.run.steps w)
    (f : α → ExceptT ε Action β) : step ∈ (x >>= f).run.steps w := by
  rw [steps_bindExcept]
  exact List.mem_append_left _ h

/-! ### Kinds of operations -/

/-- Whether **every operation** that an action performs in a world is of some kind. -/
def Performs (P : Operation → Prop) (x : Action α) (w : World) : Prop :=
  ∀ step ∈ x.steps w, P step.operation

theorem performs_pure (a : α) : (pure a : Action α).Performs P w := fun _ h => nomatch h

theorem performs_of {operation : Operation} (h : P operation) : (of operation).Performs P w := by
  intro step hstep
  rw [steps_of, List.mem_singleton] at hstep
  rw [hstep]
  exact h

theorem performs_bind {x : Action α} {f : α → Action β} (hx : x.Performs P w)
    (hf : (f (x.run w).1).Performs P (x.run w).2) : (x >>= f).Performs P w := by
  intro step hstep
  rw [steps_bind, List.mem_append] at hstep
  exact hstep.elim (hx step) (hf step)

/-- Actions that may fail perform operations of some kind, if each does **where the one before it came to an
end**. -/
theorem performs_bindExcept {x : ExceptT ε Action α} {f : α → ExceptT ε Action β}
    (hx : x.run.Performs P w)
    (hf : ∀ a w', x.run.run w = (.ok a, w') → (f a).run.Performs P w') :
    (x >>= f).run.Performs P w := by
  intro step hstep
  rw [steps_bindExcept, List.mem_append] at hstep
  rcases hstep with hstep | hstep
  · exact hx step hstep
  · split at hstep
    case h_1 a w' hrun => exact hf a w' hrun step hstep
    case h_2 => cases hstep

theorem performs_lift {x : Action α} (hx : x.Performs P w) :
    (ExceptT.lift x : ExceptT ε Action α).run.Performs P w :=
  performs_bind hx (performs_pure _)

/-- A **single operation** among actions that may fail. -/
theorem performs_operation {operation : Operation} (h : P operation) :
    (ExceptT.lift (of operation) : ExceptT ε Action operation.Reply).run.Performs P w :=
  performs_lift (performs_of h)

theorem Performs.mono {x : Action α} (h : x.Performs P w)
    (himp : ∀ operation, P operation → Q operation) :
    x.Performs Q w := fun step hstep => himp _ (h step hstep)

/-! ### Looking -/

end Action

/-- Whether an operation **only looks**: it changes nothing, and no endpoint hears of it. -/
def Operation.looks : Operation → Bool
  | .readFile _ | .hasEntry _ | .environment _ | .homeDirectory | .currentTime => true
  | .writeFile _ _ | .createDirectories _ | .rename _ _ | .removeFile _ | .exchange _ => false

theorem World.perform_of_looks {operation : Operation} (h : operation.looks = true) (w : World) :
    (w.perform operation).2 = w := by
  cases operation <;> first | rfl | cases h

theorem Operation.onlyAsks_of_looks {operation : Operation} (h : operation.looks = true) :
    operation.onlyAsks = true := by
  cases operation <;> first | rfl | cases h

/-- An action that **only looks** leaves the world as it is. -/
theorem Action.run_of_looks {α : Type} {x : Action α} {w : World}
    (h : x.Performs (fun operation => operation.looks = true) w) : (x.run w).2 = w := by
  induction x generalizing w with
  | done a => rfl
  | perform operation next ih =>
    obtain ⟨hlooks, hnext⟩ := List.forall_mem_cons.1 h
    rw [run, ih _ hnext]
    exact w.perform_of_looks hlooks

/-! ### Files that are spared -/

namespace FileSystem

variable {fs fs' fs'' : FileSystem} {paths : List Text}

/-- The files **differ at most** at the places of some paths. All directories are still there, and
others may have been made. -/
structure DiffersAt (fs : FileSystem) (paths : List Text) (fs' : FileSystem) : Prop where
  working : fs'.working = fs.working
  kept : ∀ place, fs.node? place = some .directory → fs'.node? place = some .directory
  files : ∀ place, ¬ fs'.LeadsTo paths place → ∀ content,
    fs'.node? place = some (.file content) ↔ fs.node? place = some (.file content)

namespace DiffersAt

theorem refl (fs : FileSystem) (paths : List Text) : fs.DiffersAt paths fs :=
  ⟨rfl, fun _ h => h, fun _ _ _ => Iff.rfl⟩

theorem trans (h : fs.DiffersAt paths fs') (h' : fs'.DiffersAt paths fs'') : fs.DiffersAt paths fs'' where
  working := h'.working.trans h.working
  kept place hplace := h'.kept place (h.kept place hplace)
  files place hplace content := by
    -- a path leads to where it did before directories were made
    have hbefore : ¬ fs'.LeadsTo paths place := fun ⟨path, hpath, hleads⟩ =>
      hplace ⟨path, hpath, place?_mono h'.working h'.kept hleads⟩
    exact (h'.files place hplace content).trans (h.files place hbefore content)

end DiffersAt

theorem ChangedAt.differsAt (h : fs.ChangedAt paths fs') : fs.DiffersAt paths fs' where
  working := h.working
  kept place := (h.directory place).2
  files place hplace content := by
    rw [leadsTo_iff h.toSameDirectories] at hplace
    rw [h.others place hplace]

theorem GrowsTo.differsAt (h : fs.GrowsTo fs') (paths : List Text) : fs.DiffersAt paths fs' where
  working := h.working
  kept place := h.kept place .directory
  files place _ content := ⟨h.made place content, h.kept place (.file content)⟩

end FileSystem

/-- Whether an operation **spares** all files but those of some paths. -/
def Operation.Spares (paths : List Text) : Operation → Prop
  | .writeFile path _ => path ∈ paths
  | .rename _ _ | .removeFile _ => False
  | .createDirectories _ | .readFile _ | .hasEntry _ | .environment _ | .homeDirectory | .currentTime
  | .exchange _ => True

theorem Operation.spares_of_onlyAsks {operation : Operation} (h : operation.onlyAsks = true)
    (paths : List Text) : operation.Spares paths := by
  cases operation <;> trivial

theorem World.differsAt_perform {operation : Operation} {paths : List Text} (h : operation.Spares paths)
    (w : World) : w.files.DiffersAt paths (w.perform operation).2.files := by
  cases operation with
  | writeFile path content =>
    rw [perform]
    cases hwrite : w.files.write path content with
    | error fault => exact .refl w.files paths
    | ok files =>
      have hsub : [path] ⊆ paths := List.cons_subset.2 ⟨h, List.nil_subset paths⟩
      exact ((FileSystem.ChangedAt.write hwrite).mono hsub).differsAt
  | createDirectories path => exact (w.files.growsTo_createDirectories path).differsAt paths
  | rename old new => exact h.elim
  | removeFile path => exact h.elim
  | exchange request =>
    rw [perform, files_send]
    exact .refl w.files paths
  | readFile _ => exact .refl w.files paths
  | hasEntry _ => exact .refl w.files paths
  | environment _ => exact .refl w.files paths
  | homeDirectory => exact .refl w.files paths
  | currentTime => exact .refl w.files paths

/-- An action whose operations **spare** all files but those of some paths leaves the others as they are. -/
theorem Action.differsAt_run {α : Type} {x : Action α} {w : World} {paths : List Text}
    (h : x.Performs (Operation.Spares paths) w) : w.files.DiffersAt paths (x.run w).2.files := by
  induction x generalizing w with
  | done a => exact .refl w.files paths
  | perform operation next ih =>
    obtain ⟨hspares, hnext⟩ := List.forall_mem_cons.1 h
    exact (w.differsAt_perform hspares).trans (ih _ hnext)

end MailMerge
