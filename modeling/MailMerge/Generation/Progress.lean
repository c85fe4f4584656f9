import MailMerge.Error

/-!
# Progress

A run reports what it is doing. What was reported before a failure stays reported.

* `Tracked` is a result together with the reports before it;
* `Tracked.result_bind` and `Tracked.reports_bind` say how steps follow each other.
-/

namespace MailMerge

/-- A **report**: a phase begins, a record is done, or all documents are. -/
inductive Report where
  | phase (name : Text)
  | record (current total : Nat)
  | done (fileNames : List Text)
  deriving DecidableEq, Repr

/-- A **tracked** result: the reports, and a value or an error. -/
structure Tracked (α : Type) where
  reports : List Report
  result : Except MergeError α

namespace Tracked

variable {α β : Type}

/-- What comes after a step. A failed step ends the run. -/
def bind (x : Tracked α) (f : α → Tracked β) : Tracked β :=
  match x.result with
  | .ok a => ⟨x.reports ++ (f a).reports, (f a).result⟩
  | .error e => ⟨x.reports, .error e⟩

instance : Monad Tracked where
  pure a := ⟨[], .ok a⟩
  bind := bind

/-- A step that reports something. -/
def report (r : Report) : Tracked Unit := ⟨[r], .ok ()⟩

/-- A step that reports nothing. -/
def ofResult (r : Except MergeError α) : Tracked α := ⟨[], r⟩

@[simp] theorem result_pure (a : α) : (pure a : Tracked α).result = .ok a := rfl

@[simp] theorem result_report (r : Report) : (report r).result = .ok () := rfl

@[simp] theorem result_ofResult (r : Except MergeError α) : (ofResult r).result = r := rfl

@[simp] theorem result_bind (x : Tracked α) (f : α → Tracked β) :
    (x >>= f).result = x.result >>= fun a => (f a).result := by
  change (bind x f).result = _
  unfold bind
  cases x.result <;> rfl

@[simp] theorem reports_pure (a : α) : (pure a : Tracked α).reports = [] := rfl

@[simp] theorem reports_report (r : Report) : (report r).reports = [r] := rfl

@[simp] theorem reports_ofResult (r : Except MergeError α) : (ofResult r).reports = [] := rfl

theorem reports_bind {x : Tracked α} {a : α} (h : x.result = .ok a) (f : α → Tracked β) :
    (x >>= f).reports = x.reports ++ (f a).reports := by
  change (bind x f).reports = _
  simp [bind, h]

end Tracked

end MailMerge
