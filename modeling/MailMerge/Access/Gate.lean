import MailMerge.Error

/-!
# The access gate

The gate counts failed attempts. When there are too many, it is locked for a while.

* `AccessGate` is the state of the gate;
* `AccessGate.check` tells whether it is locked, and opens it when the time is over;
* `AccessGate.recordFailure` counts a failed attempt.
-/

namespace MailMerge

/-- The **access gate**: the number of failed attempts, and when the lock ends, if there
is one. -/
structure AccessGate where
  attempts : UInt32
  lockedUntil : Option Instant
  deriving DecidableEq, Repr

/-- When a lock that begins now **ends**. -/
def lockoutEnd (now : Instant) (minutes : Int) : Except MergeError Instant :=
  match now.plusMinutes? minutes with
  | some ending => .ok ending
  | none => .error (.config (.lockoutMinutes minutes))

namespace AccessGate

/-- The gate without attempts. -/
def fresh : AccessGate := ⟨0, none⟩

/-- **Checks** the gate. A lock that is over is taken away together with the attempts. -/
def check (now : Instant) (gate : AccessGate) : Except MergeError AccessGate :=
  match gate.lockedUntil with
  | none => .ok gate
  | some ending => if now.Before ending then .error (.lockedOut ending) else .ok fresh

/-- Counts a **failed attempt**, and tells what it comes to. From the last attempt that is
allowed on, the gate is locked. -/
def recordFailure (now : Instant) (maxAttempts : Nat) (lockoutMinutes : Int)
    (gate : AccessGate) : AccessGate × MergeError :=
  let attempts := gate.attempts + 1
  if maxAttempts ≤ attempts.toNat then
    match lockoutEnd now lockoutMinutes with
    | .ok ending => (⟨attempts, some ending⟩, .lockedOut ending)
    | .error e => ({ gate with attempts }, e)
  else ({ gate with attempts }, .accessDenied attempts.toNat maxAttempts)

/-- The gate after a **password was accepted**. -/
def recordSuccess (_gate : AccessGate) : AccessGate := fresh

/-! ### Laws -/

theorem check_of_lockedUntil_none {gate : AccessGate} (h : gate.lockedUntil = none)
    (now : Instant) : gate.check now = .ok gate := by
  simp [check, h]

theorem check_of_before {gate : AccessGate} {now ending : Instant}
    (h : gate.lockedUntil = some ending) (hb : now.Before ending) :
    gate.check now = .error (.lockedOut ending) := by
  simp [check, h, hb]

theorem check_of_not_before {gate : AccessGate} {now ending : Instant}
    (h : gate.lockedUntil = some ending) (hb : ¬ now.Before ending) :
    gate.check now = .ok fresh := by
  simp [check, h, hb]

/-- Each failure counts as one attempt. -/
@[simp] theorem attempts_recordFailure (now : Instant) (maxAttempts : Nat) (minutes : Int)
    (gate : AccessGate) :
    (gate.recordFailure now maxAttempts minutes).1.attempts = gate.attempts + 1 := by
  unfold recordFailure
  dsimp only
  split
  · split <;> rfl
  · rfl

end AccessGate

end MailMerge
