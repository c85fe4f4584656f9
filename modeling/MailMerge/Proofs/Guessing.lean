import MailMerge.Proofs.GateAttempt

/-!
# Guessing a password

Passwords can be guessed only as fast as the gate allows. Attempts follow each other on one state file,
which is the only thing that they hand on, so that a sequence of attempts is a sequence of steps of the
stored gate (`gateRun_visits`).

A window is closed once the lock of one of its rejections ends behind it. Before, it has an allowance:
the failures that the stored gate still permits. `AccessGate.Step.pays` is the heart of the argument:
a step inside of a window that accepts no password pays for its rejections from that allowance. A lock
that runs out inside of the window was set before the window, and gives the full allowance back; a lock
that was set inside of the window cannot run out there, because the window is no longer than a lock.

The last holds of leap seconds with one exception. The calendar adds minutes without counting them, and
leaves a leap second for the second after it, so that a lock from a leap second on ends up to a second
before the window does that began right before it (`Instant.LeapsFrom`).

* `visits` performs a sequence of attempts;
* `guesses_bounded` — no request is sent while the gate is locked, and the rejections in a window are
  bounded;
* `guesses_unbounded_in_leap_second` — the exception of leap seconds is one.
-/

namespace MailMerge

/-! ### The order of time -/

namespace Instant

variable {a b t ending : Instant}

theorem Before.of_not_before {t' : Instant} (h : t'.Before b) (hle : ¬ t'.Before t) : t.Before b := by
  unfold Before at *
  omega

theorem not_before_of_not_before {t' : Instant} (h : ¬ t.Before b) (hle : ¬ t'.Before t) :
    ¬ t'.Before b := fun h' => h (h'.of_not_before hle)

/-- Whether an instant lies **in the leap second** behind another, and less than a second after it. -/
def LeapsFrom (a t : Instant) : Prop :=
  t.seconds = a.seconds ∧ a.nanos < nanosPerSecond ∧ nanosPerSecond ≤ t.nanos ∧
    t.nanos < a.nanos + nanosPerSecond

instance (a t : Instant) : Decidable (a.LeapsFrom t) := by unfold LeapsFrom; infer_instance

/-- What minutes that are added make of an instant. -/
theorem plusMinutes?_eq_some {minutes : Int} (hminutes : 0 < minutes)
    (h : t.plusMinutes? minutes = some ending) :
    ending.seconds = t.seconds + minutes * 60 ∧
      (nanosPerSecond ≤ t.nanos ∧ ending.nanos = t.nanos - nanosPerSecond ∨
        t.nanos < nanosPerSecond ∧ ending.nanos = t.nanos) := by
  unfold plusMinutes? at h
  dsimp only at h
  obtain ⟨-, -, hending⟩ := Option.map_eq_some_iff.1 h
  subst hending
  by_cases hleap : nanosPerSecond ≤ t.nanos
  · rw [if_pos ⟨hleap, hminutes⟩]
    exact ⟨rfl, .inl ⟨hleap, rfl⟩⟩
  · rw [if_neg fun hand => hleap hand.1, if_neg fun hand => hleap hand.1]
    exact ⟨rfl, .inr ⟨Nat.lt_of_not_le hleap, rfl⟩⟩

/-- Adding minutes **keeps the order** of instants, unless the later one lies in a leap second that the
earlier one is right before. -/
theorem not_before_of_plusMinutes? {minutes : Int} (hminutes : 0 < minutes)
    (ha : a.plusMinutes? minutes = some b) (ht : t.plusMinutes? minutes = some ending)
    (hle : ¬ t.Before a) (hleap : ¬ a.LeapsFrom t) : ¬ ending.Before b := by
  have hb := plusMinutes?_eq_some hminutes ha
  have hending := plusMinutes?_eq_some hminutes ht
  unfold LeapsFrom at hleap
  unfold Before at *
  omega

end Instant

/-! ### Sequences of attempts -/

/-- An **attempt**: a password, and when it is given. -/
structure Attempt where
  password : Text
  now : Instant

/-- What is seen of an attempt: when it is made, the stored gate that it finds, how it ends, and the
requests that it sends together with their answers. -/
structure Visit where
  now : Instant
  found : Except MergeError AccessGate
  result : Except MergeError Unit
  sent : List Exchange

/-- Performs **attempts one after another**. -/
def visits (path : Text) (settings : AccessSettings) : List Attempt → World → List Visit
  | [], _ => []
  | a :: attempts, w =>
    let outcome := (authorize path settings a.password a.now).runIn w
    { now := a.now
      found := storedGate w.files path
      result := outcome.1
      sent := outcome.2.exchanges.drop w.exchanges.length } :: visits path settings attempts outcome.2

namespace Visit

/-- Whether a visit falls into the window from one instant to another. -/
def IsWithin (a b : Instant) (v : Visit) : Prop := ¬ v.now.Before a ∧ v.now.Before b

instance (a b : Instant) (v : Visit) : Decidable (v.IsWithin a b) := by
  unfold IsWithin; infer_instance

/-- Whether a visit finds the gate **locked**. -/
def FindsLock (v : Visit) : Prop :=
  ∃ gate ending, v.found = .ok gate ∧ gate.lockedUntil = some ending ∧ v.now.Before ending

/-- Whether the endpoint accepted a password during a visit. -/
def IsAccepted (v : Visit) : Prop := ∃ e ∈ v.sent, isAcceptance e = true

instance (v : Visit) : Decidable v.IsAccepted := by unfold IsAccepted; infer_instance

/-- Whether the endpoint rejected a password during a visit. -/
def IsRejected (v : Visit) : Prop := ∃ e ∈ v.sent, isRejection e = true

instance (v : Visit) : Decidable v.IsRejected := by unfold IsRejected; infer_instance

end Visit

/-- The number of **rejected requests** in the window from one instant to another. -/
def rejections (a b : Instant) (vs : List Visit) : Nat :=
  ((vs.filter fun v => v.IsWithin a b).flatMap (·.sent)).countP isRejection

/-- Visits that are **steps of the gate**, one after another. -/
inductive GateRun (settings : AccessSettings) : AccessGate → List Visit → Prop
  | nil {gate : AccessGate} : GateRun settings gate []
  | cons {gate gate' : AccessGate} {v : Visit} {vs : List Visit} (hfound : v.found = .ok gate)
      (hstep : gate.Step settings v.now v.result v.sent gate') (hrest : GateRun settings gate' vs) :
      GateRun settings gate (v :: vs)

variable {path : Text} {settings : AccessSettings} {attempts : List Attempt} {w : World}

/-- Attempts whose saves succeed are **steps of the stored gate**. -/
theorem gateRun_visits {gate : AccessGate} (hgate : storedGate w.files path = .ok gate)
    (hminutes : 0 < settings.lockoutMinutes)
    (hclock : ∀ a ∈ attempts, a.now.nanos < 2 * Instant.nanosPerSecond)
    (hsaved : ∀ v ∈ visits path settings attempts w, isFault v.result = false) :
    GateRun settings gate (visits path settings attempts w) := by
  induction attempts generalizing w gate with
  | nil => exact .nil
  | cons a attempts ih =>
    rw [visits] at hsaved ⊢
    generalize hrun : (authorize path settings a.password a.now).runIn w = outcome at hsaved ⊢
    obtain ⟨r, w'⟩ := outcome
    obtain ⟨hfirst, hothers⟩ := List.forall_mem_cons.1 hsaved
    obtain ⟨hnow, hlater⟩ := List.forall_mem_cons.1 hclock
    obtain ⟨gate', sent, hstored, hexchanges, hstep⟩ :=
      step_authorize hgate hminutes hnow hrun hfirst
    have hsent : w'.exchanges.drop w.exchanges.length = sent := by rw [hexchanges, List.drop_left]
    rw [hsent]
    exact .cons hgate hstep (ih hstored hlater hothers)

theorem map_now_visits (path : Text) (settings : AccessSettings) (attempts : List Attempt) (w : World) :
    (visits path settings attempts w).map (·.now) = attempts.map (·.now) := by
  induction attempts generalizing w with
  | nil => rfl
  | cons a attempts ih =>
    rw [visits, List.map_cons, List.map_cons, ih]

/-- Visits are **in the order of time** as attempts are. -/
theorem pairwise_visits (h : attempts.Pairwise fun a a' => ¬ a'.now.Before a.now) :
    (visits path settings attempts w).Pairwise fun v v' => ¬ v'.now.Before v.now := by
  have hnow : (attempts.map (·.now)).Pairwise fun t t' => ¬ t'.Before t := List.pairwise_map.2 h
  rw [← map_now_visits path settings attempts w] at hnow
  exact List.pairwise_map.1 hnow

/-! ### The lock -/

namespace AccessGate.Step

variable {gate gate' : AccessGate} {now ending : Instant} {r : Except MergeError Unit}
  {sent : List Exchange}

/-- A **locked gate stays as it is**, and nobody is asked. -/
theorem of_lockedUntil (h : gate.Step settings now r sent gate')
    (hlock : gate.lockedUntil = some ending) (hbefore : now.Before ending) :
    sent = [] ∧ gate' = gate := by
  have hlocked := check_of_before hlock hbefore
  cases h with
  | unasked => exact ⟨rfl, rfl⟩
  | locked => exact ⟨rfl, rfl⟩
  | unanswered hcheck => rw [hlocked] at hcheck; cases hcheck
  | accepted hcheck => rw [hlocked] at hcheck; cases hcheck
  | rejected hcheck => rw [hlocked] at hcheck; cases hcheck

end AccessGate.Step

namespace AccessGate

variable {gate opened : AccessGate} {now ending : Instant}

/-- A failure is **counted**, and from the last that is allowed on the gate is locked. -/
theorem recordFailure_cases (hlock : gate.lockedUntil = none)
    (hending : now.plusMinutes? settings.lockoutMinutes = some ending) :
    (settings.maxAttempts ≤ (gate.attempts + 1).toNat ∧
      gate.recordFailure now settings.maxAttempts settings.lockoutMinutes =
        (⟨gate.attempts + 1, some ending⟩, .lockedOut ending)) ∨
    ((gate.attempts + 1).toNat < settings.maxAttempts ∧
      gate.recordFailure now settings.maxAttempts settings.lockoutMinutes =
        (⟨gate.attempts + 1, none⟩,
          .accessDenied (gate.attempts + 1).toNat settings.maxAttempts)) := by
  have hend : lockoutEnd now settings.lockoutMinutes = .ok ending := lockoutEnd_eq_ok_iff.2 hending
  unfold recordFailure
  dsimp only
  rw [hend, hlock]
  by_cases hlast : settings.maxAttempts ≤ (gate.attempts + 1).toNat
  · rw [if_pos hlast]
    exact .inl ⟨hlast, rfl⟩
  · rw [if_neg hlast]
    exact .inr ⟨Nat.lt_of_not_le hlast, rfl⟩

/-- An attempt that **announces a lock** leaves the gate locked. -/
theorem Step.lockedUntil_of_lockedOut {gate' : AccessGate} {sent : List Exchange}
    (h : gate.Step settings now (.error (.lockedOut ending)) sent gate') :
    gate'.lockedUntil = some ending := by
  -- the error is not known to be a lock before the step is taken apart
  generalize hr : (Except.error (.lockedOut ending) : Except MergeError Unit) = r at h
  cases h with
  | unasked hother => exact absurd hr.symm (hother ending)
  | locked hcheck =>
    cases hr
    unfold check at hcheck
    split at hcheck
    case h_1 => cases hcheck
    case h_2 other hlock =>
      split at hcheck
      case isTrue =>
        cases hcheck
        exact hlock
      case isFalse => cases hcheck
  | unanswered => cases hr
  | accepted => cases hr
  | rejected hcheck hending =>
    rcases recordFailure_cases (lockedUntil_of_check hcheck) hending with
      ⟨-, hfailure⟩ | ⟨-, hfailure⟩
    · rw [hfailure] at hr ⊢
      cases hr
      rfl
    · rw [hfailure] at hr
      cases hr

/-! ### The allowance -/

/-- Whether the attempts of an unlocked gate are below the limit. -/
def IsBelowLimit (settings : AccessSettings) (gate : AccessGate) : Prop :=
  gate.lockedUntil = none → gate.attempts.toNat < max 1 settings.maxAttempts

/-- The failures that the gate still permits before an instant. A lock that ends before it gives all
of them back. -/
def allowance (settings : AccessSettings) (b : Instant) (gate : AccessGate) : Nat :=
  match gate.lockedUntil with
  | none => max 1 settings.maxAttempts - gate.attempts.toNat
  | some ending => if ending.Before b then max 1 settings.maxAttempts else 0

theorem isBelowLimit_fresh : fresh.IsBelowLimit settings := by
  intro _
  show 0 < max 1 settings.maxAttempts
  omega

theorem allowance_le (b : Instant) : gate.allowance settings b ≤ max 1 settings.maxAttempts := by
  unfold allowance
  split
  · omega
  · split <;> omega

theorem IsBelowLimit.check (h : gate.IsBelowLimit settings) (hcheck : gate.check now = .ok opened) :
    opened.IsBelowLimit settings := by
  unfold AccessGate.check at hcheck
  split at hcheck
  case h_1 =>
    cases hcheck
    exact h
  case h_2 =>
    split at hcheck
    case isTrue => cases hcheck
    case isFalse =>
      cases hcheck
      exact isBelowLimit_fresh

/-- **Opening** the gate inside of a window changes nothing of its allowance: a lock that is over gives
back what it had already been granted. -/
theorem allowance_check {b : Instant} (hcheck : gate.check now = .ok opened) (hbefore : now.Before b) :
    opened.allowance settings b = gate.allowance settings b := by
  cases hlock : gate.lockedUntil with
  | none =>
    rw [check_of_lockedUntil_none hlock] at hcheck
    cases hcheck
    rfl
  | some ending =>
    have hover : ¬ now.Before ending := by
      intro hlocked
      rw [check_of_before hlock hlocked] at hcheck
      cases hcheck
    rw [check_of_not_before hlock hover] at hcheck
    cases hcheck
    have hinside : ending.Before b := hbefore.of_not_before hover
    unfold allowance
    rw [hlock]
    show max 1 settings.maxAttempts - 0 = if ending.Before b then max 1 settings.maxAttempts else 0
    rw [if_pos hinside, Nat.sub_zero]

/-- A failure below the limit does **not wrap around**. -/
theorem toNat_attempts_succ (hlimit : gate.attempts.toNat < max 1 settings.maxAttempts)
    (hmax : settings.maxAttempts < UInt32.size) :
    (gate.attempts + 1).toNat = gate.attempts.toNat + 1 := by
  have hsize : UInt32.size = 4294967296 := rfl
  rw [UInt32.toNat_add, UInt32.toNat_one]
  omega

namespace Step

variable {gate' : AccessGate} {r : Except MergeError Unit} {sent : List Exchange}

/-- A step leaves the attempts of an unlocked gate **below the limit**. -/
theorem isBelowLimit (h : gate.Step settings now r sent gate') (hlimit : gate.IsBelowLimit settings) :
    gate'.IsBelowLimit settings := by
  cases h with
  | unasked => exact hlimit
  | locked => exact hlimit
  | unanswered hcheck => exact hlimit.check hcheck
  | accepted => exact isBelowLimit_fresh
  | rejected hcheck hending =>
    have hlock := lockedUntil_of_check hcheck
    rcases recordFailure_cases hlock hending with ⟨-, hfailure⟩ | ⟨hbelow, hfailure⟩
    · -- a gate that is locked now has no limit to keep
      rw [hfailure]
      intro hnone
      cases hnone
    · rw [hfailure]
      intro _
      exact Nat.lt_of_lt_of_le hbelow (Nat.le_max_right ..)

/-- Inside of a window, a step that accepts no password **pays for its rejections** from the allowance
of the gate. -/
theorem pays {a b : Instant} (h : gate.Step settings now r sent gate')
    (hlimit : gate.IsBelowLimit settings) (hmax : settings.maxAttempts < UInt32.size)
    (hminutes : 0 < settings.lockoutMinutes)
    (hwindow : a.plusMinutes? settings.lockoutMinutes = some b)
    (hafter : ¬ now.Before a) (hbefore : now.Before b)
    (haccepted : ¬ ∃ e ∈ sent, isAcceptance e = true)
    (hleap : (∃ e ∈ sent, isRejection e = true) → ¬ a.LeapsFrom now) :
    sent.countP isRejection + gate'.allowance settings b ≤ gate.allowance settings b := by
  cases h with
  | unasked => exact Nat.le_of_eq (Nat.zero_add _)
  | locked => exact Nat.le_of_eq (Nat.zero_add _)
  | unanswered hcheck hsent =>
    have hcount : sent.countP isRejection = 0 := by
      refine List.countP_eq_zero.2 ?_
      intro e he
      exact Bool.eq_false_iff.1 (hsent e he).2
    exact Nat.le_of_eq (by rw [hcount, Nat.zero_add, allowance_check hcheck hbefore])
  | accepted hcheck he => exact absurd ⟨_, List.mem_singleton_self _, he⟩ haccepted
  | @rejected opened ending e hcheck hending he =>
    -- one rejection is sent, and one attempt is taken down: it sets a lock or leaves one less
    have hlock := lockedUntil_of_check hcheck
    have hroom := hlimit.check hcheck hlock
    have hnext := toNat_attempts_succ hroom hmax
    have hopened : opened.allowance settings b =
        max 1 settings.maxAttempts - opened.attempts.toNat := by
      rw [allowance, hlock]
    have hcount : [e].countP isRejection = 1 := by rw [List.countP_singleton, if_pos he]
    rw [← allowance_check hcheck hbefore, hcount, hopened]
    rcases recordFailure_cases hlock hending with ⟨-, hfailure⟩ | ⟨hbelow, hfailure⟩
    · -- the new lock does not end inside of the window
      have hlong : ¬ ending.Before b := Instant.not_before_of_plusMinutes? hminutes hwindow hending
        hafter (hleap ⟨e, List.mem_singleton_self e, he⟩)
      have hclosed : allowance settings b ⟨opened.attempts + 1, some ending⟩ = 0 := if_neg hlong
      rw [hfailure, hclosed]
      omega
    · have hleft : allowance settings b ⟨opened.attempts + 1, none⟩ =
          max 1 settings.maxAttempts - (opened.attempts + 1).toNat := rfl
      rw [hfailure, hleft, hnext]
      omega

end Step

end AccessGate

/-! ### Runs -/

namespace GateRun

variable {gate : AccessGate} {vs : List Visit} {ending : Instant}

/-- A visit that **finds the gate locked** sends nothing. -/
theorem sent_eq_nil_of_findsLock (h : GateRun settings gate vs) :
    ∀ v ∈ vs, v.FindsLock → v.sent = [] := by
  induction h with
  | nil => exact fun v hv => absurd hv List.not_mem_nil
  | cons hfound hstep hrest ih =>
    refine List.forall_mem_cons.2 ⟨?_, ih⟩
    rintro ⟨locked, ending, hlocked, hlock, hbefore⟩
    rw [hfound] at hlocked
    cases hlocked
    exact (hstep.of_lockedUntil hlock hbefore).1

/-- A lock **holds until it ends**: no visit before its end sends anything. -/
theorem sent_eq_nil_of_lockedUntil (h : GateRun settings gate vs)
    (horder : vs.Pairwise fun v v' => ¬ v'.now.Before v.now) (hlock : gate.lockedUntil = some ending) :
    ∀ v ∈ vs, v.now.Before ending → v.sent = [] := by
  induction h with
  | nil => exact fun v hv => absurd hv List.not_mem_nil
  | @cons gate gate' first vs hfound hstep hrest ih =>
    obtain ⟨hfirst, hothers⟩ := List.pairwise_cons.1 horder
    refine List.forall_mem_cons.2 ⟨?_, ?_⟩
    · exact fun hbefore => (hstep.of_lockedUntil hlock hbefore).1
    · intro v hv hbefore
      -- the first visit came before the end as well, so that it left the lock
      obtain ⟨-, rfl⟩ := hstep.of_lockedUntil hlock (hbefore.of_not_before (hfirst v hv))
      exact ih hothers hlock v hv hbefore

/-- Once a lock was **announced**, no visit before its end sends anything. -/
theorem pairwise_sent_eq_nil (h : GateRun settings gate vs)
    (horder : vs.Pairwise fun v v' => ¬ v'.now.Before v.now) :
    vs.Pairwise fun v v' =>
      ∀ ending, v.result = .error (.lockedOut ending) → v'.now.Before ending → v'.sent = [] := by
  induction h with
  | nil => exact .nil
  | cons hfound hstep hrest ih =>
    obtain ⟨-, hothers⟩ := List.pairwise_cons.1 horder
    refine List.pairwise_cons.2 ⟨?_, ih hothers⟩
    intro v hv ending hresult hbefore
    rw [hresult] at hstep
    exact hrest.sent_eq_nil_of_lockedUntil hothers hstep.lockedUntil_of_lockedOut v hv hbefore

/-! Rejections in a window. -/

section Window

variable {a b : Instant}

theorem rejections_cons (v : Visit) (vs : List Visit) :
    rejections a b (v :: vs) =
      (if v.IsWithin a b then v.sent.countP isRejection else 0) + rejections a b vs := by
  unfold rejections
  rw [List.filter_cons]
  by_cases hwithin : v.IsWithin a b
  · rw [if_pos (decide_eq_true hwithin), if_pos hwithin, List.flatMap_cons, List.countP_append]
  · rw [if_neg fun h => hwithin (of_decide_eq_true h), if_neg hwithin, Nat.zero_add]

theorem rejections_of_not_within (h : ∀ v ∈ vs, ¬ v.IsWithin a b) : rejections a b vs = 0 := by
  induction vs with
  | nil => rfl
  | cons v vs ih =>
    obtain ⟨hfirst, hothers⟩ := List.forall_mem_cons.1 h
    rw [rejections_cons, if_neg hfirst, ih hothers]

/-- From the beginning of a window on, there are **no more rejections** in it than the gate allows. -/
theorem rejections_le_allowance (h : GateRun settings gate vs) (hlimit : gate.IsBelowLimit settings)
    (hmax : settings.maxAttempts < UInt32.size) (hminutes : 0 < settings.lockoutMinutes)
    (horder : vs.Pairwise fun v v' => ¬ v'.now.Before v.now)
    (hwindow : a.plusMinutes? settings.lockoutMinutes = some b)
    (hafter : ∀ v ∈ vs, ¬ v.now.Before a)
    (haccepted : ∀ v ∈ vs, v.IsWithin a b → ¬ v.IsAccepted)
    (hleap : ∀ v ∈ vs, v.IsWithin a b → v.IsRejected → ¬ a.LeapsFrom v.now) :
    rejections a b vs ≤ gate.allowance settings b := by
  induction h with
  | nil => exact Nat.zero_le _
  | @cons gate gate' first vs hfound hstep hrest ih =>
    obtain ⟨hfirst, hothers⟩ := List.pairwise_cons.1 horder
    by_cases hbefore : first.now.Before b
    · have hwithin : first.IsWithin a b := ⟨hafter first (List.mem_cons_self ..), hbefore⟩
      obtain ⟨haccepted, haccepted'⟩ := List.forall_mem_cons.1 haccepted
      obtain ⟨hleap, hleap'⟩ := List.forall_mem_cons.1 hleap
      have hpaid := hstep.pays hlimit hmax hminutes hwindow hwithin.1 hwithin.2 (haccepted hwithin)
        (hleap hwithin)
      have hlater := ih (hstep.isBelowLimit hlimit) hothers
        (fun v hv => hafter v (List.mem_cons_of_mem _ hv)) haccepted' hleap'
      rw [rejections_cons, if_pos hwithin]
      calc first.sent.countP isRejection + rejections a b vs
          ≤ first.sent.countP isRejection + gate'.allowance settings b :=
            Nat.add_le_add_left hlater _
        _ ≤ gate.allowance settings b := hpaid
    · -- the window is over, and all that follows is behind it
      have houtside : ∀ v ∈ first :: vs, ¬ v.IsWithin a b := by
        refine List.forall_mem_cons.2 ⟨fun hin => hbefore hin.2, ?_⟩
        exact fun v hv hin => Instant.not_before_of_not_before hbefore (hfirst v hv) hin.2
      rw [rejections_of_not_within houtside]
      exact Nat.zero_le _

/-- The **rejections in a window** are at most those that lead to a lock. -/
theorem rejections_le (h : GateRun settings gate vs) (hlimit : gate.IsBelowLimit settings)
    (hmax : settings.maxAttempts < UInt32.size) (hminutes : 0 < settings.lockoutMinutes)
    (horder : vs.Pairwise fun v v' => ¬ v'.now.Before v.now)
    (hwindow : a.plusMinutes? settings.lockoutMinutes = some b)
    (haccepted : ∀ v ∈ vs, v.IsWithin a b → ¬ v.IsAccepted)
    (hleap : ∀ v ∈ vs, v.IsWithin a b → v.IsRejected → ¬ a.LeapsFrom v.now) :
    rejections a b vs ≤ max 1 settings.maxAttempts := by
  induction h with
  | nil => exact Nat.zero_le _
  | @cons gate gate' first vs hfound hstep hrest ih =>
    obtain ⟨hfirst, hothers⟩ := List.pairwise_cons.1 horder
    by_cases hearly : first.now.Before a
    · -- what comes before the window does not count, and leaves a gate below the limit
      rw [rejections_cons, if_neg fun hin => hin.1 hearly, Nat.zero_add]
      exact ih (hstep.isBelowLimit hlimit) hothers (List.forall_mem_cons.1 haccepted).2
        (List.forall_mem_cons.1 hleap).2
    · have hafter : ∀ v ∈ first :: vs, ¬ v.now.Before a := by
        refine List.forall_mem_cons.2 ⟨hearly, ?_⟩
        exact fun v hv => Instant.not_before_of_not_before hearly (hfirst v hv)
      have hrun : GateRun settings gate (first :: vs) := .cons hfound hstep hrest
      calc rejections a b (first :: vs)
          ≤ gate.allowance settings b := hrun.rejections_le_allowance hlimit hmax hminutes horder
            hwindow hafter haccepted hleap
        _ ≤ max 1 settings.maxAttempts := AccessGate.allowance_le b

end Window

end GateRun

/-! ### The bound -/

/-- **Guesses are bounded.** However often and with whatever passwords the gate is attempted, and
whatever the endpoint answers: nothing is sent while the gate is locked, and in a window of the length
of a lock in which no password is accepted no more passwords are rejected than lead to a lock. Windows
that begin right before a leap second in which a password is rejected are left out. -/
theorem guesses_bounded (hfile : w.files.read path = .error .notFound)
    (hmax : settings.maxAttempts < UInt32.size) (hminutes : 0 < settings.lockoutMinutes)
    (hclock : ∀ a ∈ attempts, a.now.nanos < 2 * Instant.nanosPerSecond)
    (horder : attempts.Pairwise fun a a' => ¬ a'.now.Before a.now)
    (hsaved : ∀ v ∈ visits path settings attempts w, isFault v.result = false) :
    (∀ v ∈ visits path settings attempts w, v.FindsLock → v.sent = []) ∧
      ((visits path settings attempts w).Pairwise fun v v' =>
        ∀ ending, v.result = .error (.lockedOut ending) → v'.now.Before ending → v'.sent = []) ∧
      ∀ a b, a.plusMinutes? settings.lockoutMinutes = some b →
        (∀ v ∈ visits path settings attempts w, v.IsWithin a b → ¬ v.IsAccepted) →
        (∀ v ∈ visits path settings attempts w, v.IsWithin a b → v.IsRejected →
          ¬ a.LeapsFrom v.now) →
        rejections a b (visits path settings attempts w) ≤ max 1 settings.maxAttempts := by
  have hrun := gateRun_visits (storedGate_of_notFound hfile) hminutes hclock hsaved
  have hvisits : (visits path settings attempts w).Pairwise fun v v' => ¬ v'.now.Before v.now :=
    pairwise_visits horder
  refine ⟨hrun.sent_eq_nil_of_findsLock, hrun.pairwise_sent_eq_nil hvisits, ?_⟩
  intro a b hwindow haccepted hleap
  exact hrun.rejections_le AccessGate.isBelowLimit_fresh hmax hminutes hvisits hwindow haccepted hleap

/-- A world without files whose endpoint rejects every password. -/
def strictWorld : World where
  files := .empty
  environment := []
  home := none
  clock := ⟨0, 0⟩
  endpoint := fun _ _ => .ok ⟨401, none⟩
  exchanges := []

/-- Settings with an endpoint and a lock of one hour. -/
def strictSettings (maxAttempts : Nat) : AccessSettings where
  validateUrl := some "http://localhost/"
  maxAttempts := maxAttempts
  lockoutMinutes := 60

/-- Three attempts within the first half minute. -/
def hastyAttempts : List Attempt := [⟨"a", ⟨0, 0⟩⟩, ⟨"b", ⟨10, 0⟩⟩, ⟨"c", ⟨20, 0⟩⟩]

/-- Of three attempts in an hour where two lead to a lock, two are rejected and the last asks nobody. -/
theorem guesses_bounded_of_hasty :
    (visits "access.json" (strictSettings 2) hastyAttempts strictWorld).map (·.sent.length) =
        [1, 1, 0] ∧
      (visits "access.json" (strictSettings 2) hastyAttempts strictWorld).Pairwise (fun v v' =>
        ∀ ending, v.result = .error (.lockedOut ending) → v'.now.Before ending → v'.sent = []) ∧
      rejections ⟨0, 0⟩ ⟨3600, 0⟩
        (visits "access.json" (strictSettings 2) hastyAttempts strictWorld) ≤ max 1 2 := by
  have hfile : strictWorld.files.read "access.json" = .error .notFound := rfl
  have hwindow : Instant.plusMinutes? ⟨0, 0⟩ (strictSettings 2).lockoutMinutes = some ⟨3600, 0⟩ := by
    decide +kernel
  -- the attempts are performed once for all that is to be seen of them
  obtain ⟨hsent, hsaved, hwithin⟩ :
      (visits "access.json" (strictSettings 2) hastyAttempts strictWorld).map (·.sent.length) =
          [1, 1, 0] ∧
        (∀ v ∈ visits "access.json" (strictSettings 2) hastyAttempts strictWorld,
          isFault v.result = false) ∧
        ∀ v ∈ visits "access.json" (strictSettings 2) hastyAttempts strictWorld,
          ¬ v.IsAccepted ∧ ¬ Instant.LeapsFrom ⟨0, 0⟩ v.now := by
    decide +kernel
  obtain ⟨-, hannounced, hbounded⟩ :=
    guesses_bounded hfile (by decide) (by decide) (by decide) (by decide) hsaved
  exact ⟨hsent, hannounced, hbounded ⟨0, 0⟩ ⟨3600, 0⟩ hwindow (fun v hv _ => (hwithin v hv).1)
    fun v hv _ _ => (hwithin v hv).2⟩

/-- An attempt in the leap second that ended the year 2016, and one less than an hour later. -/
def leapAttempts : List Attempt :=
  [⟨"a", ⟨1483228799, 1500000000⟩⟩, ⟨"b", ⟨1483232399, 600000000⟩⟩]

/-- A lock from a **leap second** on ends inside of a window of its length that begins right before the
leap second, and another password is rejected there. -/
theorem guesses_unbounded_in_leap_second :
    strictWorld.files.read "access.json" = .error .notFound ∧
      leapAttempts.Pairwise (fun a a' => ¬ a'.now.Before a.now) ∧
      (∀ v ∈ visits "access.json" (strictSettings 1) leapAttempts strictWorld,
        isFault v.result = false) ∧
      Instant.plusMinutes? ⟨1483228799, 700000000⟩ (strictSettings 1).lockoutMinutes =
        some ⟨1483232399, 700000000⟩ ∧
      (∀ v ∈ visits "access.json" (strictSettings 1) leapAttempts strictWorld, ¬ v.IsAccepted) ∧
      max 1 (strictSettings 1).maxAttempts <
        rejections ⟨1483228799, 700000000⟩ ⟨1483232399, 700000000⟩
          (visits "access.json" (strictSettings 1) leapAttempts strictWorld) := by
  decide +kernel

end MailMerge
