import MailMerge.Proofs.StoredGate

/-!
# One attempt at the gate

An attempt loads the gate, asks the endpoint unless the gate is locked, and saves what has become of the
gate. Seen from the state file, it takes the stored gate to the next one, and all that it can do is in
the cases of `AccessGate.Step`.

* `isAcceptance` and `isRejection` say what an exchange with the endpoint comes to;
* `AccessGate.Step` is what an attempt does to the gate, what it sends and how it ends;
* `step_authorize` — every attempt whose saves succeed is such a step.
-/

namespace MailMerge

/-! ### Exchanges -/

/-- A request and what was answered. -/
abbrev Exchange := HttpRequest × Except Text HttpReply

/-- Whether the endpoint **accepted** the password. -/
def isAcceptance (e : Exchange) : Bool :=
  match e.2 with
  | .ok reply => isSuccess reply.code
  | .error _ => false

/-- Whether the endpoint **rejected** the password. -/
def isRejection (e : Exchange) : Bool :=
  match e.2 with
  | .ok reply => decide (reply.code = 401 ∨ reply.code = 403)
  | .error _ => false

/-- No password is rejected and accepted at once. -/
theorem isAcceptance_of_isRejection {e : Exchange} (h : isRejection e = true) :
    isAcceptance e = false := by
  obtain ⟨request, answer⟩ := e
  cases answer with
  | error detail => rfl
  | ok reply =>
    have hcode : reply.code = 401 ∨ reply.code = 403 := of_decide_eq_true h
    show isSuccess reply.code = false
    rcases hcode with hcode | hcode <;> rw [hcode] <;> rfl

/-- What the endpoint is taken to have said, and the exchange that says it, if there was one. -/
inductive IsAnswer : Except MergeError Bool → List Exchange → Prop
  | accepted {e : Exchange} (he : isAcceptance e = true) : IsAnswer (.ok true) [e]
  | rejected {e : Exchange} (he : isRejection e = true) : IsAnswer (.ok false) [e]
  | unanswered {fault : NetworkFault} {sent : List Exchange}
      (hsent : ∀ e ∈ sent, isAcceptance e = false ∧ isRejection e = false) :
      IsAnswer (.error (.network fault)) sent

/-- **Asking** the endpoint sends at most one request, and changes nothing else. -/
theorem runIn_askEndpoint (url : Url) (password : Text) (w : World) :
    ∃ r sent, (askEndpoint url password).runIn w =
      (r, { w with exchanges := w.exchanges ++ sent }) ∧ IsAnswer r sent := by
  have hrun : (Procedure.ofAction (Action.exchange (validationRequest url password))).runIn w =
      (.ok (w.send (validationRequest url password)).1,
        (w.send (validationRequest url password)).2) := Procedure.runIn_ofAction _ _
  rw [askEndpoint, Procedure.runIn_bind, hrun]
  generalize validationRequest url password = request
  by_cases hproper : request.isProper = true
  · have hsend : w.send request = (w.endpoint (w.exchanges.map (·.1)) request,
        { w with exchanges :=
            w.exchanges ++ [(request, w.endpoint (w.exchanges.map (·.1)) request)] }) := by
      rw [World.send, if_pos hproper]
    rw [hsend]
    dsimp only
    generalize w.endpoint (w.exchanges.map (·.1)) request = answer
    cases answer with
    | error detail =>
      exact ⟨_, [(request, .error detail)], rfl, .unanswered (List.forall_mem_singleton.2 ⟨rfl, rfl⟩)⟩
    | ok reply =>
      dsimp only
      -- the code of the reply decides: accepted, rejected, or no answer to the question
      by_cases haccepted : isSuccess reply.code = true
      · rw [if_pos haccepted]
        exact ⟨_, [(request, .ok reply)], rfl, .accepted haccepted⟩
      · rw [if_neg haccepted]
        by_cases hrejected : reply.code = 401 ∨ reply.code = 403
        · rw [if_pos hrejected]
          exact ⟨_, [(request, .ok reply)], rfl, .rejected (decide_eq_true hrejected)⟩
        · rw [if_neg hrejected]
          refine ⟨_, [(request, .ok reply)], rfl, .unanswered (List.forall_mem_singleton.2 ?_)⟩
          exact ⟨Bool.eq_false_iff.2 haccepted, decide_eq_false hrejected⟩
  · -- an improper request is not sent
    have hsend : w.send request = (.error request.improperText, w) := by
      rw [World.send, if_neg hproper]
    rw [hsend]
    have hworld : w = { w with exchanges := w.exchanges ++ [] } := by rw [List.append_nil]
    exact ⟨_, [], congrArg (Prod.mk _) hworld, .unanswered fun e he => absurd he List.not_mem_nil⟩

/-! ### Steps -/

/-- A **step** of the gate: what an attempt does to the stored gate, how it ends and what it sends. -/
inductive AccessGate.Step (settings : AccessSettings) (now : Instant) :
    AccessGate → Except MergeError Unit → List Exchange → AccessGate → Prop
  /-- Nobody is asked, because there is no endpoint or the settings are wrong. -/
  | unasked {gate : AccessGate} {r : Except MergeError Unit}
      (hr : ∀ ending, r ≠ .error (.lockedOut ending)) : Step settings now gate r [] gate
  /-- The gate is locked. -/
  | locked {gate : AccessGate} {ending : Instant}
      (hcheck : gate.check now = .error (.lockedOut ending)) :
      Step settings now gate (.error (.lockedOut ending)) [] gate
  /-- The endpoint says neither yes nor no. -/
  | unanswered {gate opened : AccessGate} {fault : NetworkFault} {sent : List Exchange}
      (hcheck : gate.check now = .ok opened)
      (hsent : ∀ e ∈ sent, isAcceptance e = false ∧ isRejection e = false) :
      Step settings now gate (.error (.network fault)) sent opened
  /-- The password is accepted. -/
  | accepted {gate opened : AccessGate} {e : Exchange} (hcheck : gate.check now = .ok opened)
      (he : isAcceptance e = true) : Step settings now gate (.ok ()) [e] .fresh
  /-- The password is rejected and counted. -/
  | rejected {gate opened : AccessGate} {ending : Instant} {e : Exchange}
      (hcheck : gate.check now = .ok opened)
      (hending : now.plusMinutes? settings.lockoutMinutes = some ending)
      (he : isRejection e = true) :
      Step settings now gate
        (.error (opened.recordFailure now settings.maxAttempts settings.lockoutMinutes).2) [e]
        (opened.recordFailure now settings.maxAttempts settings.lockoutMinutes).1

variable {path password : Text} {settings : AccessSettings} {now : Instant} {w : World}

/-- An opened gate is **not locked**. -/
theorem AccessGate.lockedUntil_of_check {gate opened : AccessGate} (h : gate.check now = .ok opened) :
    opened.lockedUntil = none := by
  unfold check at h
  split at h
  case h_1 hnone =>
    cases h
    exact hnone
  case h_2 =>
    split at h
    case isTrue => cases h
    case isFalse =>
      cases h
      rfl

/-- A saved gate is **the stored one**, unless there was a fault. -/
theorem storedGate_of_saveGate {gate : AccessGate} (hgate : gate.IsWritable) {w' : World}
    {r : Except MergeError Unit} (h : (saveGate path gate).runIn w = (r, w'))
    (hsaved : isFault r = false) :
    r = .ok () ∧ storedGate w'.files path = .ok gate ∧ w'.exchanges = w.exchanges := by
  rw [runIn_saveGate] at h
  cases h
  rcases w.files.read_save path gate.toText.toUtf8 with hfault | ⟨hok, hread⟩
  · rw [hsaved] at hfault
    cases hfault
  · exact ⟨hok, storedGate_of_read hgate hread, rfl⟩

/-- A gate without a lock can be written. -/
theorem AccessGate.isWritable_of_lockedUntil {gate : AccessGate} (h : gate.lockedUntil = none) :
    gate.IsWritable := by
  intro ending hending
  rw [h] at hending
  cases hending

/-- An instant that minutes were added to is **one of the calendar**. -/
theorem Instant.isReal_of_plusMinutes? {minutes : Int} {ending : Instant} (hminutes : 0 < minutes)
    (hnow : now.nanos < 2 * nanosPerSecond) (h : now.plusMinutes? minutes = some ending) :
    ending.IsReal := by
  unfold plusMinutes? at h
  dsimp only at h
  obtain ⟨d, hd, hending⟩ := Option.map_eq_some_iff.1 h
  subst hending
  refine ⟨by rw [hd]; rfl, .inl ?_⟩
  -- a leap second is left for the second after it
  by_cases hleap : nanosPerSecond ≤ now.nanos
  · rw [if_pos ⟨hleap, hminutes⟩]
    show now.nanos - nanosPerSecond < nanosPerSecond
    omega
  · rw [if_neg fun hand => hleap hand.1, if_neg fun hand => hleap hand.1]
    exact Nat.lt_of_not_le hleap

/-- A gate that has counted a failure **can be written**. -/
theorem AccessGate.isWritable_recordFailure {gate : AccessGate} (hlock : gate.lockedUntil = none)
    (hminutes : 0 < settings.lockoutMinutes) (hnow : now.nanos < 2 * Instant.nanosPerSecond) :
    (gate.recordFailure now settings.maxAttempts settings.lockoutMinutes).1.IsWritable := by
  unfold recordFailure
  dsimp only
  split
  case isTrue =>
    unfold lockoutEnd
    cases hending : now.plusMinutes? settings.lockoutMinutes with
    | none => exact isWritable_of_lockedUntil hlock
    | some ending =>
      intro other hother
      cases hother
      exact Instant.isReal_of_plusMinutes? hminutes hnow hending
  case isFalse => exact isWritable_of_lockedUntil hlock

/-- When the gate is open and stored, asking the endpoint and taking down the answer is a step. -/
theorem step_settle {gate opened : AccessGate} {ending : Instant} {url : Url}
    {r : Except MergeError Unit} {w' : World} (hcheck : gate.check now = .ok opened)
    (hgate : storedGate w.files path = .ok opened)
    (hminutes : 0 < settings.lockoutMinutes) (hnow : now.nanos < 2 * Instant.nanosPerSecond)
    (hending : now.plusMinutes? settings.lockoutMinutes = some ending)
    (h : (do settle path settings now opened (← askEndpoint url password)).runIn w = (r, w'))
    (hsaved : isFault r = false) :
    ∃ gate' sent, storedGate w'.files path = .ok gate' ∧ w'.exchanges = w.exchanges ++ sent ∧
      gate.Step settings now r sent gate' := by
  have hlock := AccessGate.lockedUntil_of_check hcheck
  obtain ⟨answer, sent, hrun, hanswer⟩ := runIn_askEndpoint url password w
  rcases Procedure.of_runIn_bind h with ⟨isAccepted, w₁, hask, hsettle⟩ | ⟨e, hask, rfl⟩
  · rw [hrun] at hask
    cases hask
    cases hanswer with
    | accepted he =>
      obtain ⟨rfl, hstored, hexchanges⟩ :=
        storedGate_of_saveGate (AccessGate.isWritable_of_lockedUntil rfl) hsettle hsaved
      exact ⟨_, _, hstored, hexchanges, .accepted hcheck he⟩
    | rejected he =>
      -- the failure is stored first, and only then the error is raised
      have hwritable := AccessGate.isWritable_recordFailure hlock hminutes hnow
      rcases Procedure.of_runIn_bind hsettle with ⟨_, w₂, hsave, hthrow⟩ | ⟨e, hsave, rfl⟩
      · cases hthrow
        obtain ⟨-, hstored, hexchanges⟩ := storedGate_of_saveGate hwritable hsave rfl
        exact ⟨_, _, hstored, hexchanges, .rejected hcheck hending he⟩
      · obtain ⟨herror, -⟩ := storedGate_of_saveGate hwritable hsave hsaved
        cases herror
  · rw [hrun] at hask
    cases hask
    cases hanswer with
    | unanswered hsent => exact ⟨_, _, hgate, rfl, .unanswered hcheck hsent⟩

/-- Wrong settings are **errors of the configuration**. -/
theorem config_of_validationUrl {raw : Text} {e : MergeError} (h : validationUrl raw = .error e) :
    ∃ fault, e = .config fault := by
  unfold validationUrl at h
  cases hurl : Url.ofText? raw with
  | error fault =>
    rw [hurl] at h
    cases h
    exact ⟨_, rfl⟩
  | ok url =>
    rw [hurl] at h
    cases h

theorem lockoutEnd_eq_ok_iff {minutes : Int} {ending : Instant} :
    lockoutEnd now minutes = .ok ending ↔ now.plusMinutes? minutes = some ending := by
  unfold lockoutEnd
  cases now.plusMinutes? minutes <;> simp

theorem config_of_lockoutEnd {minutes : Int} {e : MergeError} (h : lockoutEnd now minutes = .error e) :
    ∃ fault, e = .config fault := by
  unfold lockoutEnd at h
  split at h
  case h_1 => cases h
  case h_2 =>
    cases h
    exact ⟨_, rfl⟩

theorem lockedOut_of_check {gate : AccessGate} {e : MergeError} (h : gate.check now = .error e) :
    ∃ ending, e = .lockedOut ending := by
  unfold AccessGate.check at h
  split at h
  case h_1 => cases h
  case h_2 ending hlock =>
    split at h
    case isTrue =>
      cases h
      exact ⟨ending, rfl⟩
    case isFalse => cases h

/-- An **attempt is a step** of the stored gate, if its saves succeed. -/
theorem step_authorize {gate : AccessGate} {r : Except MergeError Unit} {w' : World}
    (hgate : storedGate w.files path = .ok gate)
    (hminutes : 0 < settings.lockoutMinutes) (hnow : now.nanos < 2 * Instant.nanosPerSecond)
    (h : (authorize path settings password now).runIn w = (r, w'))
    (hsaved : isFault r = false) :
    ∃ gate' sent, storedGate w'.files path = .ok gate' ∧ w'.exchanges = w.exchanges ++ sent ∧
      gate.Step settings now r sent gate' := by
  have hnone : w.exchanges = w.exchanges ++ [] := (List.append_nil _).symm
  unfold authorize at h
  dsimp only at h
  split at h
  case h_1 =>
    cases h
    exact ⟨gate, [], hgate, hnone, .unasked (by simp)⟩
  case h_2 raw hraw =>
    -- each line of the procedure goes on in the same world or ends with its error
    rcases Procedure.of_runIn_ofResult_bind h with ⟨url, -, h⟩ | ⟨e, hurl, rfl, rfl⟩
    case inr =>
      obtain ⟨fault, rfl⟩ := config_of_validationUrl hurl
      exact ⟨gate, [], hgate, hnone, .unasked (by simp)⟩
    rcases Procedure.of_runIn_ofResult_bind h with ⟨ending, hending, h⟩ | ⟨e, hending, rfl, rfl⟩
    case inr =>
      obtain ⟨fault, rfl⟩ := config_of_lockoutEnd hending
      exact ⟨gate, [], hgate, hnone, .unasked (by simp)⟩
    rw [lockoutEnd_eq_ok_iff] at hending
    rw [Procedure.runIn_bind, runIn_loadGate, hgate] at h
    dsimp only at h
    rcases Procedure.of_runIn_ofResult_bind h with ⟨opened, hcheck, h⟩ | ⟨e, hcheck, rfl, rfl⟩
    case inr =>
      obtain ⟨ending, rfl⟩ := lockedOut_of_check hcheck
      exact ⟨gate, [], hgate, hnone, .locked hcheck⟩
    split at h
    case isTrue =>
      -- the lock is over, and the gate is saved before anybody is asked
      have hwritable := AccessGate.isWritable_of_lockedUntil (AccessGate.lockedUntil_of_check hcheck)
      rcases Procedure.of_runIn_bind h with ⟨_, w₁, hsave, h⟩ | ⟨e, hsave, rfl⟩
      case inr =>
        obtain ⟨herror, -⟩ := storedGate_of_saveGate hwritable hsave hsaved
        cases herror
      obtain ⟨-, hstored, hexchanges⟩ := storedGate_of_saveGate hwritable hsave rfl
      rw [← hexchanges]
      exact step_settle hcheck hstored hminutes hnow hending h hsaved
    case isFalse hsame =>
      rw [← Classical.not_not.1 hsame] at hgate
      exact step_settle hcheck hgate hminutes hnow hending h hsaved

end MailMerge
