import MailMerge.Proofs.Guessing

/-!
# Calls that decide nothing

A call at the gate decides nothing if the endpoint says neither yes nor no, or if it is not asked because
the gate is locked or the settings are wrong. Whatever other calls are made on the same state file, such
calls may be left out: the others end as they did.

They may leave something in the state file nevertheless. A call that finds a lock that is over takes it
away, and saves the gate before the endpoint is asked. The next call that comes as far as the endpoint would
have done the same. So the file of the calls that are left may be behind that of all calls, by one save
that any call would make first (`TrailsBehind`); the clock must not go back in between, for the lock would be
one again.

* `Call` is a call in a world of its own, and `Call.outcomes` are the outcomes of calls one after another;
* `Outcome.isUndecided` says that a call decides nothing;
* `unmarked` deletes from a list what is marked;
* `undecided_calls_leave_no_trace` — undecided calls may be deleted.
-/

namespace MailMerge

/-! ### The specification -/

/-- A **call** at the gate: a password, when it is given, and the world in which the call is made. The world
is another one for each call, with an endpoint of its own; only the files are handed on. -/
structure Call where
  password : Text
  now : Instant
  world : World

/-- What is seen of a call: how it ends, and the requests that it sends together with their answers. -/
structure Outcome where
  result : Except MergeError Unit
  sent : List Exchange

/-- Whether a call **decides nothing**: it ends in an error of the network, or in a lock or an error of the
configuration without a request. -/
def Outcome.isUndecided (outcome : Outcome) : Bool :=
  match outcome.result with
  | .error (.network _) => true
  | .error (.lockedOut _) | .error (.config _) => outcome.sent.isEmpty
  | _ => false

namespace Call

/-- Makes a call, given the files that it finds. -/
def perform (path : Text) (settings : AccessSettings) (call : Call) (files : FileSystem) :
    Outcome × FileSystem :=
  let ended := (authorize path settings call.password call.now).runIn { call.world with files }
  (⟨ended.1, ended.2.exchanges.drop call.world.exchanges.length⟩, ended.2.files)

/-- The outcomes of **calls one after another**, each of which finds the files that the one before it
leaves. -/
def outcomes (path : Text) (settings : AccessSettings) : List Call → FileSystem → List Outcome
  | [], _ => []
  | call :: calls, files =>
    (call.perform path settings files).1 ::
      outcomes path settings calls (call.perform path settings files).2

/-- The files that calls one after another leave. -/
def filesAfter (path : Text) (settings : AccessSettings) : List Call → FileSystem → FileSystem
  | [], files => files
  | call :: calls, files => filesAfter path settings calls (call.perform path settings files).2

end Call

/-- The elements of a list that are **marked**. -/
def marked {α : Type} : List Bool → List α → List α
  | [], _ | _ :: _, [] => []
  | mark :: marks, x :: xs => if mark then x :: marked marks xs else marked marks xs

/-- The elements of a list that are left when those that are marked are **deleted**. -/
def unmarked {α : Type} : List Bool → List α → List α
  | [], xs => xs
  | _ :: _, [] => []
  | mark :: marks, x :: xs => if mark then unmarked marks xs else x :: unmarked marks xs

/-- What a call finds at the gate: the gate, opened if a lock is over, or that it is locked. -/
def gateAt (files : FileSystem) (path : Text) (now : Instant) : Except MergeError AccessGate :=
  storedGate files path >>= fun gate => gate.check now

variable {path password : Text} {settings : AccessSettings} {now : Instant} {files files' : FileSystem}
  {w w' : World} {r : Except MergeError Unit} {call : Call}

/-- What is found at the gate was **stored** there. -/
theorem storedGate_of_gateAt {opened : AccessGate} (h : gateAt files path now = .ok opened) :
    ∃ gate, storedGate files path = .ok gate ∧ gate.check now = .ok opened := by
  unfold gateAt at h
  cases hgate : storedGate files path with
  | error e =>
    rw [hgate] at h
    cases h
  | ok gate =>
    rw [hgate] at h
    exact ⟨gate, rfl, h⟩

theorem unmarked_nil {α : Type} (marks : List Bool) : unmarked marks ([] : List α) = [] := by
  cases marks <;> rfl

/-! ### How a call goes on -/

/-- Asks the endpoint, and takes down what it says. -/
def askAndSettle (path : Text) (settings : AccessSettings) (now : Instant) (url : Url) (password : Text)
    (gate : AccessGate) : Procedure Unit := do
  settle path settings now gate (← askEndpoint url password)

/-- Loads and opens the gate, asks the endpoint, and takes down what it says. -/
def attemptAt (path : Text) (settings : AccessSettings) (now : Instant) (url : Url) (password : Text) :
    Procedure Unit := do
  let stored ← loadGate path
  let gate ← Procedure.ofResult (stored.check now)
  if gate ≠ stored then saveGate path gate
  askAndSettle path settings now url password gate

/-- It **does not depend on the files** whether a call comes to the gate. If it does not, nothing is done. -/
theorem authorize_cases (path : Text) (settings : AccessSettings) (password : Text) (now : Instant) :
    (∃ r, (r = .ok () ∧ settings.validateUrl = none ∨ ∃ fault, r = .error (.config fault)) ∧
      authorize path settings password now = Procedure.ofResult r) ∨
    ∃ raw url, settings.validateUrl = some raw ∧ validationUrl raw = .ok url ∧
      authorize path settings password now = attemptAt path settings now url password := by
  unfold authorize
  dsimp only
  cases settings.validateUrl with
  | none => exact .inl ⟨.ok (), .inl ⟨rfl, rfl⟩, rfl⟩
  | some raw =>
    dsimp only
    cases hurl : validationUrl raw with
    | error e =>
      obtain ⟨fault, rfl⟩ := config_of_validationUrl hurl
      exact .inl ⟨_, .inr ⟨fault, rfl⟩, rfl⟩
    | ok url =>
      cases hending : lockoutEnd now settings.lockoutMinutes with
      | error e =>
        obtain ⟨fault, rfl⟩ := config_of_lockoutEnd hending
        exact .inl ⟨_, .inr ⟨fault, rfl⟩, rfl⟩
      | ok ending => exact .inr ⟨raw, url, rfl, hurl, rfl⟩

/-- Without a lock, the endpoint is asked. -/
theorem runIn_attemptAt_of_open {gate : AccessGate} (hgate : storedGate w.files path = .ok gate)
    (hlock : gate.lockedUntil = none) (url : Url) (password : Text) :
    (attemptAt path settings now url password).runIn w =
      (askAndSettle path settings now url password gate).runIn w := by
  unfold attemptAt
  rw [Procedure.runIn_bind, runIn_loadGate, hgate]
  dsimp only
  rw [AccessGate.check_of_lockedUntil_none hlock, Procedure.runIn_bind, Procedure.runIn_ofResult]
  dsimp only
  rw [if_neg fun hne => hne rfl]

/-- A lock that is over is **taken away and saved** before the endpoint is asked. -/
theorem runIn_attemptAt_of_over {gate : AccessGate} {ending : Instant}
    (hgate : storedGate w.files path = .ok gate) (hlock : gate.lockedUntil = some ending)
    (hover : ¬ now.Before ending) (url : Url) (password : Text) :
    (attemptAt path settings now url password).runIn w =
      (saveGate path .fresh >>= fun _ => askAndSettle path settings now url password .fresh).runIn w := by
  have hne : AccessGate.fresh ≠ gate := by
    rintro rfl
    cases hlock
  unfold attemptAt
  rw [Procedure.runIn_bind, runIn_loadGate, hgate]
  dsimp only
  rw [AccessGate.check_of_not_before hlock hover, Procedure.runIn_bind, Procedure.runIn_ofResult]
  dsimp only
  rw [if_pos hne]

/-- What comes before the endpoint **ends the call** if there is a fault or a lock. -/
theorem runIn_attemptAt_of_error {e : MergeError} (h : gateAt w.files path now = .error e) (url : Url)
    (password : Text) : (attemptAt path settings now url password).runIn w = (.error e, w) := by
  unfold attemptAt
  rw [Procedure.runIn_bind, runIn_loadGate]
  unfold gateAt at h
  cases hgate : storedGate w.files path with
  | error e' =>
    rw [hgate] at h
    cases h
    rfl
  | ok gate =>
    rw [hgate] at h
    dsimp only
    rw [Procedure.runIn_bind, Procedure.runIn_ofResult, show gate.check now = .error e from h]

theorem AccessGate.recordFailure_ne_network (gate : AccessGate) (now : Instant) (maxAttempts : Nat)
    (minutes : Int) (fault : NetworkFault) :
    (gate.recordFailure now maxAttempts minutes).2 ≠ .network fault := by
  unfold recordFailure lockoutEnd
  dsimp only
  split
  case isTrue =>
    cases now.plusMinutes? minutes with
    | none => exact fun h => nomatch h
    | some ending => exact fun h => nomatch h
  case isFalse => exact fun h => nomatch h

/-- A call that comes to the endpoint **decides something**, or nothing is saved after it. -/
theorem of_runIn_askAndSettle {gate : AccessGate} {url : Url}
    (h : (askAndSettle path settings now url password gate).runIn w = (r, w')) :
    (∃ fault, r = .error (.network fault)) ∧ w'.files = w.files ∨
      (∀ fault, r ≠ .error (.network fault)) ∧ ∃ e, w'.exchanges = w.exchanges ++ [e] := by
  -- saving sends nothing, and its faults are those of the file system
  have hsave {gate : AccessGate} {w₁ w₂ : World} {r : Except MergeError Unit}
      (h : (saveGate path gate).runIn w₁ = (r, w₂)) :
      (∀ fault, r ≠ .error (.network fault)) ∧ w₂.exchanges = w₁.exchanges := by
    rw [runIn_saveGate] at h
    cases h
    refine ⟨fun fault hfault => ?_, rfl⟩
    rcases w₁.files.read_save path gate.toText.toUtf8 with hstorage | ⟨hok, -⟩
    · rw [hfault] at hstorage
      cases hstorage
    · rw [hfault] at hok
      cases hok
  obtain ⟨answer, sent, hrun, hanswer⟩ := runIn_askEndpoint url password w
  rcases Procedure.of_runIn_bind h with ⟨isAccepted, w₁, hask, hsettle⟩ | ⟨e, hask, rfl⟩
  · -- the endpoint said yes or no, and what is saved then ends in no fault of the network
    rw [hrun] at hask
    cases hask
    right
    cases hanswer with
    | @accepted e he =>
      obtain ⟨hresult, hexchanges⟩ := hsave hsettle
      exact ⟨hresult, e, hexchanges⟩
    | @rejected e he =>
      rcases Procedure.of_runIn_bind hsettle with ⟨_, w₂, hsaved, hthrow⟩ | ⟨fault, hsaved, rfl⟩
      · cases hthrow
        refine ⟨fun fault hfault => ?_, e, (hsave hsaved).2⟩
        exact AccessGate.recordFailure_ne_network _ _ _ _ fault (Except.error.inj hfault)
      · exact ⟨(hsave hsaved).1, e, (hsave hsaved).2⟩
  · rw [hrun] at hask
    cases hask
    cases hanswer with
    | unanswered => exact .inl ⟨⟨_, rfl⟩, rfl⟩

/-- A call that was answered with yes or no **decides something**. -/
theorem Outcome.isUndecided_of_sent (h : ∀ fault, r ≠ .error (.network fault)) (e : Exchange) :
    (⟨r, [e]⟩ : Outcome).isUndecided = false := by
  unfold isUndecided
  dsimp only
  split
  case h_1 fault => exact absurd rfl (h fault)
  all_goals rfl

/-- A fault of the file system is none of the errors that decide nothing. -/
theorem Outcome.isUndecided_of_isFault (h : isFault r = true) (sent : List Exchange) :
    (⟨r, sent⟩ : Outcome).isUndecided = false := by
  unfold isFault at h
  split at h
  case h_1 => rfl
  case h_2 => cases h

/-! ### One call -/

/-- Whether files are **behind** others by the save that takes away a lock that is over. -/
def ClearsLock (path : Text) (now : Instant) (files files' : FileSystem) : Prop :=
  ∃ gate ending, storedGate files path = .ok gate ∧ gate.lockedUntil = some ending ∧
    ¬ now.Before ending ∧ files.save path AccessGate.fresh.toText.toUtf8 = (.ok (), files')

/-- Whether files are the same as others, or **behind** them by the save that takes away a lock that is
over. -/
def TrailsBehind (path : Text) (now : Instant) (files files' : FileSystem) : Prop :=
  files' = files ∨ ClearsLock path now files files'

theorem ClearsLock.mono (h : ClearsLock path now files files') {later : Instant}
    (hlater : ¬ later.Before now) : ClearsLock path later files files' := by
  obtain ⟨gate, ending, hgate, hlock, hover, hsave⟩ := h
  exact ⟨gate, ending, hgate, hlock, Instant.not_before_of_not_before hover hlater, hsave⟩

theorem ClearsLock.storedGate_eq (h : ClearsLock path now files files') :
    storedGate files' path = .ok .fresh := by
  obtain ⟨-, -, -, -, -, hsave⟩ := h
  have hread := files.read_save path AccessGate.fresh.toText.toUtf8
  rw [hsave] at hread
  rcases hread with hfault | ⟨-, hread⟩
  · cases hfault
  · exact storedGate_of_read (AccessGate.isWritable_of_lockedUntil rfl) hread

/-- Calls **find the same** at the gate. -/
theorem TrailsBehind.gateAt_eq (h : TrailsBehind path now files files') :
    gateAt files' path now = gateAt files path now := by
  rcases h with rfl | hclears
  · rfl
  · have hfresh := hclears.storedGate_eq
    obtain ⟨gate, ending, hgate, hlock, hover, -⟩ := hclears
    unfold gateAt
    rw [hgate, hfresh]
    exact (AccessGate.check_of_not_before hlock hover).symm

/-- A call that asks the endpoint and decides nothing **leaves the files** that it asks with. -/
theorem files_eq_of_isUndecided {url : Url} {gate : AccessGate}
    (hrun : (askAndSettle path settings now url password gate).runIn w = (r, w'))
    (h : (⟨r, w'.exchanges.drop w.exchanges.length⟩ : Outcome).isUndecided = true) :
    w'.files = w.files := by
  rcases of_runIn_askAndSettle hrun with ⟨-, hfiles⟩ | ⟨hresult, e, hsent⟩
  · exact hfiles
  · -- one request was answered, and no fault of the network came of it
    rw [hsent, List.drop_left, Outcome.isUndecided_of_sent hresult e] at h
    cases h

/-- A call that finds a lock that is over and decides nothing **leaves nothing but the save** that takes the
lock away. -/
theorem clearsLock_of_isUndecided {gate : AccessGate} {ending : Instant} {url : Url}
    (hgate : storedGate w.files path = .ok gate) (hlock : gate.lockedUntil = some ending)
    (hover : ¬ now.Before ending)
    (hrun : (attemptAt path settings now url password).runIn w = (r, w'))
    (h : (⟨r, w'.exchanges.drop w.exchanges.length⟩ : Outcome).isUndecided = true) :
    ClearsLock path now w.files w'.files := by
  rw [runIn_attemptAt_of_over hgate hlock hover, Procedure.runIn_bind, runIn_saveGate] at hrun
  have hread := w.files.read_save path AccessGate.fresh.toText.toUtf8
  cases hsave : w.files.save path AccessGate.fresh.toText.toUtf8 with
  | mk result saved =>
    rw [hsave] at hrun hread
    cases result with
    | error e =>
      -- a fault of the file system is no undecided call
      cases hrun
      rcases hread with hfault | ⟨hok, -⟩
      · rw [Outcome.isUndecided_of_isFault hfault] at h
        cases h
      · cases hok
    | ok _ =>
      have hfiles : w'.files = saved := files_eq_of_isUndecided hrun h
      exact ⟨gate, ending, hgate, hlock, hover, hfiles ▸ hsave⟩

/-- What an **undecided call** leaves: the files as they were, or without a lock that is over. -/
theorem Call.perform_of_isUndecided (h : (call.perform path settings files).1.isUndecided = true) :
    TrailsBehind path call.now files (call.perform path settings files).2 := by
  unfold perform at h ⊢
  rcases authorize_cases path settings call.password call.now with
    ⟨r, -, hrun⟩ | ⟨-, url, -, -, hrun⟩
  · -- the call does not come to the gate
    rw [hrun]
    exact .inl rfl
  rw [hrun] at h ⊢
  -- how it goes on is told by what it finds at the gate
  cases hfound : gateAt files path call.now with
  | error e =>
    rw [runIn_attemptAt_of_error hfound]
    exact .inl rfl
  | ok opened =>
    obtain ⟨gate, hgate, hcheck⟩ := storedGate_of_gateAt hfound
    cases hlock : gate.lockedUntil with
    | none =>
      rw [runIn_attemptAt_of_open hgate hlock] at h ⊢
      exact .inl (files_eq_of_isUndecided rfl h)
    | some ending =>
      have hover : ¬ call.now.Before ending := by
        intro hbefore
        rw [AccessGate.check_of_before hlock hbefore] at hcheck
        cases hcheck
      exact .inr (clearsLock_of_isUndecided hgate hlock hover rfl h)

/-- An undecided call **may be left out**. -/
theorem TrailsBehind.of_isUndecided (h : TrailsBehind path now files files') (hnow : ¬ call.now.Before now)
    (hundecided : (call.perform path settings files').1.isUndecided = true) :
    TrailsBehind path call.now files (call.perform path settings files').2 := by
  have hleft := call.perform_of_isUndecided hundecided
  rcases h with rfl | hclears
  · exact hleft
  · rcases hleft with hsame | ⟨gate, ending, hgate, hlock, -⟩
    · -- the call changed nothing, so that the files are behind by the same save
      rw [hsame]
      exact .inr (hclears.mono hnow)
    · -- the lock is gone already
      rw [hclears.storedGate_eq] at hgate
      cases hgate
      cases hlock

/-- Any call **ends alike**, whether undecided calls were left out before it or not. -/
theorem TrailsBehind.perform (h : TrailsBehind path now files files') (settings : AccessSettings)
    (hnow : ¬ call.now.Before now) :
    (call.perform path settings files').1 = (call.perform path settings files).1 ∧
      TrailsBehind path call.now (call.perform path settings files).2
        (call.perform path settings files').2 := by
  rcases h with rfl | hclears
  · exact ⟨rfl, .inl rfl⟩
  · have hclears' := hclears.mono hnow
    obtain ⟨gate, ending, hgate, hlock, hover, hsave⟩ := hclears'
    unfold Call.perform
    rcases authorize_cases path settings call.password call.now with
      ⟨r, -, hrun⟩ | ⟨-, url, -, -, hrun⟩
    · rw [hrun]
      exact ⟨rfl, .inr (hclears.mono hnow)⟩
    · -- the call takes the lock away itself, and then the files are the same
      have hfresh : (attemptAt path settings call.now url call.password).runIn
          { call.world with files := files' } =
            (askAndSettle path settings call.now url call.password .fresh).runIn
              { call.world with files := files' } :=
        runIn_attemptAt_of_open hclears.storedGate_eq rfl url call.password
      have hover' : (attemptAt path settings call.now url call.password).runIn { call.world with files } =
          (askAndSettle path settings call.now url call.password .fresh).runIn
            { call.world with files := files' } := by
        rw [runIn_attemptAt_of_over hgate hlock hover, Procedure.runIn_bind, runIn_saveGate, hsave]
      rw [hrun, hfresh, hover']
      exact ⟨rfl, .inl rfl⟩

/-! ### Calls one after another -/

/-- Where files trail behind others, calls without the undecided ones **end as with them**, and the gate is
found alike behind all of them. -/
theorem TrailsBehind.outcomes {calls : List Call} (h : TrailsBehind path now files files')
    (marks : List Bool) (hnow : ∀ call ∈ calls, ¬ call.now.Before now)
    (horder : calls.Pairwise fun call call' => ¬ call'.now.Before call.now)
    (hundecided : ∀ outcome ∈ marked marks (Call.outcomes path settings calls files'),
      outcome.isUndecided = true) :
    unmarked marks (Call.outcomes path settings calls files') =
        Call.outcomes path settings (unmarked marks calls) files ∧
      ∀ later, ¬ later.Before now → (∀ call ∈ calls, ¬ later.Before call.now) →
        gateAt (Call.filesAfter path settings calls files') path later =
          gateAt (Call.filesAfter path settings (unmarked marks calls) files) path later := by
  -- by induction on the calls: a call that is deleted keeps the relation, and one that is left does too
  induction calls generalizing marks files files' now with
  | nil =>
    rw [unmarked_nil, Call.outcomes, Call.outcomes, unmarked_nil]
    refine ⟨rfl, fun later hlater _ => ?_⟩
    rcases h with rfl | hclears
    · rfl
    · exact (show TrailsBehind path later files files' from .inr (hclears.mono hlater)).gateAt_eq
  | cons call calls ih =>
    -- the time of this call takes the place of `now` for those after it
    obtain ⟨hcall, -⟩ := List.forall_mem_cons.1 hnow
    obtain ⟨hfirst, hothers⟩ := List.pairwise_cons.1 horder
    have hlater {later : Instant} (hall : ∀ c ∈ call :: calls, ¬ later.Before c.now) :
        ¬ later.Before call.now ∧ ∀ c ∈ calls, ¬ later.Before c.now := List.forall_mem_cons.1 hall
    obtain ⟨hsame, htrails⟩ := h.perform settings hcall
    match marks with
    | [] =>
      obtain ⟨houtcomes, hgate⟩ := ih htrails [] hfirst hothers
        (fun _ ho => absurd ho List.not_mem_nil)
      exact ⟨congrArg₂ List.cons hsame houtcomes,
        fun later _ hall => hgate later (hlater hall).1 (hlater hall).2⟩
    | false :: marks =>
      obtain ⟨houtcomes, hgate⟩ := ih htrails marks hfirst hothers hundecided
      exact ⟨congrArg₂ List.cons hsame houtcomes,
        fun later _ hall => hgate later (hlater hall).1 (hlater hall).2⟩
    | true :: marks =>
      obtain ⟨hmarked, hundecided⟩ := List.forall_mem_cons.1 hundecided
      obtain ⟨houtcomes, hgate⟩ := ih (h.of_isUndecided hcall hmarked) marks hfirst hothers
        hundecided
      exact ⟨houtcomes, fun later _ hall => hgate later (hlater hall).1 (hlater hall).2⟩

/-- **Undecided calls leave no trace on the gate.** Whatever calls are made one after another on one state
file, in whatever state it is at first: if the clock does not go back, any of the calls that decide nothing
may be deleted, and all others end as they did, with the same requests sent. Whoever comes later finds the
gate as if they had not been made. -/
theorem undecided_calls_leave_no_trace (path : Text) (settings : AccessSettings) (calls : List Call)
    (marks : List Bool) (files : FileSystem)
    (horder : calls.Pairwise fun call call' => ¬ call'.now.Before call.now)
    (hundecided : ∀ outcome ∈ marked marks (Call.outcomes path settings calls files),
      outcome.isUndecided = true) :
    unmarked marks (Call.outcomes path settings calls files) =
        Call.outcomes path settings (unmarked marks calls) files ∧
      ∀ later, (∀ call ∈ calls, ¬ later.Before call.now) →
        gateAt (Call.filesAfter path settings calls files) path later =
          gateAt (Call.filesAfter path settings (unmarked marks calls) files) path later := by
  cases calls with
  | nil =>
    rw [unmarked_nil, Call.outcomes, unmarked_nil]
    exact ⟨rfl, fun _ _ => rfl⟩
  | cons call calls =>
    -- the files are the same at first, when the first call is made
    have hstart : TrailsBehind path call.now files files := .inl rfl
    have hnow : ∀ c ∈ call :: calls, ¬ c.now.Before call.now := by
      refine List.forall_mem_cons.2 ⟨?_, (List.pairwise_cons.1 horder).1⟩
      unfold Instant.Before
      omega
    obtain ⟨houtcomes, hgate⟩ := hstart.outcomes marks hnow horder hundecided
    exact ⟨houtcomes, fun later hlater => hgate later (hlater call (List.mem_cons_self ..)) hlater⟩

/-- Files with a gate that has been locked for a while. -/
def lockedFiles : FileSystem :=
  FileSystem.empty.put ["access.json"] (.file (AccessGate.mk 2 (some ⟨100, 0⟩)).toText.toUtf8)

/-- A call after the lock is over, to which the endpoint says neither yes nor no. -/
def unansweredCall : Call :=
  ⟨"a", ⟨200, 0⟩, { strictWorld with endpoint := fun _ _ => .ok ⟨500, none⟩ }⟩

/-- A call after that, which is rejected. -/
def rejectedCall : Call := ⟨"b", ⟨300, 0⟩, strictWorld⟩

/-- A call that decides nothing **takes a lock away**, and the call after it is the first that counts with
and without it. -/
theorem undecided_call_takes_lock_away :
    storedGate lockedFiles "access.json" = .ok ⟨2, some ⟨100, 0⟩⟩ ∧
      storedGate (unansweredCall.perform "access.json" (strictSettings 2) lockedFiles).2 "access.json" =
        .ok .fresh ∧
      (Call.outcomes "access.json" (strictSettings 2) [rejectedCall] lockedFiles).map (·.result) =
        [.error (.accessDenied 1 2)] ∧
      unmarked [true, false]
          (Call.outcomes "access.json" (strictSettings 2) [unansweredCall, rejectedCall] lockedFiles) =
        Call.outcomes "access.json" (strictSettings 2) [rejectedCall] lockedFiles := by
  have hundecided : ∀ outcome ∈ marked [true, false]
      (Call.outcomes "access.json" (strictSettings 2) [unansweredCall, rejectedCall] lockedFiles),
      outcome.isUndecided = true := by
    decide +kernel
  refine ⟨by decide +kernel, by decide +kernel, by decide +kernel, ?_⟩
  exact (undecided_calls_leave_no_trace "access.json" (strictSettings 2) [unansweredCall, rejectedCall]
    [true, false] lockedFiles (by decide) hundecided).1

end MailMerge
