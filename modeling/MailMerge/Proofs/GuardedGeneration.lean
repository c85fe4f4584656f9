import MailMerge.CommandLine.Run
import MailMerge.Proofs.Merging
import MailMerge.Proofs.PerformedSteps
import MailMerge.Proofs.UndecidedCalls

/-!
# No generation past the gate

If an endpoint is configured, generating comes to nothing unless this endpoint has accepted the password. What
comes before is no more than reading the configuration and going through the gate; all that reads or writes
anything else, or asks for a template, comes behind. And nothing is written before all documents are made, but
for the state of the gate.

* `Operation.IsBehindGate` says which operations need the gate to be passed;
* `GatePass` is what passing the gate comes to, in terms of the steps that were taken;
* `preparedDocuments` and `writePrepared` are the two parts of generating;
* `passGate_passes` — the gate lets through only those whose password was accepted;
* `performs_writeDocuments` — documents are written by operations that are behind the gate;
* `performs_preparedDocuments` — until they are made, no file but the state of the gate is touched;
* `generation_is_guarded` — nothing that is behind the gate comes before it is passed.
-/

namespace MailMerge

/-! ### The specification -/

/-- The path of a file of the program, if there is a home directory. -/
def World.programPath (w : World) (name : Text) : Option Text :=
  w.home.map fun home => Path.join (Path.join home ".docmerge") name

/-- The path of the **state of the gate**. -/
def World.statePath (w : World) : Option Text := w.programPath "access.json"

/-- The path of the configuration, unless another one is given. -/
def World.settingsPath (w : World) (given : Option Text) : Option Text :=
  given <|> w.programPath "docmerge.toml"

/-- Whether an operation is one **behind the gate**, given the paths of the configuration and of the state
of the gate: it reads another file, or writes another, or makes another directory than that of the state;
it moves or removes a file; or it asks an endpoint for a template. -/
def Operation.IsBehindGate (settingsPath statePath : Option Text) : Operation → Prop
  | .readFile path => settingsPath ≠ some path ∧ statePath ≠ some path
  | .writeFile path _ => statePath ≠ some path
  | .createDirectories path => statePath.bind Path.parent? ≠ some path
  | .rename _ _ | .removeFile _ => True
  | .exchange request => request.method = .get
  | .hasEntry _ | .environment _ | .homeDirectory | .currentTime => False

/-- A **pass** through the gate that is found in a world: the gate was not locked, and among the steps that
were taken is the request that asks the endpoint about the password of the environment, which was answered
with yes. -/
structure GatePass (settings : AccessSettings) (w : World) (taken : List Step) where
  /-- The path of the state of the gate. -/
  path : Text
  /-- The gate, without a lock that is over. -/
  gate : AccessGate
  /-- The password. -/
  password : Text
  /-- The address of the endpoint, as it is configured. -/
  raw : Text
  /-- The address of the endpoint. -/
  url : Url
  /-- The world in which the endpoint is asked. -/
  asking : World
  path_eq : w.statePath = some path
  unlocked : gateAt w.files path w.clock = .ok gate
  password_eq : w.environment.lookup settings.passwordVariable = some password
  raw_eq : settings.validateUrl = some raw
  url_eq : Url.ofText? raw = .ok url
  asked : ⟨asking, .exchange (validationRequest url password)⟩ ∈ taken
  accepted : isAcceptance (validationRequest url password,
    (asking.send (validationRequest url password)).1) = true

namespace CommandRun

variable {α : Type}

/-- Performs a run in a world. -/
def runIn (run : CommandRun α) (w : World) : Except CommandFault α × World := run.run.run w

/-- The steps of a run in a world. -/
def stepsIn (run : CommandRun α) (w : World) : List Step := run.run.steps w

end CommandRun

/-- What is done **behind the gate**: the documents are made, and the directory in which they go is told. -/
def documentsFor (configuration : Configuration) (arguments : GenerateArguments) :
    CommandRun (Text × List Document) := do
  let records ← readRecords arguments.records
  let values ← readContext arguments.context
  let shared := sharedContext configuration.placeholders.reserved values arguments.shared
  let source ← sourceFor configuration.template arguments.template
  let options := generationOptions configuration arguments
  let request : GenerationRequest := ⟨source, arguments.kind, records, shared, arguments.mode⟩
  let outcome ← CommandRun.ofAction (runRequest options request)
  let documents ← CommandRun.ofResult (outcome.result.mapError .failure)
  return (arguments.output.getD configuration.output.directory, documents)

/-- The first part of generating, up to the point at which the **documents are made**. -/
def preparedDocuments (configurationPath : Option Text) (arguments : GenerateArguments) :
    CommandRun (Text × List Document) := do
  let configuration ← configurationFor configurationPath
  passGate configuration.access
  documentsFor configuration arguments

/-- The second part of generating, which **writes the documents**. -/
def writePrepared (prepared : Text × List Document) : CommandRun Text := do
  let files := prepared.2.map fun document => OutputFile.mk document.fileName document.bytes
  let paths ← CommandRun.ofProcedure (writeDocuments prepared.1 files)
  return generationText paths prepared.2

/-- Generating **has these two parts**. -/
theorem runGenerate_eq (configurationPath : Option Text) (arguments : GenerateArguments) :
    runGenerate configurationPath arguments =
      preparedDocuments configurationPath arguments >>= writePrepared := by
  simp only [runGenerate, preparedDocuments, documentsFor, bind_assoc, pure_bind]
  rfl

variable {P : Operation → Prop} {α β : Type} {w : World}

/-! ### The files of the program -/

theorem runIn_programDirectory (w : World) :
    programDirectory.runIn w =
      (match w.home with
        | some home => .ok (Path.join home ".docmerge")
        | none => .error (.config .noHome), w) := by
  have hrun : (Procedure.ofAction Action.homeDirectory).runIn w = (.ok w.home, w) :=
    Procedure.runIn_ofAction _ _
  rw [programDirectory, Procedure.runIn_bind, hrun]
  cases w.home <;> rfl

/-- The path of a file of the program is found **without a change**. -/
theorem of_runIn_programPath {name path : Text} {w' : World}
    (h : (do return Path.join (← programDirectory) name : Procedure Text).runIn w = (.ok path, w')) :
    w.programPath name = some path ∧ w' = w := by
  rw [Procedure.runIn_bind, runIn_programDirectory] at h
  unfold World.programPath
  cases hhome : w.home with
  | none =>
    rw [hhome] at h
    cases h
  | some home =>
    rw [hhome] at h
    cases h
    exact ⟨rfl, rfl⟩

theorem performs_programPath (h : P .homeDirectory) (name : Text) :
    (do return Path.join (← programDirectory) name : Procedure Text).run.Performs P w := by
  refine Action.performs_bindExcept (Action.performs_bindExcept (Action.performs_operation h)
    fun home _ _ => ?_) fun _ _ _ => Action.performs_pure _
  cases home with
  | none => exact Action.performs_pure _
  | some home => exact Action.performs_pure _

/-! ### Before the gate -/

theorem CommandRun.performs_ofProcedure {procedure : Procedure α} (h : procedure.run.Performs P w) :
    (CommandRun.ofProcedure procedure).run.Performs P w :=
  Action.performs_bind h (Action.performs_pure _)

theorem CommandRun.of_runIn_ofProcedure {procedure : Procedure α} {a : α} {w' : World}
    (h : (CommandRun.ofProcedure procedure).run.run w = (.ok a, w')) : procedure.runIn w = (.ok a, w') := by
  change (procedure.run >>= _).run w = _ at h
  rw [Action.run_bind] at h
  obtain ⟨hresult, rfl⟩ := Prod.ext_iff.1 h
  exact Prod.ext (mapError_eq_ok_iff.1 hresult) rfl

theorem CommandRun.mem_steps_ofProcedure {procedure : Procedure α} {step : Step}
    (h : step ∈ procedure.run.steps w) : step ∈ (CommandRun.ofProcedure procedure).run.steps w := by
  change step ∈ (procedure.run >>= _).steps w
  rw [Action.steps_bind]
  exact List.mem_append_left _ h

theorem performs_readConfiguration {path : Text} (h : P (.readFile path)) :
    (readConfiguration path).run.Performs P w := by
  refine Action.performs_bindExcept (Action.performs_bindExcept (Action.performs_operation h)
    fun result _ _ => ?_) fun t _ _ => ?_
  · cases result with
    | error fault => exact Action.performs_pure _
    | ok bytes =>
      dsimp only
      split <;> exact Action.performs_pure _
  · split <;> exact Action.performs_pure _

/-- **Configuring** only looks, and only at the configuration. -/
theorem performs_configurationFor (given : Option Text) (w : World) :
    (configurationFor given).run.Performs
      (fun operation => operation.looks = true ∧
        ¬ operation.IsBehindGate (w.settingsPath given) w.statePath) w := by
  cases given with
  | some path =>
    refine CommandRun.performs_ofProcedure (performs_readConfiguration ⟨rfl, fun h => h.1 rfl⟩)
  | none =>
    refine CommandRun.performs_ofProcedure (Action.performs_bindExcept
      (performs_programPath ⟨rfl, id⟩ "docmerge.toml") fun path w' hpath => ?_)
    obtain ⟨hsettings, rfl⟩ := of_runIn_programPath hpath
    refine Action.performs_bindExcept (Action.performs_operation ⟨rfl, id⟩) fun isThere w'' hthere => ?_
    cases isThere with
    | false => exact Action.performs_pure _
    | true => exact performs_readConfiguration ⟨rfl, fun h => h.1 hsettings⟩

/-! ### At the gate -/

/-- Whether an operation is one **of the gate** whose state is at a path. -/
def Operation.IsOfGate (path : Text) : Operation → Prop
  | .readFile other | .writeFile other _ => other = path
  | .createDirectories directory => Path.parent? path = some directory
  | .exchange request => request.method = .post
  | .rename _ _ | .removeFile _ | .hasEntry _ | .environment _ | .homeDirectory | .currentTime => False

theorem performs_saveGate (path : Text) (gate : AccessGate) (w : World) :
    (saveGate path gate).run.Performs (Operation.IsOfGate path) w := by
  unfold saveGate
  dsimp only
  cases hparent : Path.parent? path with
  | none =>
    refine Action.performs_bindExcept (Action.performs_operation rfl) fun result _ _ => ?_
    cases result <;> exact Action.performs_pure _
  | some directory =>
    refine Action.performs_bindExcept (Action.performs_operation hparent) fun result _ _ => ?_
    cases result with
    | error fault => exact Action.performs_pure _
    | ok _ =>
      refine Action.performs_bindExcept (Action.performs_operation rfl) fun result _ _ => ?_
      cases result <;> exact Action.performs_pure _

theorem performs_settle (path : Text) (settings : AccessSettings) (now : Instant) (gate : AccessGate)
    (isAccepted : Bool) (w : World) :
    (settle path settings now gate isAccepted).run.Performs (Operation.IsOfGate path) w := by
  unfold settle
  split
  case isTrue => exact performs_saveGate path _ w
  case isFalse =>
    dsimp only
    exact Action.performs_bindExcept (performs_saveGate path _ w) fun _ _ _ => Action.performs_pure _

theorem performs_askEndpoint (path : Text) (url : Url) (password : Text) (w : World) :
    (askEndpoint url password).run.Performs (Operation.IsOfGate path) w := by
  refine Action.performs_bindExcept (Action.performs_operation rfl) fun answer _ _ => ?_
  cases answer with
  | error detail => exact Action.performs_pure _
  | ok reply =>
    dsimp only
    split
    · exact Action.performs_pure _
    · split <;> exact Action.performs_pure _

/-- **Authorizing** performs nothing but operations of the gate. -/
theorem performs_authorize (path : Text) (settings : AccessSettings) (password : Text) (now : Instant)
    (w : World) :
    (authorize path settings password now).run.Performs (Operation.IsOfGate path) w := by
  rcases authorize_cases path settings password now with ⟨r, -, hrun⟩ | ⟨-, url, -, -, hrun⟩
  · rw [hrun]
    exact Action.performs_pure _
  rw [hrun]
  -- the state is loaded and opened, which performs no more than reading it
  refine Action.performs_bindExcept (Action.performs_bindExcept (Action.performs_operation rfl)
    fun result _ _ => ?_) fun stored _ _ => ?_
  · split
    case h_1 => exact Action.performs_pure _
    case h_2 => exact Action.performs_pure _
    case h_3 => split <;> exact Action.performs_pure _
  refine Action.performs_bindExcept (Action.performs_pure _) fun gate _ _ => ?_
  -- whether a lock that is over is taken away before or not, the endpoint is asked then
  have hask (w : World) :
      (askAndSettle path settings now url password gate).run.Performs (Operation.IsOfGate path) w :=
    Action.performs_bindExcept (performs_askEndpoint path url password w)
      fun _ w' _ => performs_settle path settings now gate _ w'
  split
  case isTrue => exact Action.performs_bindExcept (performs_saveGate path gate _) fun _ _ _ => hask _
  case isFalse => exact hask _

namespace Operation.IsOfGate

variable {path : Text} {operation : Operation}

theorem spares (h : operation.IsOfGate path) : operation.Spares [path] := by
  cases operation with
  | writeFile other content => exact List.mem_singleton.2 h
  | rename old new => exact h
  | removeFile other => exact h
  | _ => trivial

theorem not_isBehindGate (h : operation.IsOfGate path) (settingsPath : Option Text) :
    ¬ operation.IsBehindGate settingsPath (some path) := by
  cases operation with
  | readFile other => exact fun hbehind => hbehind.2 (congrArg some h.symm)
  | writeFile other content => exact fun hbehind => hbehind (congrArg some h.symm)
  | createDirectories directory => exact fun hbehind => hbehind h
  | exchange request =>
    intro hget
    cases h.symm.trans hget
  | rename old new => exact h.elim
  | removeFile other => exact h.elim
  | hasEntry other => exact h.elim
  | environment name => exact h.elim
  | homeDirectory => exact h.elim
  | currentTime => exact h.elim

end Operation.IsOfGate

/-- **Passing the gate** performs nothing that is behind it, and spares all files but its state. -/
theorem performs_passGate (settings : AccessSettings) (given : Option Text) (w : World) :
    (passGate settings).run.Performs (fun operation => operation.Spares w.statePath.toList ∧
      ¬ operation.IsBehindGate (w.settingsPath given) w.statePath) w := by
  unfold passGate
  split
  case isFalse => exact Action.performs_pure _
  case isTrue =>
    -- the password, the path of the state and the time are asked for, which changes nothing
    refine Action.performs_bindExcept (Action.performs_operation ⟨trivial, id⟩) fun found w₁ hfound => ?_
    obtain rfl : w₁ = w := (congrArg Prod.snd hfound).symm
    cases found with
    | none => exact Action.performs_pure _
    | some password =>
      refine Action.performs_bindExcept (CommandRun.performs_ofProcedure
        (performs_programPath ⟨trivial, id⟩ "access.json")) fun path w₂ hpath => ?_
      obtain ⟨hstate, rfl⟩ := of_runIn_programPath (CommandRun.of_runIn_ofProcedure hpath)
      refine Action.performs_bindExcept (Action.performs_operation ⟨trivial, id⟩) fun now w₃ hnow => ?_
      obtain rfl : w₃ = w₂ := (congrArg Prod.snd hnow).symm
      replace hstate : w₃.statePath = some path := hstate
      rw [hstate]
      exact CommandRun.performs_ofProcedure ((performs_authorize path settings password now w₃).mono
        fun operation h => ⟨h.spares, h.not_isBehindGate _⟩)

/-- The endpoint **is asked**, and a password counts as accepted only if it says so. -/
theorem accepted_of_askEndpoint {url : Url} {password : Text} {w w' : World}
    (h : (askEndpoint url password).runIn w = (.ok true, w')) :
    ⟨w, .exchange (validationRequest url password)⟩ ∈ (askEndpoint url password).run.steps w ∧
      isAcceptance (validationRequest url password, (w.send (validationRequest url password)).1) = true := by
  refine ⟨Action.mem_steps_bindExcept_left (List.mem_singleton_self _) _, ?_⟩
  obtain ⟨answer, w₁, hsend, h⟩ := Action.of_run_bindExcept h
  obtain rfl : (w.send (validationRequest url password)).1 = answer :=
    Except.ok.inj (congrArg Prod.fst hsend)
  generalize (w.send (validationRequest url password)).1 = answer at h
  -- of all answers only one of success ends without an error and with yes
  cases answer with
  | error detail => cases h
  | ok reply =>
    dsimp only at h
    split at h
    case isTrue haccepted => exact haccepted
    case isFalse =>
      split at h
      case isTrue => cases h
      case isFalse => cases h

/-- What is taken down of a rejection **ends in an error**. -/
theorem eq_true_of_settle {path : Text} {settings : AccessSettings} {now : Instant} {gate : AccessGate}
    {isAccepted : Bool} {w w' : World}
    (h : (settle path settings now gate isAccepted).runIn w = (.ok (), w')) : isAccepted = true := by
  cases isAccepted with
  | true => rfl
  | false =>
    unfold settle at h
    rw [if_neg Bool.false_ne_true] at h
    obtain ⟨_, w₁, -, h⟩ := Action.of_run_bindExcept h
    cases h

/-- Settling succeeds only if the endpoint **has been asked before** and has accepted the password. -/
theorem accepted_of_askAndSettle {path password : Text} {settings : AccessSettings} {now : Instant}
    {url : Url} {gate : AccessGate} {w w' : World}
    (h : (askAndSettle path settings now url password gate).run.run w = (.ok (), w')) :
    ⟨w, .exchange (validationRequest url password)⟩ ∈
        (askAndSettle path settings now url password gate).run.steps w ∧
      isAcceptance (validationRequest url password,
        (w.send (validationRequest url password)).1) = true := by
  obtain ⟨isAccepted, w₁, hanswer, hsettle⟩ := Action.of_run_bindExcept h
  obtain rfl := eq_true_of_settle hsettle
  obtain ⟨hasked, haccepted⟩ := accepted_of_askEndpoint hanswer
  exact ⟨Action.mem_steps_bindExcept_left hasked _, haccepted⟩

/-- An attempt that succeeds **has asked the endpoint**, which has accepted the password, and has not found a
lock. -/
theorem exists_asking {path password : Text} {settings : AccessSettings} {now : Instant} {url : Url}
    {w w' : World} (h : (attemptAt path settings now url password).runIn w = (.ok (), w')) :
    ∃ gate asking, gateAt w.files path now = .ok gate ∧
      ⟨asking, .exchange (validationRequest url password)⟩ ∈
        (attemptAt path settings now url password).run.steps w ∧
      isAcceptance (validationRequest url password,
        (asking.send (validationRequest url password)).1) = true := by
  unfold attemptAt at h ⊢
  -- the attempt succeeds, so that each of its steps does
  obtain ⟨stored, w₁, hload, h⟩ := Action.of_run_bindExcept h
  obtain ⟨hstored, rfl⟩ := Prod.mk.inj ((runIn_loadGate path w).symm.trans hload)
  obtain ⟨gate, w₂, hcheck, h⟩ := Action.of_run_bindExcept h
  obtain ⟨hopened, rfl⟩ := Prod.mk.inj hcheck
  have hgate : gateAt w.files path now = .ok gate := by
    unfold gateAt
    rw [hstored]
    exact hopened
  -- a lock that is over is taken away before the endpoint is asked
  split at h
  case isTrue hne =>
    obtain ⟨_, w₃, hsave, h⟩ := Action.of_run_bindExcept h
    obtain ⟨hasked, haccepted⟩ := accepted_of_askAndSettle h
    refine ⟨gate, w₃, hgate, ?_, haccepted⟩
    refine Action.mem_steps_bindExcept hload (Action.mem_steps_bindExcept hcheck ?_)
    rw [if_pos hne]
    exact Action.mem_steps_bindExcept hsave hasked
  case isFalse hsame =>
    obtain ⟨hasked, haccepted⟩ := accepted_of_askAndSettle h
    refine ⟨gate, w, hgate, ?_, haccepted⟩
    refine Action.mem_steps_bindExcept hload (Action.mem_steps_bindExcept hcheck ?_)
    rw [if_neg hsame]
    exact hasked

/-- The **gate lets through** only those whose password the endpoint has accepted, and only while it is not
locked. -/
theorem passGate_passes {settings : AccessSettings} {raw : Text} {w w' : World}
    (hraw : settings.validateUrl = some raw) (h : (passGate settings).runIn w = (.ok (), w')) :
    Nonempty (GatePass settings w ((passGate settings).stepsIn w)) := by
  have hsome : settings.validateUrl.isSome = true := by rw [hraw]; rfl
  unfold CommandRun.runIn passGate at h
  unfold CommandRun.stepsIn passGate
  rw [if_pos hsome] at h ⊢
  obtain ⟨found, w₁, hfound, h₁⟩ := Action.of_run_bindExcept h
  obtain ⟨hpassword, rfl⟩ := Prod.mk.inj hfound
  cases found with
  | none => cases h₁
  | some password =>
    -- finding the path of the state and the time changes nothing, so that the gate is as it was
    obtain ⟨path, w₂, hpath, h₂⟩ := Action.of_run_bindExcept h₁
    obtain ⟨hstate, rfl⟩ := of_runIn_programPath (CommandRun.of_runIn_ofProcedure hpath)
    obtain ⟨now, w₃, hnow, h₃⟩ := Action.of_run_bindExcept h₂
    obtain ⟨hclock, rfl⟩ := Prod.mk.inj hnow
    obtain rfl := Except.ok.inj hclock
    have hauthorize : (authorize path settings password w₂.clock).runIn w₂ = (.ok (), w') :=
      CommandRun.of_runIn_ofProcedure h₃
    rcases authorize_cases path settings password w₂.clock with
      ⟨r, hr, hrun⟩ | ⟨raw', url, hraw', hurl, hrun⟩
    · -- without an endpoint or with wrong settings there is no pass
      rw [hrun] at hauthorize
      obtain rfl := congrArg Prod.fst hauthorize
      rcases hr with ⟨-, hnone⟩ | ⟨fault, hfault⟩
      · rw [hraw] at hnone
        cases hnone
      · cases hfault
    · rw [hrun] at hauthorize
      obtain ⟨gate, asking, hgate, hasked, haccepted⟩ := exists_asking hauthorize
      rw [← hrun] at hasked
      refine ⟨path, gate, password, raw', url, asking, hstate, hgate, Except.ok.inj hpassword, hraw',
        mapError_eq_ok_iff.1 hurl, ?_, haccepted⟩
      exact Action.mem_steps_bindExcept hfound (Action.mem_steps_bindExcept hpath
        (Action.mem_steps_bindExcept hnow (CommandRun.mem_steps_ofProcedure hasked)))

/-! ### Behind the gate -/

theorem performs_readInput (fault : CommandFault) (path : Text) (w : World) :
    (readInput fault path).run.Performs (fun operation => operation.onlyAsks = true) w := by
  refine Action.performs_bindExcept (Action.performs_operation rfl) fun result _ _ => ?_
  cases result <;> exact Action.performs_pure _

theorem performs_readInputText (fault : CommandFault) (path : Text) (w : World) :
    (readInputText fault path).run.Performs (fun operation => operation.onlyAsks = true) w := by
  refine Action.performs_bindExcept (performs_readInput fault path w) fun bytes _ _ => ?_
  split <;> exact Action.performs_pure _

theorem performs_readRecords (path : Text) (w : World) :
    (readRecords path).run.Performs (fun operation => operation.onlyAsks = true) w := by
  refine Action.performs_bindExcept (performs_readInputText _ path w) fun t _ _ => ?_
  split <;> exact Action.performs_pure _

theorem performs_readContext (path : Option Text) (w : World) :
    (readContext path).run.Performs (fun operation => operation.onlyAsks = true) w := by
  cases path with
  | none => exact Action.performs_pure _
  | some path =>
    refine Action.performs_bindExcept (performs_readInputText _ path w) fun t _ _ => ?_
    split <;> exact Action.performs_pure _

theorem performs_ofSettings (settings : TemplateSettings) (remote : Bool) (w : World) :
    (TemplateSource.ofSettings settings remote).run.Performs
      (fun operation => operation.onlyAsks = true) w := by
  unfold TemplateSource.ofSettings
  split
  case isFalse => exact Action.performs_pure _
  case isTrue =>
    split
    case h_1 => exact Action.performs_pure _
    case h_2 raw _ =>
      split
      case h_1 => exact Action.performs_pure _
      case h_2 url _ =>
        refine Action.performs_bindExcept (Action.performs_lift ?_) fun _ _ _ => Action.performs_pure _
        unfold TemplateSource.token
        split
        case h_1 => exact Action.performs_pure _
        case h_2 => exact Action.performs_bind (Action.performs_of rfl) (Action.performs_pure _)

theorem performs_sourceFor (settings : TemplateSettings) (choice : TemplateChoice) (w : World) :
    (sourceFor settings choice).run.Performs (fun operation => operation.onlyAsks = true) w := by
  cases choice with
  | configured => exact CommandRun.performs_ofProcedure (performs_ofSettings settings false w)
  | remote => exact CommandRun.performs_ofProcedure (performs_ofSettings settings true w)
  | file path =>
    exact Action.performs_bindExcept (performs_readInput _ path w) fun _ _ _ => Action.performs_pure _

theorem performs_loadTemplate (source : TemplateSource) (kind : DocumentKind) (w : World) :
    (loadTemplate source kind).run.Performs (fun operation => operation.onlyAsks = true) w := by
  refine Action.performs_bindExcept ?_ fun bytes _ _ => ?_
  · cases source with
    | uploaded bytes => exact Action.performs_pure _
    | directory path =>
      refine Action.performs_bindExcept (Action.performs_operation rfl) fun result _ _ => ?_
      split <;> exact Action.performs_pure _
    | endpoint url token timeoutSeconds =>
      refine Action.performs_bindExcept (Action.performs_operation rfl) fun answer _ _ => ?_
      cases answer with
      | error detail => exact Action.performs_pure _
      | ok reply =>
        dsimp only
        split
        case isFalse => exact Action.performs_pure _
        case isTrue => split <;> exact Action.performs_pure _
  · split <;> exact Action.performs_pure _

/-- **Making documents** writes nothing. -/
theorem performs_documentsFor (configuration : Configuration) (arguments : GenerateArguments) (w : World) :
    (documentsFor configuration arguments).run.Performs (fun operation => operation.onlyAsks = true) w := by
  refine Action.performs_bindExcept (performs_readRecords _ w) fun records w₁ _ => ?_
  refine Action.performs_bindExcept (performs_readContext _ w₁) fun values w₂ _ => ?_
  refine Action.performs_bindExcept (performs_sourceFor _ _ w₂) fun source w₃ _ => ?_
  refine Action.performs_bindExcept (Action.performs_lift (Action.performs_bind
    (performs_loadTemplate source arguments.kind w₃) (Action.performs_pure _))) fun outcome w₄ _ => ?_
  exact Action.performs_bindExcept (Action.performs_pure _) fun _ _ _ => Action.performs_pure _

/-! ### Writing documents -/

/-- A path below another **ends as it does**. -/
theorem Path.getLast?_join {base path : Text} (h : path ≠ []) :
    (Path.join base path).getLast? = path.getLast? := by
  unfold Path.join
  split
  case isTrue => rfl
  case isFalse =>
    split
    · rw [List.getLast?_append_of_ne_nil _ h]
    · rw [List.getLast?_append_of_ne_nil _ h]

/-- The **hidden path** of a document is not that of the state of the gate. -/
theorem statePath_ne_hidden (w : World) (directory : Text) (file : OutputFile) :
    w.statePath ≠ some (StagedFile.of directory file).hidden := by
  intro heq
  obtain ⟨home, -, hpath⟩ := Option.map_eq_some_iff.1 heq
  -- one ends in a name of its own, the other in that of a temporary file
  have hlast := congrArg List.getLast? hpath
  unfold StagedFile.of at hlast
  rw [Path.getLast?_join (by decide), Path.getLast?_join (by simp),
    List.getLast?_append_of_ne_nil _ (by decide)] at hlast
  revert hlast
  decide

theorem performs_discard (hremove : ∀ path, P (.removeFile path)) (paths : List Text) (w : World) :
    (discard paths).Performs P w := by
  induction paths generalizing w with
  | nil => exact Action.performs_pure _
  | cons path paths ih => exact Action.performs_bind (Action.performs_of (hremove path)) (ih _)

theorem performs_stageAll (hremove : ∀ path, P (.removeFile path)) {staged : List StagedFile}
    (hwrite : ∀ file ∈ staged, P (.writeFile file.hidden file.content)) (written : List Text) (w : World) :
    (stageAll written staged).run.Performs P w := by
  induction staged generalizing written w with
  | nil => exact Action.performs_pure _
  | cons file staged ih =>
    obtain ⟨hfile, hstaged⟩ := List.forall_mem_cons.1 hwrite
    refine Action.performs_bindExcept (Action.performs_operation hfile) fun result w' _ => ?_
    cases result with
    | ok _ => exact ih hstaged _ w'
    | error fault =>
      exact Action.performs_bindExcept (Action.performs_lift (performs_discard hremove _ w'))
        fun _ _ _ => Action.performs_pure _

theorem performs_publishAll (hremove : ∀ path, P (.removeFile path))
    (hrename : ∀ old new, P (.rename old new))
    (staged : List StagedFile) (moved : List Text) (w : World) :
    (publishAll moved staged).run.Performs P w := by
  induction staged generalizing moved w with
  | nil => exact Action.performs_pure _
  | cons file staged ih =>
    refine Action.performs_bindExcept (Action.performs_operation (hrename _ _)) fun result w' _ => ?_
    cases result with
    | ok _ => exact ih _ w'
    | error fault =>
      refine Action.performs_bindExcept (Action.performs_lift (performs_discard hremove _ w'))
        fun _ w'' _ => ?_
      exact Action.performs_bindExcept (Action.performs_lift (performs_discard hremove _ w''))
        fun _ _ _ => Action.performs_pure _

/-- All that **writing documents** performs is behind the gate, once their directory is made. -/
theorem performs_writeDocuments (directory : Text) (files : List OutputFile) (settingsPath : Option Text)
    (found w : World) :
    (writeDocuments directory files).run.Performs (fun operation =>
      operation = .createDirectories directory ∨
        operation.IsBehindGate settingsPath found.statePath) w := by
  have hwrite : ∀ file ∈ files.map (StagedFile.of directory),
      Operation.IsBehindGate settingsPath found.statePath (.writeFile file.hidden file.content) := by
    intro file hfile
    obtain ⟨output, -, rfl⟩ := List.mem_map.1 hfile
    exact statePath_ne_hidden found directory output
  refine Action.performs_bindExcept (Action.performs_operation (.inl rfl)) fun result w₁ _ => ?_
  cases result with
  | error fault => exact Action.performs_pure _
  | ok _ =>
    -- all documents are written under hidden names before the first is moved to its place
    refine Action.performs_bindExcept (performs_stageAll (fun _ => .inr trivial)
      (fun file hfile => .inr (hwrite file hfile)) [] w₁) fun _ w₂ _ => ?_
    refine Action.performs_bindExcept (performs_publishAll (fun _ => .inr trivial)
      (fun _ _ => .inr trivial) _ [] w₂) fun _ _ _ => ?_
    exact Action.performs_pure _

/-- Until the documents are made, **no file but the state of the gate** is touched. -/
theorem performs_preparedDocuments (given : Option Text) (arguments : GenerateArguments) (w : World) :
    (preparedDocuments given arguments).run.Performs (Operation.Spares w.statePath.toList) w := by
  have hlooks := performs_configurationFor given w
  -- the gate is passed in the world as it was found, because configuring only looks at it
  refine Action.performs_bindExcept (hlooks.mono fun operation h => ?_) fun configuration w₁ hrun => ?_
  · exact Operation.spares_of_onlyAsks (Operation.onlyAsks_of_looks h.1) _
  · obtain rfl : w = w₁ := (Action.run_of_looks (hlooks.mono fun _ h => h.1)).symm.trans
      (congrArg Prod.snd hrun)
    refine Action.performs_bindExcept ((performs_passGate _ given w).mono fun _ h => h.1) fun _ w₂ _ => ?_
    exact (performs_documentsFor configuration arguments w₂).mono fun _ h =>
      Operation.spares_of_onlyAsks h _

/-! ### Generating -/

/-- A pass is one **also behind further steps**. -/
def GatePass.mono {settings : AccessSettings} {w : World} {taken taken' : List Step}
    (pass : GatePass settings w taken) (h : taken ⊆ taken') : GatePass settings w taken' :=
  { pass with asked := h pass.asked }

/-- What stands **in two lists put behind each other**, but not in the first, stands in the second. -/
theorem exists_of_append_eq_of_not_mem {α : Type} {xs ys before after : List α} {x : α}
    (h : xs ++ ys = before ++ x :: after) (hx : x ∉ xs) :
    ∃ middle, before = xs ++ middle ∧ ys = middle ++ x :: after := by
  rcases List.append_eq_append_iff.1 h with ⟨middle, hbefore, hys⟩ | ⟨middle, hxs, hafter⟩
  · exact ⟨middle, hbefore, hys⟩
  · cases middle with
    | nil => exact ⟨[], by simpa using hxs.symm, by simpa using hafter.symm⟩
    | cons y middle =>
      obtain ⟨rfl, -⟩ := List.cons.inj hafter
      exact absurd (hxs ▸ List.mem_append_right before (List.mem_cons_self ..)) hx

/-- **No generation past the gate.** Whatever an invocation that generates is given, and whatever world it
finds:

* if an endpoint is configured, a step that is behind the gate, which is to say one that reads or writes
  anything but the configuration and the state of the gate or asks for a template, comes only after steps that
  pass the gate;
* generating is to prepare the documents and to write them, and if preparing them fails, then so does
  generating, and the files differ at most in the state of the gate. -/
theorem generation_is_guarded (given : Option Text) (arguments : GenerateArguments) (w : World) :
    (∀ configuration raw, ((configurationFor given).runIn w).1 = .ok configuration →
      configuration.access.validateUrl = some raw →
      ∀ before step after,
        (runInvocation ⟨given, .generate arguments⟩).stepsIn w = before ++ step :: after →
        step.operation.IsBehindGate (w.settingsPath given) w.statePath →
          Nonempty (GatePass configuration.access w before)) ∧
    runInvocation ⟨given, .generate arguments⟩ = preparedDocuments given arguments >>= writePrepared ∧
    ∀ fault w', (preparedDocuments given arguments).runIn w = (.error fault, w') →
      (runInvocation ⟨given, .generate arguments⟩).runIn w = (.error fault, w') ∧
        w.files.DiffersAt w.statePath.toList w'.files := by
  have hparts : runInvocation ⟨given, .generate arguments⟩ =
      preparedDocuments given arguments >>= writePrepared := runGenerate_eq given arguments
  refine ⟨fun configuration raw hconfiguration hraw before step after hsteps hbehind => ?_, hparts,
    fun fault w' hfails => ?_⟩
  · have hlooks := performs_configurationFor given w
    have hrun : (configurationFor given).run.run w = (.ok configuration, w) :=
      Prod.ext hconfiguration (Action.run_of_looks (hlooks.mono fun _ h => h.1))
    rw [CommandRun.stepsIn, hparts, preparedDocuments, bind_assoc, Action.steps_bindExcept, hrun] at hsteps
    -- the step is not one of configuring
    obtain ⟨between, rfl, hbetween⟩ :=
      exists_of_append_eq_of_not_mem hsteps fun hmem => (hlooks step hmem).2 hbehind
    dsimp only at hbetween
    rw [bind_assoc, Action.steps_bindExcept] at hbetween
    -- nor is it one of going through the gate, so that it comes after that
    obtain ⟨rest, rfl, hrest⟩ := exists_of_append_eq_of_not_mem hbetween fun hmem =>
      (performs_passGate configuration.access given w step hmem).2 hbehind
    split at hrest
    case h_1 w' hpassed =>
      obtain ⟨pass⟩ := passGate_passes hraw hpassed
      -- the steps of the pass are among those before
      exact ⟨pass.mono fun taken htaken => List.mem_append_right _ (List.mem_append_left _ htaken)⟩
    case h_2 => simp at hrest
  · unfold CommandRun.runIn at hfails ⊢
    have hspared := Action.differsAt_run (performs_preparedDocuments given arguments w)
    rw [hfails] at hspared
    rw [hparts, Action.run_bindExcept, hfails]
    exact ⟨rfl, hspared⟩

/-- A world with an endpoint that says yes, and with a configuration file that names it. -/
def welcomingWorld : World where
  files := FileSystem.empty.put ["c"]
    (.file (Text.toUtf8 "[access]\nvalidate_url = \"http://localhost/\"\n"))
  environment := [("DOCMERGE_PASSWORD", "a")]
  home := some "/home"
  clock := ⟨0, 0⟩
  endpoint := fun _ _ => .ok ⟨200, none⟩
  exchanges := []

/-- An invocation whose records are missing. -/
def recordlessArguments : GenerateArguments :=
  ⟨"r", none, [], .annual, .configured, .batch, none, none, false⟩

set_option maxRecDepth 10000 in
/-- The records are looked for **only past the gate**, and that they are missing leaves nothing but the state
of the gate. -/
theorem records_read_past_gate :
    ∃ configuration before step after,
      ((configurationFor (some "c")).runIn welcomingWorld).1 = .ok configuration ∧
      configuration.access.validateUrl = some "http://localhost/" ∧
      (runInvocation ⟨some "c", .generate recordlessArguments⟩).stepsIn welcomingWorld =
        before ++ step :: after ∧
      step.operation = .readFile "r" ∧
      Nonempty (GatePass configuration.access welcomingWorld before) ∧
      ∃ w', (preparedDocuments (some "c") recordlessArguments).runIn welcomingWorld =
          (.error (.unreadableRecords "r"), w') ∧
        welcomingWorld.files.DiffersAt welcomingWorld.statePath.toList w'.files := by
  have hconfiguration : ((configurationFor (some "c")).runIn welcomingWorld).1 =
      .ok { Configuration.standard with access := { validateUrl := some "http://localhost/" } } :=
    eq_ok_of_toOption (by decide +kernel)
  have hread : ((runInvocation ⟨some "c", .generate recordlessArguments⟩).stepsIn welcomingWorld).any
      (fun step => match step.operation with | .readFile path => path == "r".toList | _ => false) = true := by
    decide +kernel
  have hfails : ((preparedDocuments (some "c") recordlessArguments).runIn welcomingWorld).1 =
      .error (.unreadableRecords "r") := by
    decide +kernel
  obtain ⟨hguarded, -, hspared⟩ :=
    generation_is_guarded (some "c") recordlessArguments welcomingWorld
  obtain ⟨step, hstep, hread⟩ := List.any_eq_true.1 hread
  obtain ⟨before, after, hsteps⟩ := List.append_of_mem hstep
  have hoperation : step.operation = .readFile "r" := by
    split at hread
    case h_1 path heq => rw [heq, beq_iff_eq.1 hread]
    case h_2 => cases hread
  have hbehind : step.operation.IsBehindGate (welcomingWorld.settingsPath (some "c"))
      welcomingWorld.statePath := by
    rw [hoperation]
    exact ⟨by decide, by decide⟩
  exact ⟨_, before, step, after, hconfiguration, rfl, hsteps, hoperation,
    hguarded _ _ hconfiguration rfl before step after hsteps hbehind, _, Prod.ext hfails rfl,
    (hspared _ _ (Prod.ext hfails rfl)).2⟩

end MailMerge
