import Netlab.Config.RoundTrip
import Netlab.Prelude.Program
import Netlab.State.Store
import Netlab.Synchronization.Actions

/-!
# What the orchestrator works on

The state that `Orchestrator` of `netlab/orchestrator.py` shares with its collaborators, the answers
that it gets from outside, and the calls of the state store, of the revision manager and of the
configuration file as its programs make them. A call that raises ends the program unless it is
caught; what was written before stays. A program can act on the `World` by these calls only, so its
type tells what it can do to it (`Reached`), and a `Silent` program writes no command, no state and
no revision (`Quiet`).

Docker Compose, the services in their containers, the files that these write, the preparation of the
host and the support bundle are outside: an `Environment` tells what they answer, or which exception
they raise, the `n`-th time that something is asked. Of a revision record and of a transaction, an
event or an acknowledgement carries the ids and the verdict.
-/

open JsonText SharedFiles

namespace Netlab.Orchestrator

variable {F : Type}

/-! ## Exceptions and answers -/

/-- `NetlabError`. -/
structure NetlabError (F : Type) where
  code : String
  message : String
  component : String := "core"
  details : Dict String (Json F) := .empty
  recommendation : String := "Inspect Diagnostics and the correlated command log."
  commandId : Option String := none

/-- `as_dict`. -/
def NetlabError.asDict (error : NetlabError F) : Dict String (Json F) :=
  .ofList
    [("code", .str error.code), ("message", .str error.message),
      ("component", .str error.component), ("details", .ofDict error.details),
      ("recommendation", .str error.recommendation),
      ("command_id", (error.commandId.map Json.str).getD .null)]

/-- An exception: a `NetlabError`, or another one with its text. -/
inductive Failure (F : Type)
  | netlab (error : NetlabError F)
  | raised (message : String)

/-- `CommandResult`. -/
structure CommandResult (F : Type) where
  argv : List String
  returncode : ℤ
  stdout : String
  stderr : String
  duration : F
  timedOut : Bool := false

/-- `ok`. -/
def CommandResult.ok (result : CommandResult F) : Bool := result.returncode = 0 && !result.timedOut

/-- `as_dict`. -/
def CommandResult.asDict (result : CommandResult F) : Dict String (Json F) :=
  .ofList
    [("argv", .arr (result.argv.map .str)), ("returncode", .int result.returncode),
      ("stdout", .str result.stdout), ("stderr", .str result.stderr),
      ("duration_s", .float result.duration), ("timed_out", .bool result.timedOut),
      ("ok", .bool result.ok)]

/-- What `service_health` says of a service. A service without a container has no status. -/
structure ServiceHealth where
  service : String
  exists? : Bool
  running : Bool
  status : Option String
  health : String
  restartCount : ℤ

/-- The dictionary that `service_health` returns. -/
def ServiceHealth.asDict (health : ServiceHealth) : Dict String (Json F) :=
  .ofList
    [("service", .str health.service), ("exists", .bool health.exists?),
      ("running", .bool health.running), ("status", (health.status.map Json.str).getD .null),
      ("health", .str health.health), ("restart_count", .int health.restartCount)]

/-- What `http_json` returns. -/
structure HttpReply (F : Type) where
  ok : Bool
  data : Json F
  error : Option String

/-- The dictionary that `http_json` returns. -/
def HttpReply.asDict (reply : HttpReply F) : Dict String (Json F) :=
  .ofList
    [("ok", .bool reply.ok), ("data", reply.data), ("error", (reply.error.map Json.str).getD .null)]

/-- What `file_freshness` says of a file. -/
structure Freshness (F : Type) where
  exists? : Bool
  fresh : Bool
  age : Option F

/-- The dictionary that `file_freshness` returns. -/
def Freshness.asDict (freshness : Freshness F) : Dict String (Json F) :=
  .ofList
    [("exists", .bool freshness.exists?), ("fresh", .bool freshness.fresh),
      ("age_s", (freshness.age.map Json.float).getD .null)]

/-- What `TelemetryReader.snapshot` says: the source of the samples, and how many there are. -/
structure Snapshot where
  source : String
  rows : ℕ

/-- What `system_diagnose` finds outside of the state and the revisions. -/
structure Observations where
  dockerReachable : Bool
  gpuAvailable : Bool
  composeValid : Bool
  isaac : ServiceHealth
  ros : ServiceHealth
  sionna : ServiceHealth
  packetFresh : Bool
  packetReady : Bool
  algorithmFresh : Bool
  algorithmReady : Bool
  sionnaFresh : Bool
  sionnaApi : Bool
  isaacFresh : Bool
  isaacSceneReady : Bool
  isaacAcknowledged : Bool
  resultsWritable : Bool

/-! ## The outside -/

/-- `OrchestratorSettings`, as far as it shows. -/
structure Settings (F : Type) where
  buildOnStart : Bool
  sionnaTimeout : F
  rosContainerTimeout : F
  rosGraphTimeout : F
  packetTimeout : F
  isaacProcessTimeout : F
  isaacSceneTimeout : F
  telemetryTimeout : F

/-- What stays the same as long as the program runs. -/
structure Host (F : Type) where
  settings : Settings F
  /-- the ids of revisions -/
  revisionIds : IdSupply
  /-- `sha256_value` -/
  sha256Value : Json F → Option String
  /-- SHA-256 of a text, in hexadecimal -/
  digest : String → String

/-- What the outside answers when it is asked for the `n`-th time. -/
structure Environment (F : Type) where
  /-- `time.time()` and the time that a wait took -/
  clock : ℕ → F
  /-- `uuid.uuid4()` for commands, events and runs -/
  uuid : ℕ → String
  /-- the text of an exception of the language or its library -/
  exceptionText : ℕ → String
  /-- a time without decimals, in a message -/
  seconds : F → String
  /-- the callback that is told of the progress -/
  callback : ℕ → Except (Failure F) Unit
  observations : ℕ → Except (Failure F) Observations
  /-- the configuration file after the repair of the host -/
  repaired : ℕ → Option (List Char)
  /-- the report of the preflight -/
  preflight : ℕ → Except (Failure F) (Dict String (Json F))
  health : ℕ → Except (Failure F) ServiceHealth
  command : ℕ → List String → Except (Failure F) (CommandResult F)
  /-- the logs of the services and the state of the containers -/
  failureDetails : ℕ → Except (Failure F) (Dict String (Json F))
  /-- whether a file could be removed -/
  unlinks : ℕ → Bool
  http : ℕ → HttpReply F
  freshness : ℕ → Freshness F
  /-- the heartbeat that is read from a file -/
  heartbeat : ℕ → Json F
  /-- whether the relay chain is a node of the ROS graph -/
  graph : ℕ → Except (Failure F) (CommandResult F)
  snapshot : ℕ → Except (Failure F) Snapshot
  /-- how many rounds of a wait begin before its deadline -/
  rounds : ℕ → ℕ
  /-- how the participants behave while a revision is applied -/
  participants : ℕ → Synchronization.Environment F
  resultsExist : ℕ → Bool
  /-- the manifest of the run, once it is written -/
  manifest : ℕ → Except (Failure F) (Dict String (Json F))
  supportBundle : ℕ → Except (Failure F) Unit
  /-- what `publish_ros_string` returns -/
  publish : ℕ → Except (Failure F) (Dict String (Json F))

/-- Something that was written, as the history of a run lists it. -/
inductive Effect (F : Type)
  /-- a line of the command log -/
  | commandLogged (record : Dict String (Json F))
  /-- a patch of the state -/
  | patched (patch : Dict String (Json F))
  /-- a revision was committed -/
  | committed (record : Revisions.Record F)

/-- What the programs work on. -/
structure World (F : Type) where
  files : Files
  revisions : Revisions.Store F
  /-- how often the outside was asked -/
  asked : ℕ
  /-- the lines of the command log, the patches of the state and the commits, oldest first -/
  history : List (Effect F)

/-- `snaas_relay_config.json`. -/
def configPath : String := "snaas_relay_config.json"

/-! ## What programs can do -/

/-- The value that a patch of the state gives to a key, as it reads back. -/
def Effect.value (key : String) : Effect F → Option (Json F)
  | .patched patch => (patch.get? key).map sortKeys
  | _ => none

/-- The value of a key after some patches. -/
def written (key : String) (history : List (Effect F)) (value : Option (Json F)) :
    Option (Json F) :=
  history.foldl (fun value effect => (effect.value key).or value) value

/-- No command, no state and no revision is written; acknowledgement files may be removed. -/
structure Quiet (world world' : World F) : Prop where
  history : world'.history = world.history
  state : world'.files State.statePath = world.files State.statePath
  revisions : ∃ acks, world'.revisions = { world.revisions with acks }

instance : Program.Composable (Quiet (F := F)) where
  refl world := ⟨rfl, rfl, world.revisions.acks, rfl⟩
  trans := by
    rintro a b c ⟨hhistory, hstate, acks, hrevisions⟩
      ⟨hhistory', hstate', acks', hrevisions'⟩
    refine ⟨hhistory'.trans hhistory, hstate'.trans hstate, acks', ?_⟩
    rw [hrevisions', hrevisions]

/-- A step that writes no command, no state and no revision. -/
abbrev Silent (F : Type) := Program.Guarded (Quiet (F := F)) (Failure F)

section Reached

variable [PyText F] [PyBuiltins F]

/-- An entry of the state on disk, up to the order of keys. The stamp of the clock is left out. -/
def World.entry (world : World F) (key : String) : Option (Json F) :=
  ((State.read world.files 0.0).get? key).map sortKeys

/-- The state on disk has the patches that the history lists, and the revisions are those that the
manager reaches by some calls. -/
structure Reached (host : Host F) (world world' : World F) : Prop where
  journal : ∃ effects, world'.history = world.history ++ effects ∧
    ∀ key, key ≠ "sequence" → key ≠ "updated_at" →
      world'.entry key = written key effects (world.entry key)
  managed : ∃ ops, world'.revisions =
    Run.run (Revisions.Store.perform host.revisionIds host.sha256Value) world.revisions ops

instance (host : Host F) : Program.Composable (Reached host) where
  refl world := ⟨⟨[], (List.append_nil _).symm, fun _ _ _ => rfl⟩, [], rfl⟩
  trans := by
    rintro a b c ⟨⟨effects, hhistory, hentry⟩, ops, hops⟩
      ⟨⟨effects', hhistory', hentry'⟩, ops', hops'⟩
    refine ⟨⟨effects ++ effects', ?_, fun key hkey hkey' => ?_⟩, ops ++ ops', ?_⟩
    · rw [hhistory', hhistory, List.append_assoc]
    · rw [hentry' key hkey hkey', hentry key hkey hkey', written, written, written,
        List.foldl_append]
    · rw [hops', hops, Run.run_append]

/-- A step of the orchestrator. -/
abbrev Prog (host : Host F) := Program.Guarded (Reached host) (Failure F)

omit [PyText F] [PyBuiltins F] in
/-- Replacing acknowledgement files is something that the store of revisions knows. -/
theorem run_ackFiles (host : Host F) (revisions : Revisions.Store F)
    (acks : Revisions.AckFile → Option (Json F)) :
    Run.run (Revisions.Store.perform host.revisionIds host.sha256Value) revisions
      (Synchronization.ackOps { acks, written := fun _ => false }) = { revisions with acks } :=
  Synchronization.run_ackOps host.revisionIds host.sha256Value revisions _

theorem Quiet.reached {world world' : World F} (h : Quiet world world') (host : Host F) :
    Reached host world world' := by
  obtain ⟨hhistory, hstate, acks, hrevisions⟩ := h
  refine ⟨⟨[], ?_, fun key _ _ => ?_⟩, _, hrevisions.trans (run_ackFiles host _ acks).symm⟩
  · rw [hhistory, List.append_nil]
  · exact congrArg (fun state => (Dict.get? state key).map sortKeys) (State.read_eq_of_eq hstate _)

instance (host : Host F) : MonadLift (Silent F) (Prog host) where
  monadLift := Program.Guarded.weaken fun _ _ h => h.reached host

end Reached

/-! ## Asking -/

/-- Ask the outside, whatever the answer. -/
def ask {α : Type} (env : Environment F) (answer : Environment F → ℕ → α) : Silent F α :=
  .step (fun world => .ok (answer env world.asked, { world with asked := world.asked + 1 })) (by
    rintro world a world' h
    obtain ⟨rfl, rfl⟩ := Prod.mk.inj (Except.ok.inj h)
    exact ⟨rfl, rfl, _, rfl⟩)

/-- Raise an exception, or go on with a result. -/
def orThrow {α : Type} : Except (Failure F) α → Silent F α
  | .ok a => return a
  | .error e => throw e

/-- Ask the outside, which may raise. -/
def request {α : Type} (env : Environment F)
    (answer : Environment F → ℕ → Except (Failure F) α) : Silent F α := do
  orThrow (← ask env answer)

/-- A result of the program itself; without one it raises. -/
def result {α : Type} (env : Environment F) (world : World F) :
    Option (α × World F) → Except (Failure F) (α × World F)
  | some result => .ok result
  | none => .error (.raised (env.exceptionText world.asked))

theorem result_eq_ok {α : Type} {env : Environment F} {world : World F}
    {x : Option (α × World F)} {y : α × World F} : result env world x = .ok y ↔ x = some y := by
  cases x with
  | none => exact iff_of_false (fun h => nomatch h) fun h => nomatch h
  | some z =>
      exact ⟨fun h => congrArg some (Except.ok.inj h), fun h => congrArg _ (Option.some.inj h)⟩

/-- A step of the program itself that raises when it has no result. -/
def orRaise {α : Type} (env : Environment F) (x : Option α) : Silent F α :=
  .step (fun world => result env world (x.map fun a => (a, world))) (by
    rintro world a world' h
    obtain ⟨_, -, heq⟩ := Option.map_eq_some_iff.mp (result_eq_ok.mp h)
    obtain ⟨-, rfl⟩ := Prod.mk.inj heq
    exact Program.Composable.refl _)

/-- Raise an error unless a condition holds. -/
def require (ok : Bool) (error : NetlabError F) : Silent F Unit :=
  if ok then pure () else throw (.netlab error)

/-- Do something only if a condition holds. -/
def onlyIf {m : Type → Type} [Monad m] (condition : Bool) (prog : m Unit) : m Unit :=
  if condition then prog else pure ()

/-- Write a file, other than the state. -/
def writeFile (env : Environment F) (path : String) (h : path ≠ State.statePath)
    (write : Files → Option Files)
    (hwrite : ∀ files files', write files = some files' →
      ∀ other ≠ path, files' other = files other) : Silent F Unit :=
  .step (fun world =>
    result env world ((write world.files).map fun files => ((), { world with files }))) (by
    rintro world a world' hworld
    obtain ⟨files, hfiles, heq⟩ := Option.map_eq_some_iff.mp (result_eq_ok.mp hworld)
    obtain ⟨-, rfl⟩ := Prod.mk.inj heq
    exact ⟨rfl, hwrite _ _ hfiles _ h.symm, _, rfl⟩)

section Calls

variable [PyText F] [PyBuiltins F] (env : Environment F)

/-! ## The state store -/

/-- The clock and the id that a call on the store takes. -/
def stamp : Silent F (State.Stamp F) :=
  ask env fun env n => { now := env.clock n, logged := env.clock n, eventId := env.uuid n }

/-- `append_event`. -/
def appendEvent (args : State.EventArgs F) : Silent F Unit := do
  let stamp ← stamp env
  writeFile env State.eventLog (by decide) (fun files => State.appendEvent files stamp args)
    fun files files' h other hother => by
      obtain ⟨sequence, -, rfl⟩ := State.appendEvent_spec h
      exact State.appendText_of_ne hother _

/-- `_progress`. -/
def progress (stage : String) (payload : List (String × Json F)) : Silent F Unit := do
  let now ← ask env (·.clock)
  let event := ("stage", Json.str stage) :: ("timestamp", .float now) :: payload
  appendEvent env
    { eventType := "ORCHESTRATION_PROGRESS", payload := .ofList event, component := "orchestrator" }
  request env (·.callback)

/-! ## The configuration file -/

/-- `load_experiment` on the configuration file. -/
def loadConfig : Silent F (Dict String (Json F)) := do
  let now ← ask env (·.clock)
  let later ← ask env (·.clock)
  match (← .look).files configPath with
  | none => orRaise env (Experiment.loadExperiment now later none)
  | some text => do
      let value ← orRaise env (load text)
      orRaise env (Experiment.loadExperiment now later (some value))

/-- `save_experiment` on the configuration file, with the legacy fields. -/
def saveConfigFile (config : Dict String (Json F)) : Silent F Unit := do
  let t₁ ← ask env (·.clock)
  let t₂ ← ask env (·.clock)
  let t₃ ← ask env (·.clock)
  let t₄ ← ask env (·.clock)
  let payload ← orRaise env (Experiment.saveExperiment t₁ t₂ t₃ t₄ config true)
  writeFile env configPath (by decide)
    (fun files => atomicWriteJson files configPath (.ofDict payload))
    fun files files' h other hother => by
      rw [atomicWriteJson] at h
      split at h
      · rw [← Option.some.inj h, Function.update_of_ne hother]
      · cases h

/-- What the repair of the host leaves of the configuration file. -/
def replaceConfigFile (content : Option (List Char)) : Silent F Unit :=
  writeFile env configPath (by decide)
    (fun files => some (Function.update files configPath content))
    fun files files' h other hother => by
      rw [← Option.some.inj h, Function.update_of_ne hother]

/-- `validate_experiment` with `strict=True`. -/
def validated (config : Dict String (Json F)) : Silent F (Dict String (Json F)) := do
  let now ← ask env (·.clock)
  let later ← ask env (·.clock)
  orRaise env (Experiment.validateStrict now later config)

/-- `ensure_configuration`. -/
def ensureConfiguration : Silent F (Dict String (Json F)) := do
  if ((← .look).files configPath).isSome then
    validated env (← loadConfig env)
  else
    let now ← ask env (·.clock)
    let config := Experiment.defaultExperiment now
    saveConfigFile env config
    validated env config

/-! ## Looking at the revisions -/

/-- `RevisionManager.read`. -/
def readRevision (revisionId : String) : Silent F (Revisions.Record F) := do
  orRaise env ((← .look).revisions.read revisionId)

/-- `RevisionManager.status`. -/
def revisionStatus (revisionId : Option String) : Silent F (Revisions.Status F) := do
  orRaise env ((← .look).revisions.status revisionId)

/-! ## Writing the state and the commands -/

variable [FloatNumeral F] (host : Host F)

/-- The entries of the state that `update` leaves. -/
theorem get?_update {files files' : Files} {stamp : State.Stamp F}
    {patch : Dict String (Json F)} {eventType component : String}
    (h : State.update files stamp patch eventType component = some files') (now : F) {key : String}
    (hkey : key ≠ "sequence") (hkey' : key ≠ "updated_at") :
    ((State.read files' now).get? key).map sortKeys =
      ((patch.get? key).map sortKeys).or (((State.read files now).get? key).map sortKeys) := by
  obtain ⟨sequence, -, -, hread, -, -⟩ := State.update_spec h
  rw [hread, State.patched, Dict.get?_set, if_neg hkey', Dict.get?_set, if_neg hkey,
    Dict.get?_update, State.get?_read files stamp.now now hkey']
  cases patch.get? key with
  | some value => simp only [Option.some_or, Option.map_some, sortKeys_sortKeys]
  | none =>
      rw [Option.none_or, Option.map_none, Option.none_or, Option.map_map]
      exact congrArg (Option.map · _) (funext sortKeys_sortKeys)

/-- `update`; the state that was written is returned. -/
def update (patch : Dict String (Json F)) (eventType component : String) :
    Prog host (Dict String (Json F)) := do
  let stamp ← stamp env
  let write (world : World F) : Option (Dict String (Json F) × World F) := do
    let files ← State.update world.files stamp patch eventType component
    let state := State.read world.files stamp.now
    let sequence ← State.sequence? (state.update patch)
    return (State.patched state patch sequence stamp.now,
      { world with files, history := world.history ++ [.patched patch] })
  .step (fun world => result env world (write world)) (by
    rintro world state world' h
    obtain ⟨files, hfiles, h⟩ := Option.bind_eq_some_iff.mp (result_eq_ok.mp h)
    obtain ⟨sequence, -, h⟩ := Option.bind_eq_some_iff.mp h
    obtain ⟨-, rfl⟩ := Prod.mk.inj (Option.some.inj h)
    exact ⟨⟨[.patched patch], rfl, fun key hkey hkey' => get?_update hfiles _ hkey hkey'⟩, [], rfl⟩)

/-- `set_phase` of the store. -/
def writePhase (phase : String) (error : Option (Dict String (Json F))) : Prog host Unit := do
  let _ ← update env host (State.phasePatch phase error) "RUNTIME_PHASE_CHANGED" "orchestrator"

/-- `start_run`. -/
def startRun (experiment : Dict String (Json F)) : Prog host Unit := do
  let runId ← ask env (·.uuid)
  let _ ← update env host (State.runPatch host.digest (.ofDict experiment) runId) "RUN_CREATED"
    "experiment_manager"

/-- A line of the command log. -/
def logCommand (record : Dict String (Json F)) : Prog host Unit :=
  .step (fun world => result env world
    ((appendJsonl world.files State.commandLog (.ofDict record)).map fun files =>
      ((), { world with files, history := world.history ++ [.commandLogged record] }))) (by
    rintro world state world' h
    obtain ⟨files, hfiles, h⟩ := Option.map_eq_some_iff.mp (result_eq_ok.mp h)
    obtain ⟨-, rfl⟩ := Prod.mk.inj h
    have hstate : files State.statePath = world.files State.statePath :=
      State.appendJsonl_of_ne hfiles (by decide)
    refine ⟨⟨[.commandLogged record], rfl, fun key _ _ => ?_⟩, [], rfl⟩
    exact congrArg (fun state => (Dict.get? state key).map sortKeys) (State.read_eq_of_eq hstate _))

/-- `create_command`. -/
def createCommand (name : String) (payload : Dict String (Json F)) (component : String) :
    Prog host (Dict String (Json F)) := do
  let commandId ← ask env (·.uuid)
  let now ← ask env (·.clock)
  let command := Dict.ofList (State.commandRecord commandId name payload component now)
  logCommand env host command
  let _ ← update env host (.ofList [("last_command_id", .str commandId)]) "COMMAND_ACCEPTED"
    component
  return command

/-- `acknowledge_command`. -/
def acknowledgeCommand (command : Dict String (Json F)) (status : String)
    (acknowledgement error : Json F) : Prog host Unit := do
  let now ← ask env (·.clock)
  logCommand env host (State.acknowledged command status acknowledgement error now)
  appendEvent env (State.acknowledgeArgs command status acknowledgement error now)

/-! ## Changing the revisions -/

/-- The participants of a revision. -/
def participantNames : List String := ["ros", "sionna", "isaac"]

omit [FloatNumeral F] in
/-- `RevisionManager.create`. -/
def createRevision (config : Dict String (Json F)) : Prog host (Revisions.Record F) :=
  .step (fun world =>
    let created := world.revisions.create host.revisionIds host.sha256Value (.ofDict config)
      participantNames
    result env world (created.map fun (record, revisions) => (record, { world with revisions })))
    (by
    rintro world record world' h
    obtain ⟨⟨_, revisions⟩, hcreate, heq⟩ := Option.map_eq_some_iff.mp (result_eq_ok.mp h)
    obtain ⟨-, rfl⟩ := Prod.mk.inj heq
    refine ⟨⟨[], (List.append_nil _).symm, fun _ _ _ => rfl⟩,
      [.create (.ofDict config) participantNames], ?_⟩
    rw [Run.run_cons, Run.run_nil, Revisions.Store.perform, hcreate]
    rfl)

omit [FloatNumeral F] in
/-- `RevisionManager.commit`. -/
def commitRevision (revisionId : String) : Prog host (Revisions.Record F) :=
  .step (fun world =>
    result env world ((world.revisions.commit revisionId).map fun (record, revisions) =>
      (record, { world with revisions, history := world.history ++ [.committed record] }))) (by
    rintro world record world' h
    obtain ⟨⟨_, revisions⟩, hcommit, heq⟩ := Option.map_eq_some_iff.mp (result_eq_ok.mp h)
    obtain ⟨-, rfl⟩ := Prod.mk.inj heq
    refine ⟨⟨[_], rfl, fun _ _ _ => rfl⟩, [.commit revisionId], ?_⟩
    rw [Run.run_cons, Run.run_nil, Revisions.Store.perform, hcommit]
    rfl)

omit [FloatNumeral F] in
/-- What `RuntimeSynchronizer.apply` does, and the transaction unless it raises. Where it raises,
what was marked before stays. -/
def attempt (record : Revisions.Record F) (participants : Synchronization.Environment F)
    (offlineIsPending : Bool) : Prog host (Option (Synchronization.Transaction F)) :=
  .step (fun world =>
    let transaction := Synchronization.apply world.revisions record participants offlineIsPending
    let revisions := Synchronization.perform host.revisionIds host.sha256Value world.revisions
      (.apply record participants offlineIsPending)
    .ok (transaction.map Prod.fst, { world with revisions })) (by
    rintro world transaction world' h
    obtain ⟨-, rfl⟩ := Prod.mk.inj (Except.ok.inj h)
    exact ⟨⟨[], (List.append_nil _).symm, fun _ _ _ => rfl⟩, _, rfl⟩)

/-- `RuntimeSynchronizer.apply`. -/
def applyRevision (record : Revisions.Record F) (offlineIsPending : Bool) :
    Prog host (Synchronization.Transaction F) := do
  let participants ← ask env (·.participants)
  let transaction ← attempt host record participants offlineIsPending
  orRaise env transaction

/-- `RuntimeSynchronizer.reconcile`. -/
def reconcileRevision (revisionId : String) :
    Prog host (Option (Synchronization.Transaction F)) := do
  let desired := (← .look).revisions.desired
  let revisionId := if revisionId = "" then (desired.map (·.revisionId)).getD "" else revisionId
  if revisionId = "" then return none
  else
    let record ← readRevision env revisionId
    return some (← applyRevision env host record true)

end Calls

end Netlab.Orchestrator
