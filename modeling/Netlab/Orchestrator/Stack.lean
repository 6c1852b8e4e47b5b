import Netlab.Orchestrator.Control

/-!
# Starting and stopping the stack

`start_stack`, `stop_stack` and `restart_stack` of `netlab/orchestrator.py`, with `system_diagnose`
of `netlab/diagnostics.py` as far as a start depends on it. A start writes one phase after the
other, brings up the three services, waits for each of them, commits a first revision and takes a
look at the telemetry. Whatever is raised on the way is caught, and the command is acknowledged as
failed.

`netlab/models.py` defines a `ReadinessState` and then exports the one of `netlab/contracts.py`
under the same name; that one is used.
-/

open JsonText SharedFiles

namespace Netlab.Orchestrator

variable {F : Type} [PyText F] [PyBuiltins F] (env : Environment F)

/-! ## Readiness -/

/-- `ReadinessState`. -/
structure ReadinessState where
  docker : Bool := false
  gpu : Bool := false
  compose : Bool := false
  sionna : Bool := false
  rosContainer : Bool := false
  rosGraph : Bool := false
  packetRuntime : Bool := false
  isaacProcess : Bool := false
  isaacScene : Bool := false
  isaacHeartbeat : Bool := false
  isaacScenarioAcknowledged : Bool := false
  telemetry : Bool := false
  evidence : Bool := false
  synchronized : Bool := false

/-- `ready`, which is also reported as `critical_ready`. -/
def ReadinessState.ready (r : ReadinessState) : Bool :=
  r.docker && r.compose && r.sionna && r.rosContainer && r.rosGraph && r.packetRuntime &&
    r.isaacProcess && r.isaacScene && r.isaacHeartbeat && r.isaacScenarioAcknowledged &&
    r.telemetry && r.synchronized

/-- `as_dict`. -/
def ReadinessState.asDict (r : ReadinessState) : Dict String (Json F) :=
  .ofList
    [("docker_ready", .bool r.docker), ("gpu_ready", .bool r.gpu),
      ("compose_ready", .bool r.compose), ("sionna_ready", .bool r.sionna),
      ("ros_container_ready", .bool r.rosContainer), ("ros_graph_ready", .bool r.rosGraph),
      ("packet_runtime_ready", .bool r.packetRuntime),
      ("isaac_process_ready", .bool r.isaacProcess), ("isaac_scene_ready", .bool r.isaacScene),
      ("isaac_heartbeat_ready", .bool r.isaacHeartbeat),
      ("isaac_scenario_acknowledged", .bool r.isaacScenarioAcknowledged),
      ("telemetry_ready", .bool r.telemetry), ("evidence_ready", .bool r.evidence),
      ("synchronized", .bool r.synchronized), ("ready", .bool r.ready),
      ("critical_ready", .bool r.ready)]

/-- `_service_ready` of the diagnosis. -/
def ServiceHealth.ready (health : ServiceHealth) : Bool :=
  health.running && health.health ∉ ["unhealthy", "missing", "stopped", "unavailable"]

/-- What `system_diagnose` returns, as far as a start or an edit reads it. -/
structure Diagnosis (F : Type) where
  readiness : ReadinessState
  revision : Revisions.Status F
  state : Dict String (Json F)

/-- The readiness that `system_diagnose` derives. -/
def Observations.readiness (seen : Observations) (inSync : Bool) (telemetrySource : String) :
    ReadinessState where
  docker := seen.dockerReachable
  gpu := seen.gpuAvailable
  compose := seen.composeValid
  rosContainer := seen.ros.ready
  rosGraph := seen.ros.ready && seen.packetFresh && seen.packetReady && seen.algorithmFresh &&
    seen.algorithmReady
  packetRuntime := seen.packetFresh && seen.packetReady
  sionna := seen.sionna.ready && seen.sionnaApi && seen.sionnaFresh
  isaacProcess := seen.isaac.ready
  isaacScene := seen.isaacFresh && seen.isaacSceneReady
  isaacHeartbeat := seen.isaacFresh
  isaacScenarioAcknowledged := seen.isaacAcknowledged && inSync
  telemetry := telemetrySource = "LIVE" || seen.packetFresh
  evidence := seen.resultsWritable

/-- `system_diagnose`. -/
def systemDiagnose : Silent F (Diagnosis F) := do
  let seen ← request env (·.observations)
  let revision ← revisionStatus env none
  let now ← ask env (·.clock)
  let state := State.read (← .look).files now
  let source := state.getText "telemetry_source" "OFFLINE"
  return { readiness := seen.readiness revision.inSync source, revision, state }

/-- The condition under which a start takes the stack for running. -/
def Diagnosis.settled (observed : Diagnosis F) : Bool :=
  observed.readiness.ready && observed.revision.inSync &&
    PyBuiltins.upper F (observed.state.getText "telemetry_source" "") = "LIVE"

/-! ## Phases, waits and services -/

/-- The recommendation of a wait that names none. -/
def doctorRecommendation : String :=
  "Run `./scripts/netlab doctor` and inspect the relevant service logs."

/-- The rounds of `_wait`. -/
def waitRounds (predicate : Silent F (Bool × Dict String (Json F))) (stage : String) (timeout : F)
    (recommendation : String) : ℕ → Dict String (Json F) → Silent F (Dict String (Json F))
  | 0, last => do
      let elapsed ← ask env (·.clock)
      throw (.netlab
        { code := PyBuiltins.upper F stage ++ "_TIMEOUT"
          message := "Timed out after " ++ env.seconds timeout ++ " seconds while waiting for " ++
            stage ++ "."
          component := "orchestrator"
          details := .ofList [("last_observation", .ofDict last), ("elapsed_s", .float elapsed)]
          recommendation })
  | rounds + 1, _ => do
      let (ok, last) ← predicate
      let elapsed ← ask env (·.clock)
      progress env stage
        [("ready", .bool ok), ("elapsed_s", .float elapsed), ("timeout_s", .float timeout),
          ("observation", .ofDict last)]
      if ok then return last
      else waitRounds predicate stage timeout recommendation rounds last

/-- `_wait`: ask until the predicate holds or the deadline has passed. -/
def wait (predicate : Silent F (Bool × Dict String (Json F))) (timeout : F) (stage : String)
    (recommendation : String := doctorRecommendation) : Silent F (Dict String (Json F)) := do
  let rounds ← ask env (·.rounds)
  waitRounds env predicate stage timeout recommendation rounds .empty

/-- What `_service_wait` asks of a service. -/
def ServiceHealth.stable (health : ServiceHealth) : Bool :=
  health.running && PyText.lower F (health.status.getD "") = "running" &&
    health.health ∉ ["unhealthy", "missing", "stopped"]

/-- `_service_wait`. -/
def serviceWait : Silent F (Bool × Dict String (Json F)) := do
  let health ← request env (·.health)
  return (health.stable (F := F), health.asDict)

/-- `_sionna_wait`. -/
def sionnaWait : Silent F (Bool × Dict String (Json F)) := do
  let service ← request env (·.health)
  let ready ← ask env (·.http)
  -- the health of the service stands in for its readiness
  let result ← if ready.ok then pure ready else ask env (·.http)
  let heartbeat ← ask env (·.freshness)
  return (service.running && result.ok && heartbeat.fresh,
    .ofList [("service", .ofDict service.asDict), ("api", .ofDict result.asDict),
      ("heartbeat", .ofDict heartbeat.asDict)])

/-- `_ros_graph_wait`. -/
def rosGraphWait : Silent F (Bool × Dict String (Json F)) := do
  let health ← request env (·.health)
  if !health.running then return (false, health.asDict)
  else if PyText.lower F (health.status.getD "") = "restarting" ∨ health.health = "unhealthy" then
    return (false, (health.asDict (F := F)).set "error"
      (.str "ROS container is restarting or unhealthy; inspect the captured service logs."))
  else
    match ← ask env (·.graph) with
    | .ok result =>
        let seen := (health.asDict (F := F)).set "node_ready" (.bool result.ok)
        return (result.ok, seen.set "command" (.ofDict result.asDict))
    -- what the command raises is an observation
    | .error _ =>
        let text ← ask env (·.exceptionText)
        return (false, (health.asDict (F := F)).set "error" (.str text))

/-- A heartbeat file: `read_json(path, {}) or {}`, which has to be a mapping to be looked into. -/
def readHeartbeat : Silent F (Json F) := do
  return (← ask env (·.heartbeat)).orElse (.obj [])

/-- `_packet_wait`. -/
def packetWait : Silent F (Bool × Dict String (Json F)) := do
  let freshness ← ask env (·.freshness)
  let heartbeat ← readHeartbeat env
  let seen := Dict.ofList [("freshness", .ofDict freshness.asDict), ("heartbeat", heartbeat)]
  if !freshness.fresh then return (false, seen)
  else
    let members ← orRaise env heartbeat.dict?
    let numbered :=
      match members.getD "sequence" .null with
      | .null => false
      | _ => true
    return ((members.getD "ready" (.bool true)).truthy && numbered, seen)

/-- `_isaac_scene_wait`. -/
def isaacSceneWait : Silent F (Bool × Dict String (Json F)) := do
  let service ← request env (·.health)
  let freshness ← ask env (·.freshness)
  let heartbeat ← readHeartbeat env
  let members ← orRaise env heartbeat.dict?
  let sceneReady := (members.getD "scene_ready" (members.getD "ready" (.bool false))).truthy
  return (service.running && freshness.fresh && sceneReady,
    .ofList [("service", .ofDict service.asDict), ("heartbeat", heartbeat),
      ("freshness", .ofDict freshness.asDict), ("scene_ready", .bool sceneReady)])

/-- `_telemetry_wait`. -/
def telemetryWait : Silent F (Bool × Dict String (Json F)) := do
  let snapshot ← request env (·.snapshot)
  return (snapshot.source = "LIVE" && snapshot.rows ≠ 0,
    .ofList [("source", .str snapshot.source), ("sample_count", .int snapshot.rows),
      ("snapshot_source", .obj [("source", .str snapshot.source)])])

/-- `_run_compose`. -/
def runCompose (args : List String) (errorCode message commandId stage : String) :
    Silent F (Dict String (Json F)) := do
  let result ← request env fun env n => env.command n args
  progress env stage [("command", .ofDict result.asDict)]
  if result.ok then return result.asDict
  else
    let details ← request env (·.failureDetails)
    throw (.netlab
      { code := errorCode, message, component := "orchestrator", details
        recommendation := "Inspect the embedded Compose stderr and service logs or run " ++
          "`./scripts/netlab support-bundle`."
        commandId := some commandId })

/-- The name of a service in an error code. -/
def serviceCode (service : String) : String :=
  .ofList ((PyBuiltins.upper F service).toList.map fun c => if c = '-' then '_' else c)

/-- Build the image of one service. -/
def buildImage (service commandId : String) : Silent F (Dict String (Json F)) :=
  runCompose env ["build", service] (serviceCode (F := F) service ++ "_BUILD_FAILED")
    ("Docker Compose failed to build " ++ service ++ ".") commandId ("build_" ++ service)

/-- The acknowledgement file that a service leaves. -/
def ackFileOf (service : String) : Option Revisions.AckFile :=
  if service = "sionna-engine" then some .sionna
  else if service = "ros2-core" then some .ros
  else if service = "isaac" then some .isaac
  else none

/-- Remove an acknowledgement file. -/
def unlinkAck (file : Revisions.AckFile) : Silent F Unit :=
  .step (fun world =>
    let acks f := if f = file then none else world.revisions.acks f
    .ok ((), { world with revisions := { world.revisions with acks } })) (by
    rintro world a world' h
    obtain ⟨-, rfl⟩ := Prod.mk.inj (Except.ok.inj h)
    exact ⟨rfl, rfl, _, rfl⟩)

/-- `_clear_stale_artifacts`. A file that cannot be removed stays. -/
def clearStaleArtifacts (service : String) : Silent F Unit := do
  let unlinks ← ask env (·.unlinks)
  match ackFileOf service with
  | some file => onlyIf unlinks (unlinkAck file)
  | none => return

/-- Remove the container that is there. -/
def removeStale (service : String) (observed : ServiceHealth) : Silent F Unit := do
  let removal ← request env fun env n => env.command n ["rm", "-s", "-f", service]
  progress env ("remove_stale_" ++ service)
    [("command", .ofDict removal.asDict), ("previous", .ofDict observed.asDict)]

/-- `_ensure_service_started`. -/
def ensureServiceStarted (service commandId : String) : Silent F Unit := do
  let observed ← request env (·.health)
  if observed.stable (F := F) && observed.restartCount = 0 then
    progress env ("reuse_" ++ service)
      [("service", .ofDict observed.asDict), ("idempotent", .bool true)]
  else
    clearStaleArtifacts env service
    onlyIf observed.exists? (removeStale env service observed)
    let _ ← runCompose env ["up", "-d", "--force-recreate", service]
      (serviceCode (F := F) service ++ "_START_FAILED")
      (service ++ " could not be started in a stable container.") commandId ("start_" ++ service)

/-! ## The start -/

variable [FloatNumeral F] (host : Host F)

/-- `_set_phase`. -/
def setPhase (phase : String) : Prog host Unit := do
  writePhase env host phase none
  progress env (PyText.lower F phase) [("phase", .str phase)]

/-- `_build_images`. -/
def buildImages (commandId : String) : Prog host (Dict String (Json F)) := do
  setPhase env host "BUILDING"
  let sionna ← buildImage env "sionna-engine" commandId
  let ros ← buildImage env "ros2-core" commandId
  let isaac ← buildImage env "isaac" commandId
  return .ofList [("sionna-engine", .ofDict sionna), ("ros2-core", .ofDict ros),
    ("isaac", .ofDict isaac)]


/-- What an event tells of a revision. -/
def summary (record : Revisions.Record F) : Json F :=
  .obj [("revision_id", .str record.revisionId),
    ("parent_revision_id", .str record.parentRevisionId)]

/-- What an event tells of a transaction. -/
def verdict (transaction : Synchronization.Transaction F) : Dict String (Json F) :=
  .ofList [("revision_id", .str transaction.revisionId),
    ("committable", .bool transaction.committable),
    ("pending", .arr (transaction.pending.map .str))]

/-- `_apply_startup_revision`. -/
def applyStartupRevision (config : Dict String (Json F)) (commandId : String) :
    Prog host (Revisions.Record F) := do
  let record ← createRevision env host config
  let _ ← update env host (.ofList [("desired_revision_id", .str record.revisionId),
    ("synchronization_state", .str "PENDING_RUNTIME_APPLY")]) "STARTUP_REVISION_CREATED"
    "orchestrator"
  progress env "revision_created" [("revision", summary record)]
  let transaction ← applyRevision env host record false
  progress env "revision_participant_acknowledgements"
    [("transaction", .ofDict (verdict transaction))]
  require transaction.committable
    { code := "STARTUP_REVISION_NOT_COMMITTED"
      message := "The stack is alive, but ROS 2, Sionna, and Isaac did not acknowledge one " ++
        "startup revision."
      component := "orchestrator", details := verdict transaction
      recommendation :=
        "Run `./scripts/netlab sync-doctor` and inspect the synchronization acknowledgements."
      commandId := some commandId }
  let committed ← commitRevision env host record.revisionId
  saveConfigFile env config
  let _ ← revisionStatus env (some record.revisionId)
  return committed

/-- The services are brought up one after the other, and each is waited for. -/
def startServices (commandId : String) : Prog host (Dict String (Json F)) := do
  setPhase env host "STARTING_SIONNA"
  ensureServiceStarted env "sionna-engine" commandId
  setPhase env host "WAITING_FOR_SIONNA"
  let sionna ← wait env (sionnaWait env) host.settings.sionnaTimeout "sionna"
  setPhase env host "STARTING_ROS"
  ensureServiceStarted env "ros2-core" commandId
  setPhase env host "WAITING_FOR_ROS_CONTAINER"
  let rosContainer ← wait env (serviceWait env) host.settings.rosContainerTimeout "ros_container"
  setPhase env host "WAITING_FOR_ROS_GRAPH"
  let rosGraph ← wait env (rosGraphWait env) host.settings.rosGraphTimeout "ros_graph"
  setPhase env host "WAITING_FOR_PACKET_RUNTIME"
  let packet ← wait env (packetWait env) host.settings.packetTimeout "packet_runtime"
  setPhase env host "STARTING_ISAAC"
  ensureServiceStarted env "isaac" commandId
  setPhase env host "WAITING_FOR_ISAAC_PROCESS"
  let isaacProcess ← wait env (serviceWait env) host.settings.isaacProcessTimeout "isaac_process"
  setPhase env host "WAITING_FOR_ISAAC_SCENE"
  let isaacScene ← wait env (isaacSceneWait env) host.settings.isaacSceneTimeout "isaac_scene"
  return .ofList [("sionna", .ofDict sionna), ("ros_container", .ofDict rosContainer),
    ("ros_graph", .ofDict rosGraph), ("packet", .ofDict packet),
    ("isaac_process", .ofDict isaacProcess), ("isaac_scene", .ofDict isaacScene)]

/-- What an operation returns, under `ok`, `idempotent` and `error`. -/
structure Outcome (F : Type) where
  ok : Bool
  idempotent : Bool := false
  error : Option (Dict String (Json F)) := none

/-- The readiness that a start stores at its end. -/
def startedReadiness (live evidence : Bool) : ReadinessState where
  docker := true
  gpu := true
  compose := true
  rosContainer := true
  rosGraph := true
  packetRuntime := true
  sionna := true
  isaacProcess := true
  isaacScene := true
  isaacHeartbeat := true
  isaacScenarioAcknowledged := true
  telemetry := live
  evidence

/-- The patch that declares the stack ready. -/
def readyPatch (config services : Dict String (Json F)) (committed : Revisions.Record F)
    (source : String) (evidence : Bool) : Dict String (Json F) :=
  .ofList
    [("phase", .str "READY"), ("telemetry_source", .str source),
      ("readiness", .ofDict (startedReadiness (source = "LIVE") evidence).asDict),
      ("services", .ofDict services),
      ("config_hash", .str (Experiment.configurationHash host.digest (.ofDict config))),
      ("desired_revision_id", .str committed.revisionId),
      ("committed_revision_id", .str committed.revisionId),
      ("synchronization_state", .str "IN_SYNC")]

/-- The part of a start before its revision. The configuration, what was built and what the services
answered are returned. -/
def prepareStack (build : Bool) (commandId : String) :
    Prog host (Dict String (Json F) × Dict String (Json F) × Dict String (Json F)) := do
  setPhase env host "PREFLIGHT"
  -- the repair may replace the configuration file
  replaceConfigFile env (← ask env (·.repaired))
  let preflight ← request env (·.preflight)
  progress env "preflight_result" [("result", .ofDict preflight)]
  require ((preflight.get? "ok").getD .null).truthy
    { code := "PREFLIGHT_FAILED", message := "NETLAB preflight found blocking errors."
      component := "orchestrator", details := preflight
      recommendation := "Run `./scripts/netlab doctor --repair` and inspect the reported findings."
      commandId := some commandId }
  let config ← ensureConfiguration env
  startRun env host config
  let buildResults ← if build then buildImages env host commandId else pure .empty
  let services ← startServices env host commandId
  return (config, buildResults, services)

/-- The part of a start after its revision was committed. -/
def declareReady (config buildResults services command : Dict String (Json F))
    (committed : Revisions.Record F) : Prog host (Outcome F) := do
  setPhase env host "SMOKE_TESTING"
  let telemetry ← wait env (telemetryWait env) host.settings.telemetryTimeout "live_telemetry"
    "Inspect the packet runtime metrics and telemetry source classification."
  -- the telemetry is looked at once more
  let snapshot ← request env (·.snapshot)
  let evidence ← ask env (·.resultsExist)
  let final ← update env host (readyPatch host config services committed snapshot.source evidence)
    "STACK_READY" "orchestrator"
  let manifest ← request env (·.manifest)
  acknowledgeCommand env host command "COMPLETED"
    (.obj [("state", .ofDict final), ("revision", summary committed),
      ("manifest", .ofDict manifest), ("build", .ofDict buildResults),
      ("telemetry", .ofDict telemetry)]) .null
  return { ok := true }

/-- What a start does when the stack is not taken for running. -/
def startAnew (build : Bool) (command : Dict String (Json F)) (commandId : String) :
    Prog host (Outcome F) := do
  let (config, buildResults, services) ← prepareStack env host build commandId
  setPhase env host "SYNCHRONIZING"
  let committed ← applyStartupRevision env host config commandId
  declareReady env host config buildResults services command committed

/-- What `start_stack` tries. -/
def startBody (build : Bool) (command : Dict String (Json F)) (commandId : String) :
    Prog host (Outcome F) := do
  let observed ← systemDiagnose env
  if observed.settled then
    acknowledgeCommand env host command "COMPLETED"
      (.obj [("idempotent", .bool true),
        ("message", .str ("The complete NETLAB stack is already ready; " ++
          "no duplicate runtime was created.")),
        ("state", .ofDict observed.state), ("readiness", .ofDict observed.readiness.asDict)]) .null
    return { ok := true, idempotent := true }
  else startAnew env host build command commandId

/-- What `start_stack` does with an exception. -/
def failStart (command : Dict String (Json F)) (commandId : String) :
    Failure F → Prog host (Outcome F)
  | .netlab error => do
      writePhase env host "FAILED" (some error.asDict)
      acknowledgeCommand env host command "FAILED" .null (.ofDict error.asDict)
      request env (·.supportBundle)
      let _ ← systemDiagnose env
      return { ok := false, error := some error.asDict }
  | .raised message => do
      let error : NetlabError F :=
        { code := "UNEXPECTED_STARTUP_ERROR", message, component := "orchestrator"
          commandId := some commandId }
      writePhase env host "FAILED" (some error.asDict)
      acknowledgeCommand env host command "FAILED" .null (.ofDict error.asDict)
      request env (·.supportBundle)
      return { ok := false, error := some error.asDict }

/-- `start_stack`. -/
def startStack (build : Option Bool) : Prog host (Outcome F) := do
  let build := build.getD host.settings.buildOnStart
  let command ← createCommand env host "start_stack" (.ofList [("build", .bool build)])
    "orchestrator"
  let commandId := command.getText "command_id" ""
  tryCatch (startBody env host build command commandId) (failStart env host command commandId)

/-! ## The stop -/

/-- `stop_stack`. -/
def stopStack : Prog host (Outcome F) := do
  let command ← createCommand env host "stop_stack" .empty "orchestrator"
  writePhase env host "STOPPING" none
  let result ← request env fun env n => env.command n ["down", "--remove-orphans"]
  if result.ok then
    let state ← update env host (.ofList [("phase", .str "STOPPED"),
      ("telemetry_source", .str "OFFLINE"), ("readiness", .obj [])]) "STACK_STOPPED" "orchestrator"
    acknowledgeCommand env host command "COMPLETED" (.ofDict state) .null
    return { ok := true }
  else
    let details ← request env (·.failureDetails)
    let error := Dict.ofList [("code", .str "COMPOSE_DOWN_FAILED"),
      ("message", .str (if result.stderr = "" then result.stdout else result.stderr)),
      ("component", .str "orchestrator"), ("details", .ofDict details)]
    acknowledgeCommand env host command "FAILED" .null (.ofDict error)
    return { ok := false, error := some error }

/-- `restart_stack`. -/
def restartStack (build : Option Bool) : Prog host (Outcome F) := do
  let stopped ← stopStack env host
  if !stopped.ok then return stopped
  else startStack env host build

end Netlab.Orchestrator
