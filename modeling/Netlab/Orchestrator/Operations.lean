import Netlab.Orchestrator.Stack

/-!
# The operations on the stack

The other operations that write the runtime state: `synchronize` and `reconcile` of the
orchestrator, and `save_config` and the job of `start_experiment` of the mission control server
(`apps/mission_control/backend/server.py`). An operation is one step here, whether it returns or
raises; nothing is said of operations that overlap.
-/

open JsonText SharedFiles

namespace Netlab.Orchestrator

variable {F : Type} [PyText F] [PyBuiltins F] [FloatNumeral F] (env : Environment F)
  (host : Host F)

/-! ## Synchronization -/

/-- The `error` of a transaction that cannot be committed. -/
def transactionError (transaction : Option (Synchronization.Transaction F)) :
    Option (Dict String (Json F)) :=
  match transaction with
  | none => some (.ofList [("code", .str "NO_DESIRED_REVISION"),
      ("message", .str "No desired revision exists.")])
  | some transaction =>
      transaction.error.map fun (code, message, pending) =>
        .ofList [("code", .str code), ("message", .str message),
          ("pending_participants", .arr (pending.map .str))]

/-- The configuration of a record, or no configuration when it is no mapping. -/
def recordConfig (record : Revisions.Record F) : Dict String (Json F) :=
  record.candidate.dict?.getD .empty

/-- The patch that declares a revision committed. -/
def inSyncPatch (revisionId : String) : Dict String (Json F) :=
  .ofList [("desired_revision_id", .str revisionId), ("committed_revision_id", .str revisionId),
    ("synchronization_state", .str "IN_SYNC")]

/-- The attempt of `synchronize`: reconcile the desired revision, or apply a new one. The revision,
the transaction and the configuration to save are returned. -/
def attemptSynchronization (desired : String) (pending : Bool) :
    Prog host (String × Option (Synchronization.Transaction F) × Dict String (Json F)) := do
  if pending then
    let transaction ← reconcileRevision env host desired
    let record ← readRevision env desired
    return (desired, transaction, recordConfig record)
  else
    let config ← ensureConfiguration env
    let record ← createRevision env host config
    let transaction ← applyRevision env host record true
    return (record.revisionId, some transaction, config)

/-- Whether the desired revision has still to be brought in sync. -/
def desiredPending (desired : String) : Silent F Bool := do
  if desired = "" then return false
  else return !(← revisionStatus env (some desired)).inSync

/-- `synchronize`. -/
def synchronize (reason : String) : Prog host (Outcome F) := do
  let command ← createCommand env host "synchronize" (.ofList [("reason", .str reason)])
    "orchestrator"
  let desired := (((← .look).revisions.desired).map (·.revisionId)).getD ""
  let pending ← desiredPending env desired
  let (revisionId, transaction, config) ← attemptSynchronization env host desired pending
  if transaction.any (·.committable) then
    let _ ← commitRevision env host revisionId
    -- an empty configuration is not saved
    onlyIf (!config.entries.isEmpty) (saveConfigFile env config)
    let _ ← revisionStatus env (some revisionId)
    let _ ← update env host (inSyncPatch revisionId) "RUNTIME_REVISION_COMMITTED" "orchestrator"
    acknowledgeCommand env host command "COMPLETED" (.obj [("revision_id", .str revisionId)]) .null
    return { ok := true }
  else
    let _ ← revisionStatus env (some revisionId)
    let error := transactionError transaction
    let partly := transaction.any fun t => !t.pending.isEmpty
    acknowledgeCommand env host command (if partly then "PARTIALLY_APPLIED" else "FAILED") .null
      ((error.map Json.ofDict).getD .null)
    return { ok := false, error }

/-- `reconcile`. -/
def reconcile (revisionId : String) : Prog host (Outcome F) := do
  let transaction ← reconcileRevision env host revisionId
  let rid := (transaction.map (·.revisionId)).getD ""
  if transaction.any (·.committable) ∧ rid ≠ "" then
    let record ← readRevision env rid
    let _ ← commitRevision env host rid
    let config := recordConfig record
    onlyIf (!config.entries.isEmpty) (saveConfigFile env config)
    let _ ← update env host (inSyncPatch rid) "RUNTIME_REVISION_RECONCILED" "orchestrator"
    let _ ← revisionStatus env (some rid)
    return { ok := true }
  else
    let _ ← revisionStatus env (if rid = "" then none else some rid)
    return { ok := false, error := transactionError transaction }

/-! ## Mission control -/

/-- The patch that `save_config` writes for a draft. -/
def savedPatch (config : Dict String (Json F)) (record : Revisions.Record F) (sync : Bool) :
    Option (Dict String (Json F)) := do
  let experimentId ← ((← (← config.get? "experiment").dict?).get? "id")
  let topology ← config.get? "topology"
  return .ofList
    [("experiment_id", experimentId),
      ("config_hash", .str (Experiment.configurationHash host.digest (.ofDict config))),
      ("topology", topology), ("desired_revision_id", .str record.revisionId),
      ("synchronization_state", .str (if sync then "PENDING_RUNTIME_APPLY" else "DRAFT_SAVED"))]

/-- The patch that `save_config` writes for a revision that is committed at once. -/
def committedPatch (revisionId : String) : Dict String (Json F) :=
  .ofList [("committed_revision_id", .str revisionId), ("synchronization_state", .str "IN_SYNC")]

/-- What `save_config` does to apply a draft. Where a participant is not live it stays pending. -/
def applyDraft (record : Revisions.Record F) : Prog host Unit := do
  let observed ← systemDiagnose env
  let ready := observed.readiness
  if ready.rosContainer && ready.sionna && ready.isaacProcess then
    let transaction ← applyRevision env host record true
    if transaction.committable then
      let _ ← commitRevision env host record.revisionId
      let _ ← update env host (committedPatch record.revisionId) "RUNTIME_REVISION_COMMITTED"
        "mission_control"

/-- `save_config`. A configuration that is not valid raises. -/
def saveConfig (value : Dict String (Json F)) (sync : Bool) : Prog host (Outcome F) := do
  let config ← validated env value
  saveConfigFile env config
  let record ← createRevision env host config
  let patch ← orRaise env (savedPatch host config record sync)
  let _ ← update env host patch "CONFIGURATION_SAVED" "mission_control"
  onlyIf sync (applyDraft env host record)
  let _ ← revisionStatus env (some record.revisionId)
  let _ ← readRevision env record.revisionId
  return { ok := true }

/-- An error of the job of an experiment. -/
def experimentError (code message : String) (details : Json F) (recommendation : String) :
    Dict String (Json F) :=
  .ofList [("code", .str code), ("message", .str message), ("details", details),
    ("recommendation", .str recommendation)]

/-- End the job of an experiment with an error. -/
def failExperiment (command : Dict String (Json F)) (degraded : Bool)
    (error : Dict String (Json F)) : Prog host (Outcome F) := do
  onlyIf degraded (writePhase env host "DEGRADED" (some error))
  acknowledgeCommand env host command "FAILED" .null (.ofDict error)
  return { ok := false, error := some error }

/-- `_start_experiment_job`. -/
def startExperiment : Prog host (Outcome F) := do
  let command ← createCommand env host "start_experiment" .empty "mission_control"
  let config ← loadConfig env
  let now ← ask env (·.clock)
  let later ← ask env (·.clock)
  let report ← orRaise env (Experiment.validateExperiment now later config)
  if !report.ok then
    failExperiment env host command false (.ofList [("code", .str "CONFIG_INVALID"),
      ("message", .str "Experiment validation failed."),
      ("details", .arr (report.errors.map fun issue => .str issue.code))])
  else
    let observed ← systemDiagnose env
    if !observed.readiness.packetRuntime then
      failExperiment env host command false (experimentError "PACKET_RUNTIME_NOT_READY"
        ("The experiment cannot enter RUNNING because the authoritative packet runtime is not " ++
          "ready.") (.ofDict observed.readiness.asDict)
        "Start the complete stack and run Packet Doctor before starting the experiment.")
    else
      startRun env host config
      let _ ← orRaise env (Experiment.emitLegacyConfig now later config)
      let ros ← request env (·.publish)
      if !((ros.get? "ok").getD .null).truthy then
        failExperiment env host command true (experimentError "ROS_CONFIGURATION_NOT_ACKNOWLEDGED"
          "The experiment configuration was not acknowledged by the ROS 2 transport." (.ofDict ros)
          "Inspect the ROS container, graph, and packet runtime before retrying.")
      else
        let sync ← synchronize env host "experiment_started"
        if !sync.ok then
          failExperiment env host command true (sync.error.getD (.ofList
            [("code", .str "ISAAC_SYNC_FAILED"),
              ("message", .str "Isaac did not acknowledge the experiment revision.")]))
        else
          -- `update` has no parameter `command_id`, so the call that enters RUNNING raises
          request env fun env n => .error (.raised (env.exceptionText n))

/-! ## Runs -/

/-- An operation on the stack. -/
inductive Operation (F : Type)
  | startStack (build : Option Bool)
  | stopStack
  | restartStack (build : Option Bool)
  | synchronize (reason : String)
  | reconcile (revisionId : String)
  | saveConfig (value : Dict String (Json F)) (sync : Bool)
  | startExperiment

/-- The program of an operation. -/
def Operation.program : Operation F → Prog host (Outcome F)
  | .startStack build => Orchestrator.startStack env host build
  | .stopStack => Orchestrator.stopStack env host
  | .restartStack build => Orchestrator.restartStack env host build
  | .synchronize reason => Orchestrator.synchronize env host reason
  | .reconcile revisionId => Orchestrator.reconcile env host revisionId
  | .saveConfig value sync => Orchestrator.saveConfig env host value sync
  | .startExperiment => Orchestrator.startExperiment env host

/-- The world after an operation, whether it returns or raises. -/
def perform (world : World F) (step : Operation F × Environment F) : World F :=
  Program.final (step.1.program step.2 host).run world

end Netlab.Orchestrator
