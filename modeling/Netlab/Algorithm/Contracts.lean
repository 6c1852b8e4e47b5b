import Netlab.Prelude.Comprehension
import Netlab.Config.Emission

/-!
# Algorithm actions

The contract of a researcher's action (`netlab/algorithm_contracts.py`): its fields, what `validate`
has against it, and how a map from entities to vectors is read.
-/

namespace Netlab

variable {F : Type}

/-- An action that an algorithm proposes. -/
structure AlgorithmAction (F : Type) where
  algorithmId : String
  algorithmVersion : String
  sourceRevisionId : String
  timestampS : F
  validityHorizonS : F
  coordinateFrame : String
  units : Dict String (Json F)
  payload : Dict String (Json F)
  confidence : Option F := none
  uncertainty : Dict String (Json F) := .empty
  objectiveValue : Option F := none
  constraintResiduals : Dict String F := .empty
  computationDurationS : F
  terminationReason : String := "completed"
  fallback : Bool := false
  explanation : Dict String (Json F) := .empty

/-- What an action takes from the manifest of its algorithm. -/
structure AlgorithmManifest (F : Type) where
  algorithmId : String
  version : String
  /-- The time budget of a call. -/
  timeoutS : F

/-- The fields that the payload of an action can have (`ACTION_FIELDS`). -/
def actionFields : List String :=
  ["desired_positions", "desired_velocities", "desired_accelerations", "desired_jerks",
    "desired_yaws_deg", "desired_trajectories", "formation_targets", "topology_candidate",
    "route_candidate", "branch_candidates", "user_association", "traffic_schedule",
    "standby_selection", "recovery_action", "antenna_commands", "transmit_power_commands_dbm",
    "channel_allocation", "metrics", "optimization_result"]

/-- The coordinate frames of an action. -/
def actionFrames : List String := ["ENU", "NED", "ECEF", "WGS84", "ISAAC_STAGE"]

/-- Whether a text is a lower case letter with two to sixty-three lower case letters, digits and
underscores after it (`ALGORITHM_ID_PATTERN`). -/
def isAlgorithmId (s : String) : Bool :=
  match s.toList with
  | [] => false
  | first :: rest =>
      ('a' ≤ first && first ≤ 'z') &&
        rest.all (fun c => ('a' ≤ c && c ≤ 'z') || ('0' ≤ c && c ≤ '9') || c = '_') &&
        (2 ≤ rest.length && rest.length ≤ 63)

/-- Python's `str` of a list of strings. -/
def stringListText (F : Type) [PyText F] (names : List String) : String :=
  (Json.arr (names.map .str) : Json F).repr

/-- The error when a check fails. -/
def errorIf (failed : Bool) (message : String) : List String := if failed then [message] else []

@[simp] theorem errorIf_eq_nil {failed : Bool} {message : String} :
    errorIf failed message = [] ↔ failed = false := by
  cases failed <;> simp [errorIf]

namespace AlgorithmAction

variable [PyText F] [PyFloat F]

/-- Whether an action is older than it says that it holds, at the time `now`. -/
def isStale (action : AlgorithmAction F) (now : F) : Bool :=
  PyFloat.lt action.validityHorizonS (now - action.timestampS)

/-- The fields of the payload that no action has, sorted. -/
def unknownFields (action : AlgorithmAction F) : List String :=
  (action.payload.keys.filter (· ∉ actionFields)).insertionSort (· ≤ ·)

/-- What `validate` has against an action at the time `now`. -/
def validate (action : AlgorithmAction F) (now : F) : List String :=
  errorIf (!isAlgorithmId action.algorithmId) "algorithm_id is invalid." ++
    errorIf (action.sourceRevisionId = "") "source_revision_id is required." ++
    errorIf (action.coordinateFrame ∉ actionFrames) "coordinate_frame is unsupported." ++
    errorIf (PyFloat.le action.validityHorizonS 0.0) "validity_horizon_s must be positive." ++
    -- the one check that depends on the clock
    errorIf (action.isStale now) "algorithm action is stale." ++
    errorIf (action.unknownFields ≠ [])
      s!"unsupported action payload fields: {stringListText F action.unknownFields}." ++
    errorIf (action.confidence.any fun confidence =>
        !(PyFloat.le 0.0 confidence && PyFloat.le confidence 1.0))
      "confidence must be within [0, 1]." ++
    action.constraintResiduals.entries.flatMap fun residual =>
      errorIf (!PyFloat.isFinite residual.2) s!"constraint residual {residual.1} is not finite."

/-- The units of an action that names none. -/
def defaultUnits : Json F :=
  .obj [("position", .str "m"), ("velocity", .str "m/s"), ("acceleration", .str "m/s^2"),
    ("jerk", .str "m/s^3")]

/-- The payload of an algorithm's result: the one it names, or else the result's own action
fields. -/
def payloadOf (value : Dict String (Json F)) : Dict String (Json F) :=
  ((value.get? "payload").bind Json.dict?).getD
    (.ofList (actionFields.filterMap fun key => (value.get? key).map (Prod.mk key)))

/-- Read the residuals of the constraints. -/
def residualsOf (value : Dict String (Json F)) : Option (Dict String F) := do
  (← (value.getD "constraint_residuals" (.obj [])).toDict?).traverse fun _ residual =>
    residual.toFloat?

/-- `float(value[key]) if value.get(key) is not None else None`. -/
def optionalFloat (value : Dict String (Json F)) (key : String) : Option (Option F) :=
  match value.getD key .null with
  | .null => some none
  | number => number.toFloat?.map some

/-- `from_mapping` at the time `now`. -/
def fromMapping (manifest : AlgorithmManifest F) (sourceRevisionId : String) (durationS now : F)
    (value : Dict String (Json F)) : Option (AlgorithmAction F) := do
  return {
    -- what the algorithm leaves out is taken from its manifest and its call
    algorithmId := value.getText "algorithm_id" manifest.algorithmId
    algorithmVersion := value.getText "algorithm_version" manifest.version
    sourceRevisionId := value.getText "source_revision_id" sourceRevisionId
    timestampS := ← value.getFloat "timestamp_s" now
    validityHorizonS :=
      ← value.getFloat "validity_horizon_s" (PyFloat.max 0.01 (manifest.timeoutS * 4.0))
    coordinateFrame := value.getText "coordinate_frame" "ENU"
    units := ← (value.getD "units" defaultUnits).toDict?
    payload := payloadOf value
    confidence := ← optionalFloat value "confidence"
    uncertainty := Experiment.mappingOrEmpty value "uncertainty"
    objectiveValue := ← optionalFloat value "objective_value"
    constraintResiduals := ← residualsOf value
    computationDurationS := ← value.getFloat "computation_duration_s" durationS
    terminationReason := value.getText "termination_reason" "completed"
    fallback := value.getBool "fallback" false
    explanation := Experiment.mappingOrEmpty value "explanation" }

/-- `to_dict`. -/
def toDict (action : AlgorithmAction F) : Json F :=
  let optional (value : Option F) : Json F := (value.map .float).getD .null
  .obj [("algorithm_id", .str action.algorithmId), ("algorithm_version", .str action.algorithmVersion),
    ("source_revision_id", .str action.sourceRevisionId), ("timestamp_s", .float action.timestampS),
    ("validity_horizon_s", .float action.validityHorizonS),
    ("coordinate_frame", .str action.coordinateFrame), ("units", .ofDict action.units),
    ("payload", .ofDict action.payload), ("confidence", optional action.confidence),
    ("uncertainty", .ofDict action.uncertainty),
    ("objective_value", optional action.objectiveValue),
    ("constraint_residuals",
      .obj (action.constraintResiduals.entries.map fun e => (e.1, .float e.2))),
    ("computation_duration_s", .float action.computationDurationS),
    ("termination_reason", .str action.terminationReason), ("fallback", .bool action.fallback),
    ("explanation", .ofDict action.explanation), ("schema_version", .str "2.0")]

end AlgorithmAction

/-! ## Maps from entities to vectors -/

variable [PyText F] [PyFloat F]

/-- Read the items of a map one after the other into `normalized`. The outcome is an
`AlgorithmContractError` with its message, or the map; another exception is `none`. -/
def normalizeVec3Items (fieldName : String) (normalized : Dict String (Vec3 F)) :
    List (String × Json F) → Option (Except String (Dict String (Vec3 F)))
  | [] => some (.ok normalized)
  | (entityId, .arr [x, y, z]) :: rest => do
      let x ← x.toFloat?
      let y ← y.toFloat?
      let z ← z.toFloat?
      if PyFloat.isFinite x && PyFloat.isFinite y && PyFloat.isFinite z then
        normalizeVec3Items fieldName (normalized.set entityId ⟨x, y, z⟩) rest
      else some (.error s!"{fieldName}.{entityId} contains a non-finite value.")
  -- the first error ends the loop
  | (entityId, _) :: _ =>
      some (.error s!"{fieldName}.{entityId} must contain three numeric values.")

/-- `normalize_vec3_map`. -/
def normalizeVec3Map (fieldName : String) (value : Json F) :
    Option (Except String (Dict String (Vec3 F))) :=
  match value.dict? with
  | some items => normalizeVec3Items fieldName .empty items.entries
  | none => some (.error s!"{fieldName} must be an object keyed by entity ID.")

end Netlab
