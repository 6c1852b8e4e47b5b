import Netlab.Config.Migration
import Netlab.Config.ValidatedEdges

/-!
# The report of the validator

`validate_experiment` as a whole: the document is migrated, and every section is checked. The
sections that the validator reads with `.get` have to be objects, or the validator raises; a report
lists the issues that it found. Warnings are left out: they do not reject a configuration. A report
without issues says that the inventory and the topology are valid (`valid_of_documentErrors`) and what
the other sections hold.
-/

namespace Netlab.Experiment

variable {F : Type} [PyText F] [PyBuiltins F]

/-- A document as a Python program holds it: no object in it lists a key twice. -/
structure Document (F : Type) where
  /-- The members of the document. -/
  members : Dict String (Json F)
  /-- No object in it lists a key twice. -/
  distinct : (Json.ofDict members).distinct = true

/-- `config.get(key, {})` where an object is needed; the absent section is empty. -/
def section? (config : Dict String (Json F)) (key : String) : Option (Dict String (Json F)) :=
  match config.get? key with
  | some value => value.dict?
  | none => some .empty

/-! ## Numbers and vectors -/

/-- The value as a finite number, if it is one (`_finite`). -/
def finite? (value : Json F) : Option F := value.toFloat?.filter PyFloat.isFinite

/-- The issues of a number with bounds, which are also given as they are printed (`_range`). -/
def rangeIssues (path : String) (value : Json F) (lo hi : F) (loText hiText : String) :
    List ConfigIssue :=
  match finite? value with
  | none => [⟨path, "NON_NUMERIC", "Expected a finite number."⟩]
  | some number =>
      issueIf (PyFloat.lt number lo ∨ PyFloat.lt hi number) path "OUT_OF_RANGE"
        s!"Expected {loText} <= value <= {hiText}."

/-- The number that a check goes on with: the lower bound in place of what is no number. -/
def rangeValue (value : Json F) (lo : F) : F := (finite? value).getD lo

/-- The issues of a vector (`_vec3`). -/
def vecIssues (path : String) : Json F → List ConfigIssue
  | .arr [x, y, z] =>
      ([x, y, z].mapIdx fun i item =>
        issueIf (finite? item).isNone s!"{path}[{i}]" "NON_FINITE" "Value must be finite.").flatten
  | _ => [⟨path, "VECTOR_LENGTH", "Expected a three-element numeric vector."⟩]

/-! ## Sections -/

/-- The issues of the schema version. -/
def schemaIssues (config : Dict String (Json F)) : List ConfigIssue :=
  issueIf ((config.getD "schema_version" .null).isStr schemaVersion = false) "schema_version"
    "SCHEMA_VERSION" s!"Expected {schemaVersion}."

/-- The issues of the `experiment` section. -/
def headerIssues (experiment : Dict String (Json F)) : List ConfigIssue :=
  issueIf (PyText.strip F (experiment.getText "id" "") = "") "experiment.id" "REQUIRED"
      "Experiment ID is required." ++
    rangeIssues "experiment.duration_s" (experiment.getD "duration_s" (.int 0)) 0.1 864000.0
      "0.1" "864000.0" ++
    issueIf (experiment.getD "seed" .null).toInt?.isNone "experiment.seed" "INTEGER"
      "Deterministic seed must be an integer."

/-- The coordinate frames (`SUPPORTED_COORDINATE_FRAMES`), sorted. -/
def coordinateFrames : List String := ["ECEF", "ENU", "ISAAC_STAGE", "NED", "WGS84"]

/-- The propagation models (`SUPPORTED_PROPAGATION_MODELS`), sorted. -/
def propagationModels : List String :=
  ["free_space", "log_distance", "plugin", "probabilistic_air_to_ground", "sionna_analytical",
    "sionna_rt", "stochastic_shadowing", "trace_replay"]

/-- The traffic models (`SUPPORTED_TRAFFIC_MODELS`), sorted. -/
def trafficModels : List String :=
  ["bursty_on_off", "constant_bit_rate", "constant_packet_rate", "deadline_sensitive", "on_off",
    "plugin", "poisson", "trace_replay"]

/-- A list of names as Python prints it. -/
def nameList (names : List String) : String :=
  "[" ++ ", ".intercalate (names.map fun name => s!"'{name}'") ++ "]"

/-- The issues of the `world` section. -/
def worldIssues (world : Dict String (Json F)) : List ConfigIssue :=
  issueIf (PyBuiltins.upper F (world.getText "coordinate_frame" "ENU") ∉ coordinateFrames)
      "world.coordinate_frame" "UNSUPPORTED_FRAME"
      s!"Supported frames: {nameList coordinateFrames}." ++
    vecIssues "world.origin" (world.getD "origin" (.arr []))

/-- The issues of the position in the drone record at position `i`. -/
def positionIssues (i : ℕ) (record : Dict String (Json F)) : List ConfigIssue :=
  vecIssues s!"swarm.drones[{i}].position" (record.getD "position" (.arr []))

/-- The issues of the `swarm` section. -/
def swarmIssues (swarm : Dict String (Json F)) : List ConfigIssue :=
  countIssues swarm ++
    rangeIssues "swarm.visual_asset_scale" (swarm.getD "visual_asset_scale" (.float 0.2))
      0.01 10.0 "0.01" "10.0" ++
    rangeIssues "swarm.minimum_separation_m" (swarm.getD "minimum_separation_m" (.int 0))
      0.1 1000.0 "0.1" "1000.0" ++
    issueIf (inventorySized swarm = false) "swarm.drones" "INVENTORY_SIZE"
      s!"Expected exactly {(swarmCounts swarm).total} drone records." ++
    recordIssues positionIssues 0 [] (droneRecords swarm)

/-- The issues of the `communication` section, next to a world. -/
def communicationIssues (comm world : Dict String (Json F)) : List ConfigIssue :=
  let model := comm.getText "model" "free_space"
  let operational := comm.getD "operational_range_m" (.int 0)
  let hard := comm.getD "hard_outage_distance_m" (.int 0)
  issueIf (model ∉ propagationModels) "communication.model" "UNSUPPORTED_MODEL"
      s!"Supported models: {nameList propagationModels}." ++
    rangeIssues "communication.carrier_frequency_hz" (comm.getD "carrier_frequency_hz" (.int 0))
      1e6 3e11 "1000000.0" "300000000000.0" ++
    rangeIssues "communication.bandwidth_hz" (comm.getD "bandwidth_hz" (.int 0))
      1.0 1e10 "1.0" "10000000000.0" ++
    rangeIssues "communication.operational_range_m" operational 0.1 1e7 "0.1" "10000000.0" ++
    rangeIssues "communication.hard_outage_distance_m" hard 0.1 1e8 "0.1" "100000000.0" ++
    -- what is no number is compared as the lower bound
    issueIf (PyFloat.lt (rangeValue hard 0.1) (rangeValue operational 0.1))
      "communication.hard_outage_distance_m" "THRESHOLD_ORDER"
      "Hard-outage distance must be greater than or equal to operational range." ++
    issueIf (model = "sionna_rt" ∧ (world.getD "assets" .null).truthy = false) "world.assets"
      "RAY_TRACING_WORLD_REQUIRED"
      "Sionna RT requires geometry and electromagnetic material mappings."

/-- `ant.get(key, default) if isinstance(ant, Mapping) else default` of a section. -/
def member (config : Dict String (Json F)) (key field : String) (default : Json F) : Json F :=
  (((config.get? key).bind Json.dict?).map fun d => d.getD field default).getD default

/-- The antenna definitions of a document; anything but a list has none. -/
def antennaDefinitions (config : Dict String (Json F)) : List (Json F) :=
  match member config "antennas" "definitions" (.arr []) with
  | .arr items => items
  | _ => []

/-- The identifiers of all antenna definitions that are objects. -/
def antennaIds (config : Dict String (Json F)) : List String :=
  (antennaDefinitions config).filterMap fun item => item.dict?.map fun d => d.getText "id" ""

/-- The issues of the antenna definitions from position `i` on, after the given identifiers. -/
def definitionIssues (i : ℕ) (ids : List String) : List (Json F) → List ConfigIssue
  | [] => []
  | item :: rest =>
      match item.dict? with
      | none =>
          ⟨s!"antennas.definitions[{i}]", "OBJECT", "Antenna definition must be an object."⟩ ::
            definitionIssues (i + 1) ids rest
      | some definition =>
          let id := definition.getText "id" ""
          -- one issue for a missing and for a repeated id
          issueIf (id = "" ∨ id ∈ ids) s!"antennas.definitions[{i}].id" "DUPLICATE_OR_MISSING"
              "Antenna IDs must be unique and non-empty." ++
            rangeIssues s!"antennas.definitions[{i}].gain_dbi"
              (definition.getD "gain_dbi" (.int 0)) (-100.0) 100.0 "-100.0" "100.0" ++
            definitionIssues (i + 1) (id :: ids) rest

/-- The issues of the antenna assignments. -/
def assignmentIssues (config : Dict String (Json F)) : List ConfigIssue :=
  match (member config "antennas" "assignments" (.obj [])).dict? with
  | none => [⟨"antennas.assignments", "OBJECT", "Antenna assignments must be an object."⟩]
  | some assignments =>
      assignments.entries.flatMap fun e =>
        issueIf (e.2.toText ∉ antennaIds config) s!"antennas.assignments.{e.1}" "UNKNOWN_ANTENNA"
          s!"Unknown antenna {e.2.toText}."

/-- The issues of the `antennas` section. -/
def antennaIssues (config : Dict String (Json F)) : List ConfigIssue :=
  (match member config "antennas" "definitions" (.arr []) with
    | .arr _ => []
    | _ => [⟨"antennas.definitions", "ARRAY", "Antenna definitions must be an array."⟩]) ++
    definitionIssues 0 [] (antennaDefinitions config) ++ assignmentIssues config

/-- The issues of the traffic flows from position `i` on, after the given identifiers. -/
def flowIssues (i : ℕ) (ids : List String) : List (Json F) → List ConfigIssue
  | [] => []
  | item :: rest =>
      match item.dict? with
      | none =>
          ⟨s!"traffic.flows[{i}]", "OBJECT", "Flow must be an object."⟩ ::
            flowIssues (i + 1) ids rest
      | some flow =>
          let id := flow.getText "id" ""
          issueIf (id = "" ∨ id ∈ ids) s!"traffic.flows[{i}].id" "DUPLICATE_OR_MISSING"
              "Flow IDs must be unique and non-empty." ++
            issueIf (flow.getText "generation_model" "" ∉ trafficModels)
              s!"traffic.flows[{i}].generation_model" "UNSUPPORTED_MODEL"
              s!"Supported traffic models: {nameList trafficModels}." ++
            rangeIssues s!"traffic.flows[{i}].packet_size_bytes"
              (flow.getD "packet_size_bytes" (.int 0)) 1.0 10000000.0 "1" "10000000" ++
            rangeIssues s!"traffic.flows[{i}].packet_rate_pps"
              (flow.getD "packet_rate_pps" (.int 0)) 0.0 1000000.0 "0" "1000000" ++
            flowIssues (i + 1) (id :: ids) rest

/-- The issues of the `traffic` section. -/
def trafficIssues (config : Dict String (Json F)) : List ConfigIssue :=
  match member config "traffic" "flows" (.arr []) with
  | .arr (flow :: flows) => flowIssues 0 [] (flow :: flows)
  | _ => [⟨"traffic.flows", "REQUIRED", "At least one traffic flow is required."⟩]

/-! ## The report -/

/-- What the validator returns. -/
structure Report (F : Type) where
  /-- The migrated document. -/
  config : Dict String (Json F)
  /-- The issues that were found. -/
  errors : List ConfigIssue

/-- The validator found nothing. -/
def Report.ok (report : Report F) : Bool := report.errors.isEmpty

/-- The issues of a migrated document. -/
def documentErrors (config : Dict String (Json F)) : Option (List ConfigIssue) := do
  let experiment ← section? config "experiment"
  let world ← section? config "world"
  let swarm ← section? config "swarm"
  let topology ← section? config "topology"
  let comm ← section? config "communication"
  return schemaIssues config ++ headerIssues experiment ++ worldIssues world ++
    swarmIssues swarm ++ topologyIssues ⟨swarm, topology⟩ ++ communicationIssues comm world ++
    antennaIssues config ++ trafficIssues config

/-- A document without issues has a valid inventory and a valid topology. -/
theorem valid_of_documentErrors {config swarm topology : Dict String (Json F)}
    (h : documentErrors config = some []) (hswarm : section? config "swarm" = some swarm)
    (htopology : section? config "topology" = some topology) :
    ExperimentConfig.Valid ⟨swarm, topology⟩ := by
  simp only [documentErrors, hswarm, htopology, bind, pure, Option.bind_eq_some_iff,
    Option.some.injEq, List.append_eq_nil_iff, exists_eq_left'] at h
  obtain ⟨-, -, -, -, -, -, ⟨⟨⟨⟨-, hissues⟩, hedges⟩, -⟩, -⟩, -⟩ := h
  simp only [swarmIssues, List.append_eq_nil_iff] at hissues
  obtain ⟨⟨⟨⟨hcounts, -⟩, -⟩, hsized⟩, hrecords⟩ := hissues
  refine ⟨?_, hedges⟩
  rw [inventoryIssues, hcounts, hsized, recordIssues_identifiers hrecords]
  rfl

/-- Validate a document and report (`validate_experiment` with `strict=False`). -/
def validateExperiment (now later : F) (config : Dict String (Json F)) : Option (Report F) := do
  let config ← migrateLegacyConfig now later config
  let errors ← documentErrors config
  return ⟨config, errors⟩

/-- Validate a document and raise unless there is no issue (`validate_experiment`); what remains of
the report is the migrated document. -/
def validateStrict (now later : F) (config : Dict String (Json F)) :
    Option (Dict String (Json F)) := do
  let report ← validateExperiment now later config
  if report.ok then some report.config else none

end Netlab.Experiment
