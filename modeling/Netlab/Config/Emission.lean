import Netlab.Config.Report
import Netlab.Prelude.Traverse

/-!
# The legacy document

`emit_legacy_config` as a whole: the flat document that the ROS and Isaac adapters read, with the
versioned document under `v6` and `v5`. The emission subscripts objects, converts numbers and
measures lists without looking first, so it raises on a document that does not have what it reads.
What that is beyond what the migration and the validator provide is listed in another module, which
also says that the list is complete (`isSome_emitDocument`).
-/

namespace Json

variable {F : Type}

/-- `value[i]` for an index that is not negative; the keys of an object are strings. -/
def item? (i : ℕ) : Json F → Option (Json F)
  | arr items => items[i]?
  | str s => s.toList[i]?.map fun c => str c.toString
  | _ => none

/-- The value as an operand next to a float. A string is not converted. -/
def operand? [PyText F] [PyFloat F] : Json F → Option F
  | str _ => none
  | value => value.toFloat?

end Json

namespace Netlab.Experiment

variable {F : Type}

/-- `config[key]` where the result is subscripted in turn. -/
def object? (config : Dict String (Json F)) (key : String) : Option (Dict String (Json F)) :=
  (config.get? key).bind Json.dict?

/-- One entry of a dictionary display, whose value may raise. -/
def entry? (field : String × Option (Json F)) : Option (String × Json F) :=
  field.2.map (Prod.mk field.1)

/-- A dictionary display: it raises when one of the values does. -/
def collect (fields : List (String × Option (Json F))) : Option (Dict String (Json F)) :=
  (fields.mapM entry?).map Dict.ofList

/-- A dictionary display succeeds when all of its values do. -/
theorem isSome_collect {fields : List (String × Option (Json F))} :
    (collect fields).isSome = true ↔ ∀ field ∈ fields, field.2.isSome = true := by
  rw [collect, Option.isSome_map, Option.isSome_iff_exists, List.exists_mapM_eq_some_iff]
  refine forall₂_congr fun field _ => ?_
  rw [← Option.isSome_iff_exists, entry?, Option.isSome_map]

/-- What a dictionary display stores under a key. -/
theorem get?_collect {fields : List (String × Option (Json F))} {d : Dict String (Json F)}
    (h : collect fields = some d) (hnodup : (fields.map Prod.fst).Nodup) {key : String}
    {value : Option (Json F)} (hmem : (key, value) ∈ fields) : d.get? key = value := by
  obtain ⟨entries, hentries, rfl⟩ := Option.map_eq_some_iff.mp h
  have hall := List.mapM_eq_some_iff_forall₂.mp hentries
  have hkeys : entries.map Prod.fst = fields.map Prod.fst := by
    clear h hentries hmem hnodup
    induction hall with
    | nil => rfl
    | cons hfield _ ih =>
        obtain ⟨value, -, rfl⟩ := Option.map_eq_some_iff.mp hfield
        rw [List.map_cons, List.map_cons, ih]
  obtain ⟨v, rfl⟩ := Option.isSome_iff_exists.mp
    (isSome_collect.mp (Option.isSome_iff_exists.mpr ⟨_, h⟩) _ hmem)
  have hmem' : (key, v) ∈ entries := (List.mem_mapM_iff hentries).mpr ⟨_, hmem, rfl⟩
  exact Dict.get?_ofList_of_mem (hkeys ▸ hnodup) hmem'

/-- A dictionary display has the keys that it lists. -/
theorem mem_keys_collect {fields : List (String × Option (Json F))} {d : Dict String (Json F)}
    (h : collect fields = some d) {key : String} (hkey : key ∈ d.keys) :
    key ∈ fields.map Prod.fst := by
  obtain ⟨entries, hentries, rfl⟩ := Option.map_eq_some_iff.mp h
  obtain ⟨value, hvalue⟩ := Dict.mem_keys_iff.mp hkey
  have hmem := Dict.mem_of_get?_ofList hvalue
  obtain ⟨field, hfield, hentry⟩ := (List.mem_mapM_iff hentries).mp hmem
  obtain ⟨_, -, heq⟩ := Option.map_eq_some_iff.mp hentry
  exact List.mem_map.mpr ⟨field, hfield, congrArg Prod.fst heq⟩

variable [PyText F] [PyBuiltins F]

/-- The entity that an antenna is attached to: the first that is assigned its identifier. -/
def attachedTo (assignments : Dict String (Json F)) (id : Json F) : String :=
  match assignments.entries.find? fun e => e.2.eq id with
  | some e => e.1
  | none => "world"

/-- The definition of an antenna, by its identifier; an unknown one has an empty definition. -/
def findDefinition (antenna : Json F) : List (Json F) → Option (Dict String (Json F))
  | [] => some .empty
  | item :: rest => do
      let definition ← item.dict?
      if (definition.getD "id" .null).eq antenna then return definition
      else findDefinition antenna rest

/-- The antenna of a drone record: the one that its identifier is assigned, which has to be a key,
or else the one that the record names. -/
def droneAntenna (assignments record : Dict String (Json F)) (id : Json F) : Json F :=
  let named := record.getD "antenna_id" (.str "uav_omni_reference")
  match id with
  | .str s => assignments.getD s named
  | _ => named

/-- The legacy record of a drone. -/
def emittedDrone (assignments : Dict String (Json F)) (definitions : List (Json F))
    (item : Json F) : Option (Dict String (Json F)) := do
  let record ← item.dict?
  -- the id is used as a key of the assignments
  let id ← (record.get? "id").filter Json.isHashable
  let antenna := droneAntenna assignments record id
  let definition ← findDefinition antenna definitions
  collect [
    ("id", some id),
    ("index", record.get? "index"),
    ("position", (record.get? "position").bind fun value => value.elements?.map .arr),
    ("role", some (record.getD "role" (.str "relay"))),
    ("active", some (.bool (record.getBool "active" true))),
    ("failed", some (.bool (record.getBool "failed" false))),
    ("battery_pct", some (record.getD "battery_soc_pct" (.float 100.0))),
    ("antenna_name", some antenna),
    ("antenna_gain_dbi", some (definition.getD "gain_dbi" (.float 0.0)))]

/-- An angle of an antenna: the entry of its rotation, when the rotation has three. -/
def rotationAngle (definition : Dict String (Json F)) (i : ℕ) : Option (Json F) := do
  let rotation := definition.getD "rotation_rpy_deg" (.arr [])
  if (← rotation.length?) = 3 then rotation.item? i else some (.float 0.0)

/-- The legacy record of an antenna definition. -/
def emittedAntenna (comm assignments : Dict String (Json F)) (item : Json F) :
    Option (Dict String (Json F)) := do
  let definition ← item.dict?
  let id := definition.getD "id" .null
  let zero : Json F := vec 0.0 0.0 0.0
  collect [
    ("id", some id),
    ("name", some (definition.getD "name" .null)),
    ("enabled", some (.bool true)),
    ("role", some (definition.getD "model" (.str "custom"))),
    ("attached_to", some (.str (attachedTo assignments id))),
    ("position", some (definition.getD "position_offset_m" zero)),
    ("rotation_xyz", some (definition.getD "rotation_rpy_deg" zero)),
    ("gain_dbi", some (definition.getD "gain_dbi" (.float 0.0))),
    ("azimuth_deg", rotationAngle definition 2),
    ("elevation_deg", rotationAngle definition 1),
    ("beamwidth_deg", some (definition.getD "beamwidth_azimuth_deg" (.float 360.0))),
    ("frequency_hz",
      (comm.get? "carrier_frequency_hz").map (definition.getD "center_frequency_hz")),
    ("bandwidth_hz", (comm.get? "bandwidth_hz").map (definition.getD "bandwidth_hz")),
    ("tx_power_dbm", comm.get? "tx_power_dbm"),
    ("polarization", some (definition.getD "polarization" (.str "vertical"))),
    ("technology", some (.str "SNaaS research antenna")),
    ("provenance", some (definition.getD "provenance" (.str "unknown")))]

/-- The indices of the records that are marked as failed. -/
def emittedFailures (records : List (Json F)) : Option (List (Json F)) :=
  ((records.filterMap Json.dict?).filter fun record => record.getBool "failed" false).mapM
    fun record => ((record.get? "index").bind Json.toInt?).map .int

/-- The noise floor of a link. An explicit one takes precedence, but the thermal one is computed
first. An integer beyond the floats, which no valid configuration has, counts as no number. -/
def emittedNoiseFloor (comm : Dict String (Json F)) : Option (Json F) := do
  let bandwidth ← (← comm.get? "bandwidth_hz").operand?
  let figure ← (← comm.get? "receiver_noise_figure_db").operand?
  let thermal := -174.0 + 10.0 * (← PyFloat.log10 bandwidth) + figure
  return comm.getD "legacy_noise_floor_dbm" (.float thermal)

/-- The `radio` section of the legacy document. -/
def emittedRadio (comm : Dict String (Json F)) : Option (Dict String (Json F)) :=
  collect [
    ("frequency_hz", comm.get? "carrier_frequency_hz"),
    ("bandwidth_hz", comm.get? "bandwidth_hz"),
    ("tx_power_dbm", comm.get? "tx_power_dbm"),
    ("noise_floor_dbm", emittedNoiseFloor comm),
    ("receiver_noise_figure_db", comm.get? "receiver_noise_figure_db"),
    ("implementation_loss_db", comm.get? "implementation_loss_db"),
    ("min_snr_db", comm.get? "min_snr_db"),
    ("required_capacity_mbps", comm.get? "min_capacity_mbps"),
    ("model", comm.get? "model"),
    ("fidelity", comm.get? "fidelity"),
    ("spectral_efficiency_factor", comm.get? "spectral_efficiency_factor"),
    ("antenna_model", some (.str "versioned_antenna_registry"))]

/-- The `topology` section of the legacy document. -/
def emittedTopology (topology : Dict String (Json F)) : Option (Dict String (Json F)) :=
  collect [
    ("transmission_mode", topology.get? "mode"),
    ("manual_branches", topology.get? "branches"),
    ("forwarding_policy", topology.get? "forwarding_policy"),
    ("queue_model", topology.get? "queue_model"),
    ("routing_policy", topology.get? "routing_policy")]

/-- The payload size of the first flow. -/
def emittedPayloadBytes (traffic : Dict String (Json F)) : Option (Json F) := do
  let flows ← traffic.get? "flows"
  if flows.truthy then (← (← flows.item? 0).dict?).get? "packet_size_bytes"
  else return .int 512

/-- The `message` section of the legacy document. -/
def emittedMessage (traffic : Dict String (Json F)) : Option (Dict String (Json F)) :=
  collect [
    ("payload", some (.str ("SNaaS service request: preserve service continuity, " ++
      "append UAV state, and return acknowledgement."))),
    ("payload_bytes", emittedPayloadBytes traffic)]

/-- The `visual` section of the legacy document. -/
def emittedVisual (visualization swarm comm : Dict String (Json F)) :
    Option (Dict String (Json F)) :=
  collect [
    ("custom_drone_usd", visualization.get? "custom_drone_usd"),
    -- the scale is fixed, whatever the configuration says
    ("drone_scale", some (.float 0.2)),
    ("visual_asset_scale", some (.float 0.2)),
    ("physical_collision_dimensions_m", swarm.get? "physical_collision_dimensions_m"),
    ("show_coverage_area", visualization.get? "show_service_region"),
    ("show_drone_coverage_rings", visualization.get? "show_coverage_preview"),
    ("show_drone_coverage_spheres", some (.bool false)),
    ("drone_coverage_opacity", visualization.get? "coverage_opacity"),
    ("coverage_visual_radius_m", comm.get? "operational_range_m")]

/-- A parameter of the mobility model (`mobility.get("parameters", {}).get(key, default)`). -/
def mobilityParameter (mobility : Dict String (Json F)) (key : String) (default : F) :
    Option (Json F) := do
  let parameters ← (mobility.getD "parameters" (.obj [])).dict?
  floatOf (parameters.getD key (.float default))

/-- The sections of a migrated document that the emission subscripts. -/
structure Sections (F : Type) where
  experiment : Dict String (Json F)
  clock : Dict String (Json F)
  world : Dict String (Json F)
  environment : Dict String (Json F)
  service : Dict String (Json F)
  swarm : Dict String (Json F)
  mobility : Dict String (Json F)
  topology : Dict String (Json F)
  comm : Dict String (Json F)
  antennas : Dict String (Json F)
  traffic : Dict String (Json F)
  failures : Dict String (Json F)
  visualization : Dict String (Json F)

/-- The sections of a document, all of which have to be objects. -/
def sections? (config : Dict String (Json F)) : Option (Sections F) := do
  let world ← object? config "world"
  let swarm ← object? config "swarm"
  return {
    world
    swarm
    experiment := ← object? config "experiment"
    clock := ← object? config "clock"
    environment := ← object? world "environment"
    service := ← object? config "service_region"
    mobility := ← object? swarm "mobility"
    topology := ← object? config "topology"
    comm := ← object? config "communication"
    antennas := ← object? config "antennas"
    traffic := ← object? config "traffic"
    failures := ← object? config "failures"
    visualization := ← object? config "visualization" }

/-- The legacy document of a migrated one. -/
def emitDocument (config : Dict String (Json F)) : Option (Dict String (Json F)) := do
  let s ← sections? config
  let assignments ← (s.antennas.getD "assignments" (.obj [])).dict?
  let definitions ← (s.antennas.getD "definitions" (.arr [])).elements?
  let records ← (← s.swarm.get? "drones").elements?
  let legacyDrones ← records.mapM (emittedDrone assignments definitions)
  let legacyAntennas ← definitions.mapM (emittedAntenna s.comm assignments)
  let assets := s.world.getD "assets" (.arr [])
  collect [
    -- the keys of the flat format, which older readers look for
    ("schema_version", config.get? "schema_version"),
    ("experiment_name", s.experiment.get? "name"),
    ("scenario_id", s.experiment.get? "id"),
    ("seed", s.experiment.get? "seed"),
    ("duration_s", s.experiment.get? "duration_s"),
    ("fidelity_profile", s.experiment.get? "fidelity_profile"),
    ("drone_count", s.swarm.get? "drone_count"),
    ("relay_count", s.swarm.get? "relay_count"),
    ("standby_count", s.swarm.get? "standby_count"),
    ("failed_indices", (emittedFailures records).map .arr),
    ("branch_count", (s.topology.get? "branches").bind fun branches =>
      branches.length?.map fun n => .int n),
    ("transmission_mode", s.topology.get? "mode"),
    ("manual_branches", s.topology.get? "branches"),
    ("topology", (emittedTopology s.topology).map .ofDict),
    ("hop_period_s", s.clock.get? "link_update_period_s"),
    ("failure_detection_s", s.failures.get? "failure_detection_s"),
    ("coverage_radius_m", s.service.get? "length_m"),
    ("coverage_width_m", s.service.get? "width_m"),
    ("altitude_start_m", s.service.get? "min_altitude_m"),
    ("altitude_end_m", s.service.get? "max_altitude_m"),
    ("direction_deg", some (.float 0.0)),
    ("movement_pattern", s.mobility.get? "model"),
    ("movement_amplitude_m", mobilityParameter s.mobility "amplitude_m" 0.0),
    ("movement_speed", mobilityParameter s.mobility "speed_multiplier" 1.0),
    ("visual_follow_alpha", some (.float 0.18)),
    ("wind_speed_mps", s.environment.get? "wind_speed_mps"),
    ("wind_direction_deg", s.environment.get? "wind_direction_deg"),
    ("turbulence_intensity", s.environment.get? "turbulence_intensity"),
    ("standby_activation_radius_m", (s.swarm.get? "minimum_separation_m").bind fun separation =>
      separation.operand?.map fun x => .float (PyFloat.max 5.0 (x * 8.0))),
    ("max_single_hop_range_m", s.comm.get? "operational_range_m"),
    ("hard_outage_range_m", s.comm.get? "hard_outage_distance_m"),
    ("allow_degraded_forwarding", some (.bool false)),
    ("distance_penalty_db_per_m_after_soft_range", some (.float 0.22)),
    ("station", config.get? "station"),
    ("drones", some (.arr (legacyDrones.map .ofDict))),
    ("antennas", some (.arr (legacyAntennas.map .ofDict))),
    ("antenna_count", some (.int legacyAntennas.length)),
    ("worlds", some assets),
    ("world_count", assets.length?.map fun n => .int n),
    ("radio", (emittedRadio s.comm).map .ofDict),
    ("message", (emittedMessage s.traffic).map .ofDict),
    ("traffic", config.get? "traffic"),
    ("environment", s.world.get? "environment"),
    ("energy", s.swarm.get? "energy"),
    ("visual", (emittedVisual s.visualization s.swarm s.comm).map .ofDict),
    -- the document itself, under both names of its envelope
    ("v6", some (.ofDict config)),
    ("v5", some (.ofDict config))]

/-- Emit the legacy document (`emit_legacy_config`). The document is migrated again first. -/
def emitLegacyConfig (now later : F) (config : Dict String (Json F)) :
    Option (Dict String (Json F)) := do
  emitDocument (← migrateLegacyConfig now later config)

end Netlab.Experiment
