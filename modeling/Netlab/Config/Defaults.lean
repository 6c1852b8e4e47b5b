import Netlab.Prelude.Builtins
import Netlab.Prelude.Merge
import Netlab.Topology.Edges

/-!
# The default experiment

`default_experiment` and the drone records it lists. The sections are the source's own; the stamps
of the `experiment` section are the clock at the time of the call, so two calls give documents of
one shape that differ in these stamps only (`sameShape_defaultExperiment`).
-/

namespace Netlab.Experiment

variable {F : Type} [PyBuiltins F]

/-- `SCHEMA_VERSION`. -/
def schemaVersion : String := "2.0.0"

/-- A vector of three numbers. -/
def vec (x y z : F) : Json F := .arr [.float x, .float y, .float z]

/-- A drone record before it is changed (`_drone`). -/
def drone (index : ℕ) (relayCount : ℤ) : Dict String (Json F) :=
  .ofList [
    ("id", .str (s!"drone_{index}")),
    ("index", .int index),
    ("type", .str "quadrotor_reference"),
    ("role", .str (if (index : ℤ) ≤ relayCount then "relay" else "standby")),
    ("active", .bool true),
    ("failed", .bool false),
    -- a line of drones at three altitudes in turn
    ("position", vec (PyBuiltins.round (PyFloat.ofCount index * 28.0) 6) 0.0
      (28.0 + PyFloat.ofCount ((index - 1) % 3))),
    ("orientation_xyzw", .arr [.float 0.0, .float 0.0, .float 0.0, .float 1.0]),
    ("velocity", vec 0.0 0.0 0.0),
    ("battery_soc_pct", .float 100.0),
    ("antenna_id", .str "uav_omni_reference")]

/-- The records of the drones `1..total`. -/
def drones (total : ℕ) (relayCount : ℤ) : List (Json F) :=
  (List.range total).map fun i => .ofDict (drone (i + 1) relayCount)

/-- The names of the drones `1..total`. -/
def droneNames (total : ℕ) : List String :=
  (List.range total).map fun i => s!"drone_{i + 1}"

/-- The `experiment` section at a time. -/
def defaultHeader (now : F) : Dict String (Json F) :=
  .ofList [
    ("id", .str "first_feasible_relay_chain"),
    ("name", .str "First Feasible Relay Chain"),
    ("description", .str "Reference SNaaS experiment with communication-gated packet forwarding."),
    ("author", .str ""),
    ("tags", .arr [.str "snaas", .str "relay-chain", .str "reference"]),
    ("seed", .int 20260715),
    ("duration_s", .float 300.0),
    ("replications", .int 1),
    ("fidelity_profile", .str "F1_ANALYTICAL"),
    ("created_at", .float now),
    ("updated_at", .float now)]

/-- The `clock` section. -/
def defaultClock : Dict String (Json F) :=
  .ofList [
    ("mode", .str "REAL_TIME"),
    -- the quotient of the two literals exists
    ("physics_step_s", .float ((PyFloat.div 1.0 60.0).getD 0.0)),
    ("control_step_s", .float 0.1),
    ("link_update_period_s", .float 0.5),
    ("telemetry_period_s", .float 0.25),
    ("use_sim_time", .bool false)]

/-- The environment of the `world` section. -/
def defaultEnvironment : Dict String (Json F) :=
  .ofList [
    ("temperature_c", .float 25.0),
    ("humidity_pct", .float 40.0),
    ("rain_rate_mm_h", .float 0.0),
    ("fog_visibility_m", .float 10000.0),
    ("wind_speed_mps", .float 1.2),
    ("wind_direction_deg", .float 35.0),
    ("gust_speed_mps", .float 0.8),
    ("turbulence_intensity", .float 0.15)]

/-- The `world` section. -/
def defaultWorld : Dict String (Json F) :=
  .ofList [
    ("template", .str "open_reference"),
    ("coordinate_frame", .str "ENU"),
    ("stage_units_m", .float 1.0),
    ("origin", vec 0.0 0.0 0.0),
    ("terrain", .str "flat"),
    ("assets", .arr []),
    ("environment", .ofDict defaultEnvironment),
    ("electromagnetic_materials", .arr [])]

/-- The `service_region` section. -/
def defaultServiceRegion : Dict String (Json F) :=
  .ofList [
    ("shape", .str "rectangle"),
    ("center", vec 120.0 0.0 0.0),
    ("length_m", .float 240.0),
    ("width_m", .float 120.0),
    ("min_altitude_m", .float 10.0),
    ("max_altitude_m", .float 120.0),
    ("geofence_enabled", .bool true),
    ("restricted_regions", .arr [])]

/-- The `station` section. -/
def defaultStation : Dict String (Json F) :=
  .ofList [
    ("id", .str "station"),
    ("type", .str "ground_station"),
    ("position", vec 0.0 0.0 1.5),
    ("orientation_xyzw", .arr [.float 0.0, .float 0.0, .float 0.0, .float 1.0]),
    ("antenna_id", .str "ground_sector_reference"),
    ("backhaul_capacity_mbps", .float 1000.0),
    ("active", .bool true)]

/-- The controller of the `swarm` section. -/
def defaultController : Dict String (Json F) :=
  .ofList [
    ("type", .str "communication_aware_formation"),
    ("plugin_id", .null),
    ("update_rate_hz", .float 10.0),
    ("command_timeout_s", .float 1.0),
    ("collision_avoidance", .bool true),
    ("safe_fallback", .str "hold_position")]

/-- The mobility of the `swarm` section. -/
def defaultMobility : Dict String (Json F) :=
  .ofList [
    ("model", .str "hold"),
    ("formation", .str "chain"),
    ("waypoint_smoothing", .bool true),
    ("wind_response", .bool true),
    ("parameters", .obj [])]

/-- The energy model of the `swarm` section. -/
def defaultEnergy : Dict String (Json F) :=
  .ofList [
    ("model", .str "simple_power_budget"),
    ("battery_capacity_wh", .float 180.0),
    ("initial_soc_pct", .float 100.0),
    ("reserve_soc_pct", .float 20.0),
    ("hover_power_w", .float 180.0),
    ("communication_power_w", .float 8.0),
    ("computing_power_w", .float 15.0)]

/-- The `swarm` section: eight drones, of which six are relays. -/
def defaultSwarm : Dict String (Json F) :=
  .ofList [
    ("drone_count", .int 8),
    ("relay_count", .int 6),
    ("standby_count", .int 2),
    ("visual_asset_scale", .float 0.2),
    ("physical_collision_dimensions_m", vec 0.32 0.32 0.12),
    ("reference_dimensions_m", vec 0.32 0.32 0.12),
    ("mass_kg", .float 1.4),
    ("payload_mass_kg", .float 0.2),
    ("minimum_separation_m", .float 4.0),
    ("max_horizontal_speed_mps", .float 12.0),
    ("max_vertical_speed_mps", .float 4.0),
    ("max_acceleration_mps2", .float 5.0),
    ("max_deceleration_mps2", .float 6.0),
    ("max_jerk_mps3", .float 8.0),
    ("max_yaw_rate_deg_s", .float 90.0),
    ("max_climb_rate_mps", .float 4.0),
    ("max_descent_rate_mps", .float 3.0),
    ("controller", .ofDict defaultController),
    ("mobility", .ofDict defaultMobility),
    ("energy", .ofDict defaultEnergy),
    ("drones", .arr (drones 8 6))]

/-- The `topology` section: one chain through the six relays. -/
def defaultTopology : Dict String (Json F) :=
  .ofList [
    ("mode", .str TopologyMode.chain.value),
    ("source", .str "station"),
    ("sinks", .arr [.str "drone_6"]),
    ("branch_count", .int 1),
    ("branches", .arr [.arr [.int 1, .int 2, .int 3, .int 4, .int 5, .int 6]]),
    ("manual_edges", .arr []),
    ("routing_policy", .str "ordered_path"),
    ("forwarding_policy", .str "store_and_forward"),
    ("queue_model", .str "fifo"),
    ("recompute_on_failure", .bool true),
    ("redundancy_target", .int 1),
    ("update_period_s", .float 0.5)]

/-- The `communication` section. -/
def defaultCommunication : Dict String (Json F) :=
  .ofList [
    ("model", .str "sionna_analytical"),
    ("fidelity", .str "F1_ANALYTICAL"),
    ("carrier_frequency_hz", .float 3.5e9),
    ("bandwidth_hz", .float 20e6),
    ("tx_power_dbm", .float 23.0),
    ("receiver_noise_figure_db", .float 7.0),
    ("implementation_loss_db", .float 2.0),
    ("operational_range_m", .float 90.0),
    ("hard_outage_distance_m", .float 220.0),
    ("min_snr_db", .float 3.0),
    ("min_sinr_db", .float 3.0),
    ("min_capacity_mbps", .float 1.0),
    ("spectral_efficiency_factor", .float 0.75),
    ("metric_ttl_s", .float 2.0),
    ("shadowing_sigma_db", .float 0.0),
    ("path_loss_exponent", .float 2.0),
    ("rain_enabled", .bool false),
    ("foliage_enabled", .bool false),
    ("clutter_enabled", .bool false),
    ("interference_enabled", .bool false),
    ("interference_margin_db", .float 0.0),
    ("allow_fallback", .bool true),
    ("fallback_model", .str "free_space")]

/-- The antenna of the station. -/
def groundSectorReference : Dict String (Json F) :=
  .ofList [
    ("id", .str "ground_sector_reference"),
    ("name", .str "Ground Sector Reference"),
    ("model", .str "sector"),
    ("provenance", .str "analytical_reference"),
    ("center_frequency_hz", .float 3.5e9),
    ("bandwidth_hz", .float 20e6),
    ("gain_dbi", .float 8.0),
    ("efficiency", .float 0.8),
    ("polarization", .str "vertical"),
    ("beamwidth_azimuth_deg", .float 110.0),
    ("beamwidth_elevation_deg", .float 60.0),
    ("front_to_back_ratio_db", .float 20.0),
    ("cable_loss_db", .float 1.0),
    ("position_offset_m", vec 0.0 0.0 0.0),
    ("rotation_rpy_deg", vec 0.0 0.0 0.0)]

/-- The antenna of the drones. -/
def uavOmniReference : Dict String (Json F) :=
  .ofList [
    ("id", .str "uav_omni_reference"),
    ("name", .str "UAV Omni Reference"),
    ("model", .str "omnidirectional"),
    ("provenance", .str "analytical_reference"),
    ("center_frequency_hz", .float 3.5e9),
    ("bandwidth_hz", .float 20e6),
    ("gain_dbi", .float 2.5),
    ("efficiency", .float 0.75),
    ("polarization", .str "vertical"),
    ("beamwidth_azimuth_deg", .float 360.0),
    ("beamwidth_elevation_deg", .float 120.0),
    ("front_to_back_ratio_db", .float 0.0),
    ("cable_loss_db", .float 0.5),
    ("position_offset_m", vec 0.0 0.0 0.12),
    ("rotation_rpy_deg", vec 0.0 0.0 0.0)]

/-- The antenna that each entity of the default experiment is assigned. -/
def defaultAssignments : Dict String (Json F) :=
  .ofList (("station", .str "ground_sector_reference") ::
    (droneNames 8).map fun name => (name, .str "uav_omni_reference"))

/-- The `antennas` section. -/
def defaultAntennas : Dict String (Json F) :=
  .ofList [
    ("definitions", .arr [.ofDict groundSectorReference, .ofDict uavOmniReference]),
    ("assignments", .ofDict defaultAssignments)]

/-- The flow of the `traffic` section. -/
def defaultFlow : Dict String (Json F) :=
  .ofList [
    ("id", .str "service_flow_1"),
    ("source", .str "station"),
    ("destination", .str "drone_6"),
    ("branch_id", .str "branch_0"),
    ("service_class", .str "user_data"),
    ("generation_model", .str "constant_packet_rate"),
    ("packet_size_bytes", .int 512),
    ("packet_rate_pps", .float 2.0),
    ("priority", .int 1),
    ("max_delay_ms", .float 150.0),
    ("min_throughput_mbps", .float 1.0),
    ("reliability_target", .float 0.99),
    ("queue_capacity_packets", .int 128),
    ("start_time_s", .float 0.0),
    ("stop_time_s", .float 300.0)]

/-- The `traffic` section. -/
def defaultTraffic : Dict String (Json F) :=
  .ofList [
    ("flows", .arr [.ofDict defaultFlow]),
    ("scheduler", .str "round_robin"),
    ("queue_model", .str "fifo")]

/-- The `failures` section. -/
def defaultFailures : Dict String (Json F) :=
  .ofList [
    ("schedule", .arr []),
    ("recovery_policy", .str "communication_aware_standby"),
    ("failure_detection_s", .float 1.5),
    ("recovery_timeout_s", .float 20.0),
    ("retry_limit", .int 3),
    ("operator_approval_required", .bool false)]

/-- The `visualization` section. -/
def defaultVisualization : Dict String (Json F) :=
  .ofList [
    ("custom_drone_usd", .str "/workspace/isaac/local_assets/drones/tu_drone.usd"),
    ("visual_asset_scale", .float 0.2),
    ("show_service_region", .bool true),
    ("show_link_lines", .bool true),
    ("show_packet_markers", .bool true),
    ("show_coverage_preview", .bool true),
    ("coverage_opacity", .float 0.035),
    ("status_marker_scale", .float 0.7),
    ("packet_marker_scale", .float 0.9),
    ("camera_preset", .str "overview")]

/-- The `evidence` section. -/
def defaultEvidence : Dict String (Json F) :=
  .ofList [
    ("output_directory", .str "/workspace/results"),
    ("write_jsonl_events", .bool true),
    ("write_csv_metrics", .bool true),
    ("write_run_manifest", .bool true),
    ("record_rosbag", .bool false),
    ("capture_screenshots", .bool false),
    ("record_video", .bool false),
    ("retention_policy", .str "keep_completed_runs")]

/-- The `runtime` section. -/
def defaultRuntime : Dict String (Json F) :=
  .ofList [
    ("sionna_url", .str "http://127.0.0.1:8090/link"),
    ("sionna_health_url", .str "http://127.0.0.1:8090/health"),
    ("command_timeout_s", .float 30.0),
    ("startup_timeout_s", .float 600.0),
    ("isaac_heartbeat_timeout_s", .float 15.0),
    ("packet_heartbeat_timeout_s", .float 5.0),
    ("retry_count", .int 3)]

/-- The `compatibility` section. -/
def defaultCompatibility : Dict String (Json F) :=
  .ofList [
    ("legacy_config_version", .str "v4.1"),
    ("legacy_fields_emitted", .bool true),
    ("generated_reference", .bool true)]

/-- The sections of the default experiment behind its header. -/
def defaultSections : List (String × Dict String (Json F)) := [
  ("clock", defaultClock),
  ("world", defaultWorld),
  ("service_region", defaultServiceRegion),
  ("station", defaultStation),
  ("swarm", defaultSwarm),
  ("topology", defaultTopology),
  ("communication", defaultCommunication),
  ("antennas", defaultAntennas),
  ("traffic", defaultTraffic),
  ("failures", defaultFailures),
  ("visualization", defaultVisualization),
  ("evidence", defaultEvidence),
  ("runtime", defaultRuntime),
  ("compatibility", defaultCompatibility)]

/-- The members of the default experiment. -/
def defaultMembers (now : F) : List (String × Json F) :=
  ("schema_version", .str schemaVersion) :: ("experiment", .ofDict (defaultHeader now)) ::
    defaultSections.map fun e => (e.1, .ofDict e.2)

/-- The default experiment at a time (`default_experiment`). -/
def defaultExperiment (now : F) : Dict String (Json F) := .ofList (defaultMembers now)

/-- The keys of the default experiment. -/
def sectionNames : List String :=
  ["schema_version", "experiment", "clock", "world", "service_region", "station", "swarm",
    "topology", "communication", "antennas", "traffic", "failures", "visualization", "evidence",
    "runtime", "compatibility"]

theorem entries_defaultExperiment (now : F) :
    (defaultExperiment now).entries = defaultMembers now := by
  refine Dict.entries_ofList ?_
  show sectionNames.Nodup
  decide

theorem keys_defaultExperiment (now : F) : (defaultExperiment now).keys = sectionNames := by
  rw [Dict.keys, entries_defaultExperiment]
  rfl

/-- The header of the default experiment. -/
theorem get?_defaultExperiment_header (now : F) :
    (defaultExperiment now).get? "experiment" = some (.ofDict (defaultHeader now)) := by
  rw [Dict.get?_eq_some_iff, entries_defaultExperiment]
  exact List.mem_cons_of_mem _ List.mem_cons_self

/-- A section of the default experiment. -/
theorem get?_defaultExperiment_section (now : F) {key : String} {value : Dict String (Json F)}
    (h : (key, value) ∈ defaultSections) :
    (defaultExperiment now).get? key = some (.ofDict value) := by
  rw [Dict.get?_eq_some_iff, entries_defaultExperiment]
  exact List.mem_cons_of_mem _ (List.mem_cons_of_mem _ (List.mem_map.mpr ⟨_, h, rfl⟩))

theorem get?_defaultWorld_environment :
    (defaultWorld : Dict String (Json F)).get? "environment" = some (.ofDict defaultEnvironment) :=
  Dict.get?_ofList_of_mem (by simp) (by simp)

theorem get?_defaultSwarm_mobility :
    (defaultSwarm : Dict String (Json F)).get? "mobility" = some (.ofDict defaultMobility) :=
  Dict.get?_ofList_of_mem (by simp) (by simp)

end Netlab.Experiment
