import Netlab.Config.Defaults
import Netlab.Prelude.Dealing

/-!
# Migration

`migrate_legacy_config`: a versioned document, bare or in a `v6` or `v5` envelope, is merged over
the default experiment; any other document is read as a flat legacy configuration, from which the
sections of a default experiment are filled. A step that raises gives `none`. Every migrated
document covers the default experiment but for its antennas: only the flat path replaces a section
as a whole, the antennas when the document lists some.
-/

namespace Netlab.Experiment

variable {F : Type} [PyText F] [PyBuiltins F]

/-- Whether a document says that it has the current schema and has an `experiment` section. -/
def isVersioned (config : Dict String (Json F)) : Bool :=
  (config.getD "schema_version" .null).isStr schemaVersion &&
    ((config.get? "experiment").bind Json.dict?).isSome

/-- The versioned document that a flat envelope carries, under `v6` or else under `v5`. -/
def envelope? (config : Dict String (Json F)) : Option (Dict String (Json F)) :=
  ["v6", "v5"].findSome? fun key => do
    let nested ← (← config.get? key).dict?
    if isVersioned nested then some nested else none

/-! ## Flat documents -/

/-- `value if isinstance(value, Mapping) else {}`. -/
def mappingOrEmpty (source : Dict String (Json F)) (key : String) : Dict String (Json F) :=
  ((source.get? key).bind Json.dict?).getD .empty

/-- `float(value)` as a value. -/
def floatOf (value : Json F) : Option (Json F) := value.toFloat?.map .float

/-- The `experiment` section of a flat document. -/
def flatHeader (now : F) (source : Dict String (Json F)) : Option (Dict String (Json F)) := do
  let header := defaultHeader now
  let id := PyText.strip F (source.getD "scenario_id"
    (source.getD "experiment_name" (header.getD "id" .null))).toText
  let seed ← (source.getD "seed" (header.getD "seed" .null)).toInt?
  let duration ← floatOf (source.getD "duration_s" (header.getD "duration_s" .null))
  return header
    |>.set "id" (if id = "" then header.getD "id" .null else .str id)
    |>.set "name" (.str (source.getD "experiment_name" (header.getD "name" .null)).toText)
    |>.set "seed" (.int seed)
    |>.set "duration_s" duration

/-- The numbers of drones and of relays of a flat document. -/
structure FlatCounts where
  total : ℕ
  relay : ℕ
  deriving DecidableEq, Repr

/-- Read the counts. The total is at least one, and the relays are between one and the total. -/
def flatCounts (source : Dict String (Json F)) : Option FlatCounts := do
  let listed ← (source.getD "drones" (.arr [])).length?
  let total ← (source.getD "drone_count" (if listed = 0 then .int 8 else .int listed)).toInt?
  let total := max 1 total
  let standby ← (source.getD "standby_count" (.int 0)).toInt?
  let relay ← (source.getD "relay_count" (.int (max 1 (total - standby)))).toInt?
  return { total := total.toNat, relay := (max 1 (min total relay)).toNat }

/-- The record of the drone `index`, from what a flat document lists for it. -/
def flatDrone (counts : FlatCounts) (listed : List (Json F)) (index : ℕ) : Json F :=
  let item := (listed[index - 1]?.bind Json.dict?).getD .empty
  let record := (drone index counts.relay).update item
  let id := ((record.getD "id" .null).orElse (.str s!"drone_{index}")).toText
  .ofDict ((record.set "id" (.str id)).set "index" (.int index))

/-- The `swarm` section of a flat document. -/
def flatSwarm (source : Dict String (Json F)) (counts : FlatCounts) :
    Option (Dict String (Json F)) := do
  let visual ← (source.getD "visual" (.obj [])).dict?
  let scale ← floatOf (visual.getD "drone_scale" (source.getD "drone_scale" (.float 0.2)))
  let swarm := defaultSwarm.update (.ofList [
    ("drone_count", .int counts.total),
    ("relay_count", .int counts.relay),
    ("standby_count", .int (counts.total - counts.relay : ℕ)),
    ("visual_asset_scale", scale)])
  return swarm.set "drones" <| .arr <|
    match source.getD "drones" (.arr []) with
    | .arr (item :: items) =>
        (List.range counts.total).map fun i => flatDrone counts (item :: items) (i + 1)
    | _ => drones counts.total counts.relay

/-- The `world` section of a flat document. -/
def flatWorld (source : Dict String (Json F)) : Option (Dict String (Json F)) := do
  let environment := mappingOrEmpty source "environment"
  let base : Dict String (Json F) := defaultEnvironment
  let read (key : String) : Option (Json F) :=
    floatOf (source.getD key (environment.getD key (base.getD key .null)))
  let environment' := base.update (.ofList [
    ("wind_speed_mps", ← read "wind_speed_mps"),
    ("wind_direction_deg", ← read "wind_direction_deg"),
    ("turbulence_intensity", ← read "turbulence_intensity"),
    ("rain_rate_mm_h", ← floatOf (environment.getD "rain_rate_mm_h"
      (source.getD "rain_rate_mm_h" (.float 0.0))))])
  let world := defaultWorld.set "environment" (.ofDict environment')
  return match source.getD "worlds" (.arr []) with
    | .arr assets => world.set "assets" (.arr assets)
    | _ => world

/-- The `service_region` section of a flat document. -/
def flatServiceRegion (source : Dict String (Json F)) : Option (Dict String (Json F)) := do
  let service : Dict String (Json F) := defaultServiceRegion
  let read (key field : String) : Option (Json F) :=
    floatOf (source.getD key (service.getD field .null))
  return service.update (.ofList [
    ("length_m", ← read "coverage_radius_m" "length_m"),
    ("width_m", ← read "coverage_width_m" "width_m"),
    ("min_altitude_m", ← read "altitude_start_m" "min_altitude_m"),
    ("max_altitude_m", ← read "altitude_end_m" "max_altitude_m")])

/-- The `station` section of a flat document. -/
def flatStation (source : Dict String (Json F)) : Dict String (Json F) :=
  defaultStation.update (mappingOrEmpty source "station")

/-- The branches of a flat document: those that it lists, otherwise one chain through the relays,
or the relays dealt to the branches in turn. -/
def flatBranches (source section_ : Dict String (Json F)) (mode : String) (counts : FlatCounts) :
    Option (List (Json F)) := do
  let relays := (List.range counts.relay).map fun i => (.int (i + 1) : Json F)
  match section_.getD "manual_branches" (source.getD "manual_branches" (.arr [])) with
  | .arr (branch :: branches) => return branch :: branches
  | _ =>
      if mode = TopologyMode.chain.value then return [.arr relays]
      else
        let count ← (source.getD "branch_count" (.int 1)).toInt?
        return (List.deal (.replicate (max 1 count).toNat []) relays).map .arr

/-- The mode of a flat document: the one that it names, otherwise one after its number of
branches. -/
def flatMode (source section_ : Dict String (Json F)) : Option String :=
  let named := PyText.lower F (section_.getD "transmission_mode"
    (source.getD "transmission_mode" (.str "chain"))).toText
  if (TopologyMode.ofValue? named).isSome then some named
  else (source.getD "branch_count" (.int 1)).toInt?.map fun count =>
    if 1 < count then TopologyMode.parallel.value else TopologyMode.chain.value

/-- The `topology` section of a flat document. -/
def flatTopology (source : Dict String (Json F)) (counts : FlatCounts) :
    Option (Dict String (Json F)) := do
  let section_ := mappingOrEmpty source "topology"
  let mode ← flatMode source section_
  let branches ← flatBranches source section_ mode counts
  let read (key default : String) : Json F :=
    .str (section_.getD key (source.getD key (.str default))).toText
  return defaultTopology.update (.ofList [
    ("mode", .str mode),
    ("branch_count", .int branches.length),
    ("branches", .arr branches),
    ("forwarding_policy", read "forwarding_policy" "store_and_forward"),
    ("queue_model", read "queue_model" "fifo")])

/-- The `communication` section of a flat document. -/
def flatCommunication (source : Dict String (Json F)) : Option (Dict String (Json F)) := do
  let radio := mappingOrEmpty source "radio"
  let base : Dict String (Json F) := defaultCommunication
  let communication := base.update (.ofList [
    ("carrier_frequency_hz", ← floatOf (radio.getD "frequency_hz"
      (source.getD "frequency_hz" (base.getD "carrier_frequency_hz" .null)))),
    ("bandwidth_hz", ← floatOf (radio.getD "bandwidth_hz"
      (source.getD "bandwidth_hz" (base.getD "bandwidth_hz" .null)))),
    ("tx_power_dbm", ← floatOf (radio.getD "tx_power_dbm"
      (source.getD "tx_power_dbm" (base.getD "tx_power_dbm" .null)))),
    ("operational_range_m", ← floatOf (source.getD "max_single_hop_range_m"
      (base.getD "operational_range_m" .null))),
    ("hard_outage_distance_m", ← floatOf (source.getD "hard_outage_range_m"
      (base.getD "hard_outage_distance_m" .null))),
    ("min_snr_db", ← floatOf (radio.getD "min_snr_db" (base.getD "min_snr_db" .null))),
    ("min_capacity_mbps", ← floatOf (radio.getD "required_capacity_mbps"
      (base.getD "min_capacity_mbps" .null)))])
  match radio.getD "noise_floor_dbm" .null with
  | .null => return communication
  | value => return communication.set "legacy_noise_floor_dbm" (← floatOf value)

/-- The definition of the antenna at a position of a flat document, and the entity it is attached
to. -/
def flatAntenna (communication : Dict String (Json F)) (position : ℕ)
    (item : Dict String (Json F)) : Option (Dict String (Json F) × String × String) := do
  let id := item.getText "id" s!"antenna_{position}"
  let zero : Json F := vec 0.0 0.0 0.0
  let definition := Dict.ofList [
    ("id", .str id),
    ("name", .str (item.getText "name" id)),
    ("model", .str (item.getText "role" "custom_reference")),
    ("provenance", .str "legacy_config"),
    ("center_frequency_hz", ← floatOf (item.getD "frequency_hz"
      (communication.getD "carrier_frequency_hz" .null))),
    ("bandwidth_hz", ← floatOf (item.getD "bandwidth_hz"
      (communication.getD "bandwidth_hz" .null))),
    ("gain_dbi", ← floatOf (item.getD "gain_dbi" (.float 0.0))),
    ("polarization", .str (item.getText "polarization" "vertical")),
    ("beamwidth_azimuth_deg", ← floatOf (item.getD "beamwidth_deg" (.float 360.0))),
    ("beamwidth_elevation_deg", ← floatOf (item.getD "beamwidth_deg" (.float 120.0))),
    ("position_offset_m", .arr (← (item.getD "position" zero).elements?)),
    ("rotation_rpy_deg", .arr (← (item.getD "rotation_xyz" zero).elements?)),
    ("cable_loss_db", .float 0.0)]
  let attached := item.getText "attached_to" (if position = 1 then "station" else "")
  return (definition, attached, id)

/-- The antennas that a flat document lists, with the entities they are attached to. What is no
object is skipped. -/
def flatAntennaList (source communication : Dict String (Json F)) :
    Option (List (Dict String (Json F) × String × String)) :=
  match source.getD "antennas" (.arr []) with
  | .arr items =>
      ((items.zipIdx 1).filterMap fun e => e.1.dict?.map fun item => (item, e.2)).mapM
        fun e => flatAntenna communication e.2 e.1
  | _ => some []

/-- The `antennas` section of a flat document: the default one, unless the document lists antennas.
These replace the default section, assignments included. -/
def flatAntennas (source communication : Dict String (Json F)) :
    Option (Dict String (Json F)) := do
  let listed ← flatAntennaList source communication
  if listed.isEmpty then return defaultAntennas
  else
    return .ofList [
      ("definitions", .arr (listed.map fun e => .ofDict e.1)),
      ("assignments", .ofDict (.ofList ((listed.filter fun e => e.2.1 ≠ "").map fun e =>
        (e.2.1, .str e.2.2))))]

/-- The `visualization` section of a flat document. -/
def flatVisualization (source : Dict String (Json F)) : Option (Dict String (Json F)) := do
  let visual := mappingOrEmpty source "visual"
  let base : Dict String (Json F) := defaultVisualization
  return base.update (.ofList [
    ("custom_drone_usd", .str (visual.getD "custom_drone_usd"
      (base.getD "custom_drone_usd" .null)).toText),
    ("visual_asset_scale", ← floatOf (visual.getD "drone_scale" (.float 0.2))),
    ("show_service_region", .bool (visual.getBool "show_coverage_area" true)),
    ("show_coverage_preview", .bool (visual.getBool "show_drone_coverage_rings" true)),
    ("coverage_opacity", ← floatOf (visual.getD "drone_coverage_opacity" (.float 0.035)))])

/-- Fill a default experiment from a flat document. The clock is read once at the start and once
at the end. -/
def migrateFlat (now later : F) (source : Dict String (Json F)) :
    Option (Dict String (Json F)) := do
  let header ← flatHeader now source
  let counts ← flatCounts source
  let swarm ← flatSwarm source counts
  let world ← flatWorld source
  let service ← flatServiceRegion source
  let topology ← flatTopology source counts
  let communication ← flatCommunication source
  let antennas ← flatAntennas source communication
  let visualization ← flatVisualization source
  return defaultExperiment now
    |>.set "experiment" (.ofDict (header.set "updated_at" (.float later)))
    |>.set "swarm" (.ofDict swarm)
    |>.set "world" (.ofDict world)
    |>.set "service_region" (.ofDict service)
    |>.set "station" (.ofDict (flatStation source))
    |>.set "topology" (.ofDict topology)
    |>.set "communication" (.ofDict communication)
    |>.set "visualization" (.ofDict visualization)
    |>.set "compatibility"
      (.ofDict (defaultCompatibility.set "migrated_from_flat_config" (.bool true)))
    -- every section is stored in its place, so the order of the stores does not matter
    |>.set "antennas" (.ofDict antennas)

/-- Bring a document into the versioned form (`migrate_legacy_config`), starting at the time `now`;
the flat path reads the clock once more. -/
def migrateLegacyConfig (now later : F) (config : Dict String (Json F)) :
    Option (Dict String (Json F)) :=
  if isVersioned config then some (deepMerge (defaultExperiment now) config)
  else
    match envelope? config with
    | some nested => some (deepMerge (defaultExperiment now) nested)
    | none => migrateFlat now later config

end Netlab.Experiment
