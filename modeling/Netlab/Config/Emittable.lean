import Netlab.Config.Emission

/-!
# When a document can be emitted

The emission of a valid document raises exactly when the document holds something that the emission
reads and the validator does not look at: a section that is no object, a drone record whose
identifier cannot be a key or which has no index, a rotation that has no length, and so on
(`Emittable`).
-/

namespace Netlab.Experiment

variable {F : Type} [PyText F] [PyBuiltins F]

/-- The drone records of a swarm section that are objects. -/
def droneObjects (swarm : Dict String (Json F)) : List (Dict String (Json F)) :=
  (droneRecords swarm).filterMap Json.dict?

/-- The antenna definitions of an antennas section that are objects. -/
def definitionObjects (antennas : Dict String (Json F)) : List (Dict String (Json F)) :=
  match antennas.getD "definitions" (.arr []) with
  | .arr items => items.filterMap Json.dict?
  | _ => []

/-- What the emission needs of a drone record: an identifier that can be a key, an index, and an
integer as the index of a failed drone. -/
structure RecordEmits (record : Dict String (Json F)) : Prop where
  id : (record.getD "id" .null).isHashable = true
  index : (record.get? "index").isSome = true
  failed : record.getBool "failed" false = true → (record.getD "index" .null).toInt?.isSome = true

/-- A rotation that the emission can take angles from: a list, a string or an object whose number
of keys is not three. -/
def rotationEmits (definition : Dict String (Json F)) : Bool :=
  match definition.getD "rotation_rpy_deg" (.arr []) with
  | .arr _ => true
  | .str _ => true
  | .obj members => (Dict.ofList members).keys.length ≠ 3
  | _ => false

/-- What the emission needs of the sections beyond their being objects. -/
structure Readable (s : Sections F) : Prop where
  records : ∀ record ∈ droneObjects s.swarm, RecordEmits record
  rotations : ∀ definition ∈ definitionObjects s.antennas, rotationEmits definition = true
  /-- The branches have a length. -/
  branches : (s.topology.getD "branches" .null).length?.isSome = true
  /-- The assets have a length. -/
  assets : (s.world.getD "assets" (.arr [])).length?.isSome = true
  /-- The amplitude and the speed of the mobility model are numbers, if they are given. -/
  amplitude : (mobilityParameter s.mobility "amplitude_m" 0.0).isSome = true
  speed : (mobilityParameter s.mobility "speed_multiplier" 1.0).isSome = true
  /-- The minimum separation is no string. -/
  separation : (s.swarm.getD "minimum_separation_m" .null).operand?.isSome = true
  /-- The bandwidth is no string and has a logarithm. -/
  bandwidth : ((s.comm.getD "bandwidth_hz" .null).operand?.bind PyFloat.log10).isSome = true
  /-- The noise figure is a number. -/
  figure : (s.comm.getD "receiver_noise_figure_db" .null).operand?.isSome = true
  /-- The first flow has a packet size. The validator reads a missing one as zero, which Python's
  floats put below the lower bound. -/
  payload : (emittedPayloadBytes s.traffic).isSome = true

/-- The document has what the emission reads. -/
def Emittable (config : Dict String (Json F)) : Prop :=
  ∃ s, sections? config = some s ∧ Readable s

/-! ## What the migration and the validator provide -/

omit [PyText F] [PyBuiltins F] in
/-- A section that is an object covers the section of a covered document. -/
theorem covers_object? {base b config d : Dict String (Json F)} {key : String}
    (h : Covers base config) (hbase : base.get? key = some (.ofDict b))
    (hobject : object? config key = some d) : Covers b d := by
  obtain ⟨value, hvalue, hcovers⟩ := h.exists_get? hbase
  rw [object?, hvalue, Option.bind_some] at hobject
  exact covers_of_dict? hcovers hobject

omit [PyText F] [PyBuiltins F] in
theorem isSome_get?_of_covers {base value : Dict String (Json F)} (h : Covers base value)
    {key : String} (hkey : key ∈ base.keys) : (value.get? key).isSome = true := by
  obtain ⟨b, hb⟩ := Dict.mem_keys_iff.mp hkey
  obtain ⟨v, hv, -⟩ := h.exists_get? hb
  rw [hv]
  rfl

/-- The sections have the keys of the default sections. -/
structure Present (config : Dict String (Json F)) (s : Sections F) : Prop where
  config : ∀ key ∈ sectionNames, (config.get? key).isSome = true
  experiment : ∀ key ∈ ["id", "name", "seed", "duration_s", "fidelity_profile"],
    (s.experiment.get? key).isSome = true
  clock : (s.clock.get? "link_update_period_s").isSome = true
  world : (s.world.get? "environment").isSome = true
  environment : ∀ key ∈ ["wind_speed_mps", "wind_direction_deg", "turbulence_intensity"],
    (s.environment.get? key).isSome = true
  service : ∀ key ∈ ["length_m", "width_m", "min_altitude_m", "max_altitude_m"],
    (s.service.get? key).isSome = true
  swarm : ∀ key ∈ ["drone_count", "relay_count", "standby_count", "minimum_separation_m",
    "physical_collision_dimensions_m", "energy"], (s.swarm.get? key).isSome = true
  mobility : (s.mobility.get? "model").isSome = true
  topology : ∀ key ∈ ["mode", "branches", "forwarding_policy", "queue_model", "routing_policy"],
    (s.topology.get? key).isSome = true
  comm : ∀ key ∈ ["carrier_frequency_hz", "bandwidth_hz", "tx_power_dbm",
    "receiver_noise_figure_db", "implementation_loss_db", "min_snr_db", "min_capacity_mbps",
    "model", "fidelity", "spectral_efficiency_factor", "operational_range_m",
    "hard_outage_distance_m"], (s.comm.get? key).isSome = true
  failures : (s.failures.get? "failure_detection_s").isSome = true
  visualization : ∀ key ∈ ["custom_drone_usd", "show_service_region", "show_coverage_preview",
    "coverage_opacity"], (s.visualization.get? key).isSome = true

omit [PyText F] [PyBuiltins F] in
theorem sections?_eq_some_iff {config : Dict String (Json F)} {s : Sections F} :
    sections? config = some s ↔
      object? config "world" = some s.world ∧ object? config "swarm" = some s.swarm ∧
        object? config "experiment" = some s.experiment ∧ object? config "clock" = some s.clock ∧
        object? s.world "environment" = some s.environment ∧
        object? config "service_region" = some s.service ∧
        object? s.swarm "mobility" = some s.mobility ∧
        object? config "topology" = some s.topology ∧
        object? config "communication" = some s.comm ∧
        object? config "antennas" = some s.antennas ∧ object? config "traffic" = some s.traffic ∧
        object? config "failures" = some s.failures ∧
        object? config "visualization" = some s.visualization := by
  constructor
  · intro h
    unfold sections? at h
    iterate 13 obtain ⟨_, _, h⟩ := Option.bind_eq_some_iff.mp h
    obtain rfl := Option.some.inj h
    refine ⟨?_, ?_, ?_, ?_, ?_, ?_, ?_, ?_, ?_, ?_, ?_, ?_, ?_⟩ <;> assumption
  · rintro ⟨h1, h2, h3, h4, h5, h6, h7, h8, h9, h10, h11, h12, h13⟩
    simp only [sections?, bind, pure, h1, h2, h3, h4, h5, h6, h7, h8, h9, h10, h11, h12, h13,
      Option.bind_some]

omit [PyText F] in
/-- The sections of a document that covers the default experiment. -/
theorem present_of_covers {config : Dict String (Json F)} {now : F} {s : Sections F}
    (h : Covers (defaultExperiment now) config) (hs : sections? config = some s) :
    Present config s := by
  obtain ⟨hworld, hswarm, hexperiment, hclock, henvironment, hservice, hmobility, htopology, hcomm,
    hantennas, htraffic, hfailures, hvisualization⟩ := sections?_eq_some_iff.mp hs
  have hsection {key : String} {b d : Dict String (Json F)} (hb : (key, b) ∈ defaultSections)
      (hd : object? config key = some d) : Covers b d :=
    covers_object? h (get?_defaultExperiment_section now hb) hd
  have hheader : Covers (defaultHeader now) s.experiment :=
    covers_object? h (get?_defaultExperiment_header now) hexperiment
  have hworld' : Covers defaultWorld s.world := hsection (by simp [defaultSections]) hworld
  have hswarm' : Covers defaultSwarm s.swarm := hsection (by simp [defaultSections]) hswarm
  have htopology' : Covers defaultTopology s.topology :=
    hsection (by simp [defaultSections]) htopology
  have hcomm' : Covers defaultCommunication s.comm := hsection (by simp [defaultSections]) hcomm
  have hclock' : Covers defaultClock s.clock := hsection (by simp [defaultSections]) hclock
  have hservice' : Covers defaultServiceRegion s.service :=
    hsection (by simp [defaultSections]) hservice
  have hfailures' : Covers defaultFailures s.failures :=
    hsection (by simp [defaultSections]) hfailures
  have hvisual' : Covers defaultVisualization s.visualization :=
    hsection (by simp [defaultSections]) hvisualization
  have henvironment' : Covers defaultEnvironment s.environment :=
    covers_object? hworld' get?_defaultWorld_environment henvironment
  have hmobility' : Covers defaultMobility s.mobility :=
    covers_object? hswarm' get?_defaultSwarm_mobility hmobility
  -- what covers a default has all its keys
  have hfield {entries : List (String × Json F)} {value : Dict String (Json F)}
      (hcovers : Covers (Dict.ofList entries) value) {key : String}
      (hkey : key ∈ entries.map Prod.fst) : (value.get? key).isSome = true :=
    isSome_get?_of_covers hcovers (Dict.mem_keys_ofList.mpr hkey)
  exact {
    config := fun key hkey =>
      isSome_get?_of_covers h (by rwa [keys_defaultExperiment])
    experiment := fun key hkey => hfield hheader (by revert key; simp)
    clock := hfield hclock' (by simp)
    world := hfield hworld' (by simp)
    environment := fun key hkey => hfield henvironment' (by revert key; simp)
    service := fun key hkey => hfield hservice' (by revert key; simp)
    swarm := fun key hkey => hfield hswarm' (by revert key; simp)
    mobility := hfield hmobility' (by simp)
    topology := fun key hkey => hfield htopology' (by revert key; simp)
    comm := fun key hkey => hfield hcomm' (by revert key; simp)
    failures := hfield hfailures' (by simp)
    visualization := fun key hkey => hfield hvisual' (by revert key; simp) }

/-- What the validator has looked at: the drones and the antennas. -/
structure Checked (s : Sections F) : Prop where
  drones : ∃ records, s.swarm.get? "drones" = some (.arr records) ∧
    ∀ item ∈ records, ∃ record, item.dict? = some record ∧ (record.get? "id").isSome = true ∧
      ∃ x y z, record.get? "position" = some (.arr [x, y, z])
  definitions : ∃ definitions, s.antennas.getD "definitions" (.arr []) = .arr definitions ∧
    ∀ item ∈ definitions, item.dict?.isSome = true
  assignments : (s.antennas.getD "assignments" (.obj [])).dict?.isSome = true

/-! ## The parts of the emission -/

private theorem isSome_bind_iff {α β : Type*} {x : Option α} {f : α → Option β} :
    (x.bind f).isSome = true ↔ ∃ a, x = some a ∧ (f a).isSome = true := by
  cases x <;> simp

private theorem isSome_mapM_iff {α β : Type*} {xs : List α} {f : α → Option β} :
    (xs.mapM f).isSome = true ↔ ∀ x ∈ xs, (f x).isSome = true := by
  simp only [Option.isSome_iff_exists]
  exact List.exists_mapM_eq_some_iff

omit [PyText F] in
theorem isSome_findDefinition {antenna : Json F} {definitions : List (Json F)}
    (h : ∀ item ∈ definitions, item.dict?.isSome = true) :
    (findDefinition antenna definitions).isSome = true := by
  induction definitions with
  | nil => rfl
  | cons item rest ih =>
      obtain ⟨d, hd⟩ := Option.isSome_iff_exists.mp (h item List.mem_cons_self)
      rw [findDefinition, hd]
      show (if _ then some d else findDefinition antenna rest).isSome = true
      split
      · rfl
      · exact ih fun x hx => h x (List.mem_cons_of_mem _ hx)

/-- The record of a drone can be emitted when its identifier can be a key and it has an index. -/
theorem isSome_emittedDrone {assignments record : Dict String (Json F)}
    {definitions : List (Json F)} {item : Json F}
    (hdefinitions : ∀ item ∈ definitions, item.dict?.isSome = true)
    (hrecord : item.dict? = some record) (hid : (record.get? "id").isSome = true)
    (hposition : ∃ x y z, record.get? "position" = some (.arr [x, y, z])) :
    (emittedDrone assignments definitions item).isSome = true ↔
      (record.getD "id" .null).isHashable = true ∧ (record.get? "index").isSome = true := by
  obtain ⟨id, hid⟩ := Option.isSome_iff_exists.mp hid
  obtain ⟨x, y, z, hposition⟩ := hposition
  obtain ⟨definition, hdefinition⟩ := Option.isSome_iff_exists.mp
    (@isSome_findDefinition F _ (droneAntenna assignments record id) definitions hdefinitions)
  simp only [emittedDrone, bind, hrecord, Option.bind_some, hid, Dict.getD, Option.getD_some]
  by_cases hhash : id.isHashable = true
  · simp [Option.filter, hhash, hdefinition, isSome_collect, hposition, Json.elements?]
  · simp [Option.filter, hhash]

omit [PyText F] in
/-- The angles of an antenna can be read when the rotation is of the right kind. -/
theorem isSome_rotationAngle {definition : Dict String (Json F)} {i : ℕ} (hi : i < 3) :
    (rotationAngle definition i).isSome = true ↔ rotationEmits definition = true := by
  unfold rotationAngle rotationEmits
  cases definition.getD "rotation_rpy_deg" (.arr []) with
  | arr items =>
      simp only [Json.length?, Json.elements?, Option.map_some, bind, Option.bind_some, Json.item?]
      split <;> simp_all
  | str text =>
      simp only [Json.length?, Json.elements?, Option.map_some, bind, Option.bind_some, Json.item?]
      split <;> simp_all
  | obj members =>
      simp only [Json.length?, Json.elements?, Option.map_some, bind, Option.bind_some, Json.item?]
      split <;> simp_all
  | _ => simp [Json.length?, Json.elements?]

omit [PyText F] in
/-- An antenna definition can be emitted when its angles can be read. -/
theorem isSome_emittedAntenna {comm assignments definition : Dict String (Json F)}
    {item : Json F} (hdefinition : item.dict? = some definition)
    (hcomm : ∀ key ∈ ["carrier_frequency_hz", "bandwidth_hz", "tx_power_dbm"],
      (comm.get? key).isSome = true) :
    (emittedAntenna comm assignments item).isSome = true ↔ rotationEmits definition = true := by
  simp only [emittedAntenna, bind, hdefinition, Option.bind_some, isSome_collect]
  simp [isSome_rotationAngle, hcomm]

/-- The failed drones can be listed when each of them has an integer as its index. -/
theorem isSome_emittedFailures {records : List (Json F)} :
    (emittedFailures records).isSome = true ↔
      ∀ record ∈ records.filterMap Json.dict?, record.getBool "failed" false = true →
        (record.getD "index" .null).toInt?.isSome = true := by
  simp only [emittedFailures, isSome_mapM_iff, List.mem_filter, and_imp, Option.isSome_map]
  refine forall₃_congr fun record _ _ => ?_
  cases hindex : record.get? "index" with
  | none => simp [Dict.getD, hindex, Json.toInt?]
  | some value => simp [Dict.getD, hindex]

/-- The noise floor can be computed from a bandwidth with a logarithm and a noise figure. -/
theorem isSome_emittedNoiseFloor {comm : Dict String (Json F)}
    (hbandwidth : (comm.get? "bandwidth_hz").isSome = true)
    (hfigure : (comm.get? "receiver_noise_figure_db").isSome = true) :
    (emittedNoiseFloor comm).isSome = true ↔
      ((comm.getD "bandwidth_hz" .null).operand?.bind PyFloat.log10).isSome = true ∧
        (comm.getD "receiver_noise_figure_db" .null).operand?.isSome = true := by
  obtain ⟨bandwidth, hbandwidth⟩ := Option.isSome_iff_exists.mp hbandwidth
  obtain ⟨figure, hfigure⟩ := Option.isSome_iff_exists.mp hfigure
  simp only [emittedNoiseFloor, bind, hbandwidth, hfigure, Option.bind_some, Dict.getD,
    Option.getD_some]
  cases bandwidth.operand? with
  | none => simp
  | some b =>
      cases figure.operand? with
      | none => simp
      | some f => cases hlog : PyFloat.log10 b <;> simp [hlog]

/-- A document whose sections are objects, which has the default keys and what the validator has
looked at can be emitted exactly when the rest can be read. -/
theorem isSome_emitDocument {config : Dict String (Json F)} {s : Sections F}
    (hs : sections? config = some s) (hpresent : Present config s) (hchecked : Checked s) :
    (emitDocument config).isSome = true ↔ Readable s := by
  obtain ⟨records, hrecords, hdrones⟩ := hchecked.drones
  obtain ⟨definitions, hdefinitions, hobjects⟩ := hchecked.definitions
  obtain ⟨assignments, hassignments⟩ := Option.isSome_iff_exists.mp hchecked.assignments
  have hdroneObjects : droneObjects s.swarm = records.filterMap Json.dict? := by
    rw [droneObjects, droneRecords, Dict.getD, hrecords]
    rfl
  have hdefinitionObjects : definitionObjects s.antennas = definitions.filterMap Json.dict? := by
    rw [definitionObjects, hdefinitions]
  have hantennas : (definitions.mapM (emittedAntenna s.comm assignments)).isSome = true ↔
      ∀ definition ∈ definitionObjects s.antennas, rotationEmits definition = true := by
    rw [isSome_mapM_iff, hdefinitionObjects, List.forall_mem_filterMap]
    refine forall₂_congr fun item hitem => ?_
    obtain ⟨definition, hdefinition⟩ := Option.isSome_iff_exists.mp (hobjects item hitem)
    rw [isSome_emittedAntenna hdefinition fun key hkey => hpresent.comm key (by
      revert key
      decide)]
    simp [hdefinition]
  have hrecord : (records.mapM (emittedDrone assignments definitions)).isSome = true ∧
      (emittedFailures records).isSome = true ↔
        ∀ record ∈ droneObjects s.swarm, RecordEmits record := by
    rw [isSome_mapM_iff, isSome_emittedFailures, hdroneObjects]
    constructor
    · rintro ⟨hemitted, hfailed⟩ record hmem
      obtain ⟨item, hitem, hrecord⟩ := List.mem_filterMap.mp hmem
      obtain ⟨record', hrecord', hid, hposition⟩ := hdrones item hitem
      obtain rfl := Option.some.inj (hrecord.symm.trans hrecord')
      obtain ⟨hhash, hindex⟩ :=
        (isSome_emittedDrone hobjects hrecord hid hposition).mp (hemitted item hitem)
      exact ⟨hhash, hindex, hfailed record hmem⟩
    · intro h
      refine ⟨fun item hitem => ?_, fun record hmem => (h record hmem).failed⟩
      obtain ⟨record, hrecord, hid, hposition⟩ := hdrones item hitem
      have hemits := h record (List.mem_filterMap.mpr ⟨item, hitem, hrecord⟩)
      exact (isSome_emittedDrone hobjects hrecord hid hposition).mpr ⟨hemits.id, hemits.index⟩
  obtain ⟨branches, hbranches⟩ := Option.isSome_iff_exists.mp
    (hpresent.topology "branches" (by decide))
  obtain ⟨separation, hseparation⟩ := Option.isSome_iff_exists.mp
    (hpresent.swarm "minimum_separation_m" (by decide))
  have hconfig := hpresent.config
  simp only [sectionNames, List.forall_mem_cons] at hconfig
  -- every other value is a lookup that succeeds
  have hparts : (emitDocument config).isSome = true ↔
      (records.mapM (emittedDrone assignments definitions)).isSome = true ∧
      (definitions.mapM (emittedAntenna s.comm assignments)).isSome = true ∧
      (emittedFailures records).isSome = true ∧
      (s.topology.getD "branches" .null).length?.isSome = true ∧
      (mobilityParameter s.mobility "amplitude_m" 0.0).isSome = true ∧
      (mobilityParameter s.mobility "speed_multiplier" 1.0).isSome = true ∧
      (s.swarm.getD "minimum_separation_m" .null).operand?.isSome = true ∧
      (s.world.getD "assets" (.arr [])).length?.isSome = true ∧
      (emittedNoiseFloor s.comm).isSome = true ∧
      (emittedPayloadBytes s.traffic).isSome = true := by
    simp only [emitDocument, bind, hs, Option.bind_some, hassignments, hdefinitions,
      Json.elements?, hrecords, isSome_bind_iff, isSome_collect, emittedTopology, emittedMessage,
      emittedVisual, emittedRadio, Option.isSome_map, List.forall_mem_cons]
    simp [hconfig, hpresent.experiment, hpresent.clock, hpresent.world, hpresent.environment,
      hpresent.service, hpresent.swarm, hpresent.mobility, hpresent.topology, hpresent.comm,
      hpresent.failures, hpresent.visualization, hbranches, hseparation,
      Dict.getD, Option.isSome_iff_exists]
  have hnoise := isSome_emittedNoiseFloor (hpresent.comm "bandwidth_hz" (by decide))
    (hpresent.comm "receiver_noise_figure_db" (by decide))
  rw [hparts]
  constructor
  · rintro ⟨hemitted, hangles, hfailed, hlength, hamplitude, hspeed, hoperand, hassets, hfloor,
      hpayload⟩
    obtain ⟨hbandwidth, hfigure⟩ := hnoise.mp hfloor
    exact ⟨hrecord.mp ⟨hemitted, hfailed⟩, hantennas.mp hangles, hlength, hassets, hamplitude,
      hspeed, hoperand, hbandwidth, hfigure, hpayload⟩
  · intro h
    obtain ⟨hemitted, hfailed⟩ := hrecord.mpr h.records
    exact ⟨hemitted, hantennas.mpr h.rotations, hfailed, h.branches, h.amplitude, h.speed,
      h.separation, h.assets, hnoise.mpr ⟨h.bandwidth, h.figure⟩, h.payload⟩

end Netlab.Experiment
