import Netlab.Relay.Commands

/-!
# Configuration updates of the packet controller

`_update_config_cb` with `_sync_drone_inventory` and `_ensure_drone`: a running controller takes
over a configuration, one part after the other. Some parts can raise, and what was taken over before
stays, so an update is an `Attempt` that ends with a state either way.
-/

namespace Netlab

variable {F : Type}

/-- Where an update ended, and whether with an exception. -/
structure Attempt (F : Type) where
  controller : Controller F
  raised : Bool

/-- Go on with the state reached, unless there was an exception. -/
def Attempt.andThen (attempt : Attempt F) (next : Controller F → Attempt F) : Attempt F :=
  if attempt.raised then attempt else next attempt.controller

/-- A part of an update that succeeds. -/
def Attempt.ok (c : Controller F) : Attempt F := { controller := c, raised := false }

/-- A part of an update that raises when there is no result. -/
def Attempt.orElse (c : Controller F) (result : Option (Controller F)) : Attempt F :=
  match result with
  | some c' => .ok c'
  | none => { controller := c, raised := true }

/-- What holds of the state before and is kept by the next part holds where the update ended. -/
theorem Attempt.andThen_keeps (P : Controller F → Prop) {attempt : Attempt F}
    {next : Controller F → Attempt F} (h : P attempt.controller)
    (hnext : ∀ c, P c → P (next c).controller) : P (attempt.andThen next).controller := by
  rw [andThen]
  split
  · exact h
  · exact hnext _ h

/-- What holds of the state before and of every result holds where a part ended. -/
theorem Attempt.orElse_keeps (P : Controller F → Prop) {c : Controller F}
    {result : Option (Controller F)} (h : P c) (hresult : ∀ c', result = some c' → P c') :
    P (Attempt.orElse c result).controller := by
  cases result with
  | none => exact h
  | some c' => exact hresult c' rfl

/-- Two parts succeed together when the one does and then the other. -/
theorem Attempt.andThen_succeeds {attempt : Attempt F} {next : Controller F → Attempt F} :
    (attempt.andThen next).raised = false ↔
      attempt.raised = false ∧ (next attempt.controller).raised = false := by
  cases h : attempt.raised <;> simp [andThen, h]

theorem Attempt.andThen_of_succeeds {attempt : Attempt F} (h : attempt.raised = false)
    (next : Controller F → Attempt F) : attempt.andThen next = next attempt.controller := by
  simp [andThen, h]

theorem Attempt.andThen_of_raised {attempt : Attempt F} (h : attempt.raised = true)
    (next : Controller F → Attempt F) : attempt.andThen next = attempt := by
  simp [andThen, h]

/-- An exception ends a loop. -/
theorem Attempt.foldl_of_raised {attempt : Attempt F} (h : attempt.raised = true)
    (part : ℤ → Controller F → Attempt F) (indices : List ℤ) :
    indices.foldl (fun attempt idx => attempt.andThen (part idx)) attempt = attempt := by
  induction indices with
  | nil => rfl
  | cons idx indices ih => rw [List.foldl_cons, andThen_of_raised h, ih]

theorem Attempt.orElse_succeeds {c : Controller F} {result : Option (Controller F)} :
    (Attempt.orElse c result).raised = false ↔
      result = some (Attempt.orElse c result).controller := by
  cases result <;> simp [orElse, ok]

/-- What is given to an update from outside. -/
structure UpdateInput (F : Type) where
  /-- whether a timer with this period can be created -/
  acceptsTimer : F → Bool
  /-- the plan of the strategy; raises without one -/
  plan : Option (Plan F)

section

variable [PyText F] [PyFloat F]

/-- `_as_bool`. -/
def asBool (value : Json F) (default : Bool) : Bool :=
  match value with
  | .bool b => b
  | .null => default
  | .int n => n ≠ 0
  | .float x => PyText.truthy x
  -- lists and mappings are compared by their text, like strings
  | value =>
      let text := PyText.lower F (PyText.strip F value.toText)
      if text ∈ ["1", "true", "yes", "y", "on"] then true
      else if text ∈ ["0", "false", "no", "n", "off"] then false
      else default

/-- The part of a text after its last underscore (`text.split("_")[-1]`). -/
def afterUnderscore (text : String) : String :=
  .ofList (text.toList.reverse.takeWhile (· ≠ '_')).reverse

/-- The mapping under a key, or the empty one. -/
def mappingAt (d : Dict String (Json F)) (key : String) : Dict String (Json F) :=
  ((d.get? key).bind Json.dict?).getD .empty

/-- The keys of revision metadata that hold hashes. -/
def isHashKey (key : String) : Bool := "_hash".toList <:+ key.toList

end

namespace Fleet

section

variable [PyText F] [PyFloat F]

/-- The index that a drone record names. -/
def specIndex (spec : Dict String (Json F)) : ℤ :=
  let default : Json F :=
    match spec.get? "id" with
    | some (.str id) => .str (afterUnderscore id)
    | _ => .int 0
  RelayChain.asInt (spec.getD "index" default) 0

/-- The drone records of an update by index; of two records with one index the later counts. -/
def specsByIndex (requested : ℤ) (specs : Option (List (Json F))) :
    Dict ℤ (Dict String (Json F)) :=
  ((specs.getD []).filterMap Json.dict?).foldl (fun byIndex spec =>
    let idx := specIndex spec
    if 1 ≤ idx ∧ idx ≤ requested then byIndex.set idx spec else byIndex) .empty

/-- Remove the drones beyond the requested number. -/
def prune (fleet : Fleet F) (requested : ℤ) : Fleet F :=
  { fleet with
    failedIndices := fleet.failedIndices.filter fun idx => !(fleet.known idx && requested < idx)
    drones := fleet.drones.restrict fun idx => idx ≤ requested }

/-- The role in a drone record, with the role by index when it has none. -/
def specRole (spec : Dict String (Json F)) (limit idx : ℤ) : Json F :=
  spec.getD "role" (.str (if idx ≤ limit then "relay" else "standby"))

/-- The role that an update gives to a drone. -/
def updatedRole (spec : Dict String (Json F)) (limit idx : ℤ) : String :=
  let role := PyText.lower F (specRole spec limit idx).toText
  if role ∈ ["relay", "standby"] then role else "relay"

/-- Whether an update says that a drone has failed. -/
def updatedFailed (fleet : Fleet F) (spec : Dict String (Json F)) (idx : ℤ) : Bool :=
  asBool (spec.getD "failed" .null) (idx ∈ fleet.failedIndices)

/-- The position in a drone record, when it is a list that begins with three numbers. -/
def specPosition (spec : Dict String (Json F)) : Option (Vec3 F) :=
  match spec.get? "position" with
  | some (.arr values) => pointOf values
  | _ => none

/-- Move a drone to the position of its record. A drone that has not sent a pose is there at
once. -/
def place (drone : Drone F) (position : Option (Vec3 F)) : Drone F :=
  match position with
  | none => drone
  | some position =>
      { drone with
        initialPosition := position
        desiredPosition := position
        currentPosition := if drone.posed then drone.currentPosition else position }

/-- A drone that exists, with what its record in an update says. -/
def updatedDrone (fleet : Fleet F) (spec : Dict String (Json F)) (limit idx : ℤ) (drone : Drone F) :
    Drone F :=
  let role := updatedRole spec limit idx
  let failed := fleet.updatedFailed spec idx
  -- an invalid position leaves the drone where it is
  { place drone (specPosition spec) with
    role
    integrated := spec.getBool "active" true && role ≠ "standby" && !failed
    failed
    -- an empty id counts as none
    droneId := (((spec.get? "id").filter Json.truthy).map Json.toText).getD drone.droneId
    antennaGain :=
      ((spec.get? "antenna_gain_dbi").map (asFloat · drone.antennaGain)).getD drone.antennaGain
    antennaName := ((spec.get? "antenna_name").map Json.toText).getD drone.antennaName
    batteryPct := ((spec.get? "battery_pct").map fun value => PyFloat.max 0.0
      (PyFloat.min 100.0 (asFloat value drone.batteryPct))).getD drone.batteryPct }

/-- Take over the record of a drone that exists. -/
def takeSpec (fleet : Fleet F) (spec : Dict String (Json F)) (limit idx : ℤ) : Fleet F :=
  { fleet.modify idx (fleet.updatedDrone spec limit idx) with
    failedIndices :=
      if fleet.updatedFailed spec idx then fleet.failedIndices.insert idx
      else fleet.failedIndices.filter (· ≠ idx) }

/-- Take over the failed indices of an update. -/
def takeFailedIndices (fleet : Fleet F) (raw : Json F) : Fleet F :=
  -- anything but a list counts as an empty one
  let values := match raw with
    | .arr values => values
    | _ => []
  let requested := (values.filterMap Json.toInt?).filter fun idx =>
    1 ≤ idx ∧ idx ≤ fleet.droneCount
  { fleet with
    failedIndices := requested.dedup
    drones := fleet.drones.mapValues fun idx drone =>
      { drone with
        failed := idx ∈ requested
        integrated := drone.role ≠ "standby" ∧ idx ∉ requested } }

/-- The mode of an update, unless it is missing or unknown. -/
def updatedMode (fleet : Fleet F) (payload : Dict String (Json F)) : String :=
  let topology := mappingAt payload "topology"
  match payload.getD "transmission_mode" (topology.getD "transmission_mode" .null) with
  | .null => fleet.transmissionMode
  | requested =>
      let mode := PyText.lower F requested.toText
      if mode ∈ RelayChain.transmissionModes then mode else fleet.transmissionMode

/-- The manual branches of an update. -/
def updatedManualBranches (fleet : Fleet F) (payload : Dict String (Json F)) : List (List ℤ) :=
  let topology := mappingAt payload "topology"
  match (payload.get? "manual_branches").or (topology.get? "manual_branches") with
  | none => fleet.manualBranches
  | some branches =>
      RelayChain.sanitizeRows fleet.droneCount [] (RelayChain.rawBranches branches)

/-- A text of the topology, which is looked up in the update before its topology. -/
def updatedTopologyText (payload : Dict String (Json F)) (key current : String) : String :=
  (((payload.get? key).or ((mappingAt payload "topology").get? key)).map Json.toText).getD current

/-- Take over the topology of an update. There are at most as many branches as relays. -/
def takeTopology (fleet : Fleet F) (payload : Dict String (Json F)) : Fleet F :=
  let branchCount :=
    match payload.get? "branch_count" with
    | some value => max 1 (RelayChain.asInt value fleet.branchCount)
    | none => fleet.branchCount
  { fleet with
    branchCount := max 1 (min branchCount (max 1 fleet.relayCount))
    transmissionMode := fleet.updatedMode payload
    manualBranches := fleet.updatedManualBranches payload
    forwardingPolicy := updatedTopologyText payload "forwarding_policy" fleet.forwardingPolicy
    queueModel := updatedTopologyText payload "queue_model" fleet.queueModel }

end

section

variable [PyText F] [PyTrig F]

/-- `_default_position_for_index`; raises when the heading is infinite. -/
def defaultPosition (settings : Settings F) (droneCount idx : ℤ) : Option (Vec3 F) := do
  let theta := PyTrig.radians settings.directionDeg
  let dx ← PyTrig.cos theta
  let dy ← PyTrig.sin theta
  let spacing ← PyFloat.div settings.coverageRadius (← PyFloat.ofInt (max 1 droneCount))
  let along := spacing * (← PyFloat.ofInt idx)
  let sign : F := if idx % 2 = 0 then 1.0 else -1.0
  let lateral := sign * PyFloat.min (settings.coverageWidth * 0.18) 10.0
  let alpha ← PyFloat.div (← PyFloat.ofInt (idx - 1)) (← PyFloat.ofInt (max 1 (droneCount - 1)))
  return {
    x := settings.stationPosition.x + dx * along + -dy * lateral
    y := settings.stationPosition.y + dy * along + dx * lateral
    z := settings.altitudeStart + (settings.altitudeEnd - settings.altitudeStart) * alpha }

/-- The position of a new drone: `float` of the first three items of what its record holds. A
record whose position is no list of three numbers raises. -/
def newPosition (settings : Settings F) (droneCount idx : ℤ) (spec : Dict String (Json F)) :
    Option (Vec3 F) := do
  let default ← defaultPosition settings droneCount idx
  match spec.get? "position" with
  | none => return default
  | some (.arr values) => pointOf values
  | some (.str text) => pointOf (text.toList.map fun c => .str c.toString)
  | some _ => none

/-- A drone that is new to the inventory; raises when it has no position. -/
def newDrone (settings : Settings F) (droneCount : ℤ) (spec : Dict String (Json F)) (limit idx : ℤ) :
    Option (Drone F) := do
  let position ← newPosition settings droneCount idx spec
  -- the role is taken as it is written, and checked later
  let role := (specRole spec limit idx).toText
  let battery := PyFloat.max 10.0 (100.0 - (← PyFloat.ofInt idx) * 1.5)
  return {
    role
    integrated := role ≠ "standby"
    failed := false
    droneId := spec.getText "id" (droneNode idx)
    initialPosition := position
    currentPosition := position
    desiredPosition := position
    batteryPct := asFloat (spec.getD "battery_pct" .null) battery
    antennaGain := asFloat (spec.getD "antenna_gain_dbi" .null) 4.0
    antennaName := spec.getText "antenna_name" settings.radio.uavAntennaName
    posed := false }

/-- `_ensure_drone`. -/
def ensureDrone (fleet : Fleet F) (settings : Settings F) (spec : Dict String (Json F))
    (limit idx : ℤ) : Option (Fleet F) :=
  if fleet.known idx then some fleet
  else do
    let drone ← newDrone settings fleet.droneCount spec limit idx
    return { fleet with drones := fleet.drones.set idx drone }

end

end Fleet

namespace Settings

variable [PyText F] [PyFloat F]

/-- A number of an update that has no lower bound. -/
def updatedFloat (payload : Dict String (Json F)) (key : String) (current : F) : F :=
  match payload.get? key with
  | some value => asFloat value current
  | none => current

/-- A number of an update with a lower bound. -/
def updatedFloatFrom (payload : Dict String (Json F)) (key : String) (minimum current : F) : F :=
  match payload.get? key with
  | some value => PyFloat.max minimum (asFloat value current)
  | none => current

/-- Take over the name of the experiment, unless it is empty. -/
def takeName (s : Settings F) (payload : Dict String (Json F)) : Settings F :=
  { s with
    experimentName :=
      (((payload.get? "experiment_name").filter Json.truthy).map Json.toText).getD s.experimentName }

/-- Take over the numbers. -/
def takeNumbers (s : Settings F) (payload : Dict String (Json F)) : Settings F :=
  let maxSingleHopRange :=
    updatedFloatFrom payload "max_single_hop_range_m" 1.0 s.maxSingleHopRange
  let hardOutageRange :=
    updatedFloatFrom payload "hard_outage_range_m" maxSingleHopRange s.hardOutageRange
  { s with
    coverageRadius := updatedFloatFrom payload "coverage_radius_m" 1.0 s.coverageRadius
    coverageWidth := updatedFloatFrom payload "coverage_width_m" 1.0 s.coverageWidth
    directionDeg := updatedFloat payload "direction_deg" s.directionDeg
    altitudeStart := updatedFloat payload "altitude_start_m" s.altitudeStart
    altitudeEnd := updatedFloat payload "altitude_end_m" s.altitudeEnd
    maxSingleHopRange
    -- no hop that is out of range for good is within the range of a single hop
    hardOutageRange :=
      if PyFloat.lt hardOutageRange maxSingleHopRange then maxSingleHopRange else hardOutageRange
    allowDegradedForwarding := ((payload.get? "allow_degraded_forwarding").map
      (asBool · s.allowDegradedForwarding)).getD s.allowDegradedForwarding
    distancePenalty := updatedFloatFrom payload "distance_penalty_db_per_m_after_soft_range" 0.0
      s.distancePenalty
    standbyActivationRadius :=
      updatedFloatFrom payload "standby_activation_radius_m" 1.0 s.standbyActivationRadius
    movementAmplitude := updatedFloatFrom payload "movement_amplitude_m" 0.0 s.movementAmplitude
    movementSpeed := updatedFloatFrom payload "movement_speed" 0.05 s.movementSpeed
    visualFollowAlpha := updatedFloatFrom payload "visual_follow_alpha" 0.02 s.visualFollowAlpha
    windSpeed := updatedFloatFrom payload "wind_speed_mps" 0.0 s.windSpeed
    windDirection := updatedFloat payload "wind_direction_deg" s.windDirection
    turbulenceIntensity := updatedFloatFrom payload "turbulence_intensity" 0.0 s.turbulenceIntensity }

/-- Take over the period of the timer. -/
def takePeriod (s : Settings F) (payload : Dict String (Json F)) : Settings F :=
  { s with hopPeriod := updatedFloatFrom payload "hop_period_s" 0.05 s.hopPeriod }

/-- The movement pattern of an update, unless it is missing or unknown. -/
def updatedPattern (s : Settings F) (payload : Dict String (Json F)) : String :=
  let pattern := PyText.lower F (payload.getText "movement_pattern" s.movementPattern)
  if (payload.get? "movement_pattern").isSome ∧ pattern ∈ validMovementPatterns then pattern
  else s.movementPattern

/-- Take over the radio. -/
def takeRadio (r : Radio F) (radio : Dict String (Json F)) : Radio F where
  frequency := updatedFloat radio "frequency_hz" r.frequency
  bandwidth := updatedFloat radio "bandwidth_hz" r.bandwidth
  txPower := updatedFloat radio "tx_power_dbm" r.txPower
  noiseFloor := updatedFloat radio "noise_floor_dbm" r.noiseFloor
  minSnr := updatedFloat radio "min_snr_db" r.minSnr
  requiredCapacity := updatedFloat radio "required_capacity_mbps" r.requiredCapacity
  stationAntennaName := radio.getText "station_antenna_name" r.stationAntennaName
  uavAntennaName := radio.getText "uav_antenna_name" r.uavAntennaName
  antennaModel := radio.getText "antenna_model" r.antennaModel

/-- The list under a key of an update, if it is one. -/
def updatedList (payload : Dict String (Json F)) (key : String) (current : List (Json F)) :
    List (Json F) :=
  match payload.get? key with
  | some (.arr items) => items
  | _ => current

/-- Take over the movement pattern, the radio, the station, the antennas and the worlds. A block that
is no object says nothing. -/
def takeEquipment (s : Settings F) (payload : Dict String (Json F)) : Settings F :=
  let station := mappingAt payload "station"
  { s with
    movementPattern := s.updatedPattern payload
    radio := takeRadio s.radio (mappingAt payload "radio")
    stationPosition := (Fleet.specPosition station).getD s.stationPosition
    stationAntennaName := station.getText "antenna_name" s.stationAntennaName
    stationAntennaGain := updatedFloat station "antenna_gain_dbi" s.stationAntennaGain
    antennas := updatedList payload "antennas" s.antennas
    worlds := updatedList payload "worlds" s.worlds }

end Settings

namespace Controller

variable [PyText F] [PyTrig F]

/-- The revision that an update belongs to. -/
def updatedRevision (c : Controller F) (payload : Dict String (Json F)) : AppliedRevision F :=
  let metadata := mappingAt payload "_netlab_revision"
  -- without a revision the one applied last stays
  if metadata.entries = [] then c.revision
  else
    { revisionId := metadata.getText "revision_id" c.revision.revisionId
      parentRevisionId := metadata.getText "parent_revision_id" c.revision.parentRevisionId
      hashes := metadata.restrict isHashKey
      commandId := metadata.getText "command_id" c.revision.commandId }

/-- The numbers of drones and relays that an update asks for. -/
def requestedCounts (c : Controller F) (payload : Dict String (Json F)) : ℤ × ℤ :=
  let relay := (payload.get? "relay_count").map fun value =>
    max 1 (RelayChain.asInt value c.fleet.relayCount)
  let standby := (payload.get? "standby_count").map fun value =>
    max 0 (RelayChain.asInt value c.fleet.standbyCount)
  let total :=
    match payload.get? "drone_count" with
    | some value => max 1 (RelayChain.asInt value c.fleet.droneCount)
    | none =>
        -- either count alone changes the total
        if relay.isSome || standby.isSome then
          max 1 (relay.getD c.fleet.relayCount + standby.getD c.fleet.standbyCount)
        else c.fleet.droneCount
  -- a total on its own asks for relays only
  (total, relay.getD (match standby with
    | none => total
    | some standby => max 1 (total - standby)))

/-- `_sync_drone_inventory` before its loop over the drones. -/
def resize (c : Controller F) (requested limit : ℤ) : Controller F :=
  { c with
    fleet := { c.fleet.prune requested with
      droneCount := requested
      relayCount := limit
      standbyCount := max 0 (requested - limit) }
    pendingFailure :=
      if c.pendingFailure.any fun failure => requested < failure.droneIndex then none
      else c.pendingFailure }

/-- The loop of `_sync_drone_inventory` for one drone. -/
def syncDrone (c : Controller F) (specs : Dict ℤ (Dict String (Json F))) (limit idx : ℤ) :
    Attempt F :=
  let spec := (specs.get? idx).getD .empty
  .orElse c do
    let fleet ← c.fleet.ensureDrone c.settings spec limit idx
    return { c with fleet := fleet.takeSpec spec limit idx }

/-- `_sync_drone_inventory`. -/
def syncInventory (c : Controller F) (total relay : ℤ) (specs : Option (List (Json F))) :
    Attempt F :=
  let requested := max 1 total
  let limit := max 1 (min requested relay)
  let byIndex := Fleet.specsByIndex requested specs
  (RelayChain.missionIndices requested).foldl
    (fun attempt idx => attempt.andThen fun c => c.syncDrone byIndex limit idx)
    (.ok (c.resize requested limit))

/-- The drone records of an update, when they are a list. -/
def droneSpecs (payload : Dict String (Json F)) : Option (List (Json F)) :=
  match payload.get? "drones" with
  | some (.arr items) => some items
  | _ => none

/-- Take over the failed indices and the topology. -/
def takeTopology (c : Controller F) (payload : Dict String (Json F)) : Controller F :=
  let fleet :=
    match payload.get? "failed_indices" with
    | some raw => c.fleet.takeFailedIndices raw
    | none => c.fleet
  { c with fleet := fleet.takeTopology payload }

/-- Change the settings. -/
def adjust (c : Controller F) (change : Settings F → Settings F) : Controller F :=
  { c with settings := change c.settings }

/-- Take over the revision and the name of the experiment. -/
def takeHeader (c : Controller F) (payload : Dict String (Json F)) : Controller F :=
  { c with revision := c.updatedRevision payload }.adjust (·.takeName payload)

/-- Restart the timer; raises when no timer with the period can be created. The new period is
written by then. -/
def restartTimer (c : Controller F) (payload : Dict String (Json F)) (acceptsTimer : F → Bool) :
    Attempt F :=
  let c := c.adjust (·.takePeriod payload)
  { controller := c
    raised := (payload.get? "hop_period_s").isSome && !acceptsTimer c.settings.hopPeriod }

/-- `_update_config_cb` for a message that is JSON text. A payload that is no object raises. -/
def updateConfig (c : Controller F) (payload : Json F) (input : UpdateInput F) : Attempt F :=
  match payload.dict? with
  | none => { controller := c, raised := true }
  | some payload =>
      let c := c.takeHeader payload
      let (total, relay) := c.requestedCounts payload
      -- each part that raises leaves what the parts before it have written
      (((c.syncInventory total relay (droneSpecs payload)).andThen fun c =>
        ((c.takeTopology payload).adjust (·.takeNumbers payload)).restartTimer payload
          input.acceptsTimer).andThen fun c =>
            let c := c.adjust (·.takeEquipment payload)
            .orElse c.interrupted (c.recompute true input.plan))

/-- What holds of the state before, and when the record of a drone was taken over, holds where the
turn of the drone ended. -/
theorem syncDrone_keeps (P : Controller F → Prop) {c : Controller F}
    {specs : Dict ℤ (Dict String (Json F))} {limit idx : ℤ} (h : P c)
    (hfleet : ∀ fleet, c.fleet.ensureDrone c.settings ((specs.get? idx).getD .empty) limit idx =
      some fleet → P { c with fleet := fleet.takeSpec ((specs.get? idx).getD .empty) limit idx }) :
    P (c.syncDrone specs limit idx).controller := by
  refine Attempt.orElse_keeps P h fun c' hc' => ?_
  simp only [bind, pure, Option.bind_eq_some_iff, Option.some.injEq] at hc'
  obtain ⟨fleet, hensured, rfl⟩ := hc'
  exact hfleet fleet hensured

/-- What the loop over the drones keeps holds where it ended. -/
theorem syncInventory_keeps (P : Controller F → Prop) {c : Controller F} {total relay : ℤ}
    {specs : Option (List (Json F))}
    (hresize : P (c.resize (max 1 total) (max 1 (min (max 1 total) relay))))
    (hsync : ∀ c idx, 1 ≤ idx → idx ≤ max 1 total → P c →
      P (c.syncDrone (Fleet.specsByIndex (max 1 total) specs)
        (max 1 (min (max 1 total) relay)) idx).controller) :
    P (c.syncInventory total relay specs).controller := by
  have hloop : ∀ indices : List ℤ, (∀ idx ∈ indices, 1 ≤ idx ∧ idx ≤ max 1 total) →
      ∀ attempt : Attempt F, P attempt.controller →
        P (indices.foldl (fun attempt idx => attempt.andThen fun c =>
          c.syncDrone (Fleet.specsByIndex (max 1 total) specs)
            (max 1 (min (max 1 total) relay)) idx) attempt).controller := by
    intro indices
    induction indices with
    | nil => exact fun _ _ h => h
    | cons idx indices ih =>
        intro hindices attempt h
        obtain ⟨hlow, hhigh⟩ := hindices idx List.mem_cons_self
        exact ih (fun i hi => hindices i (List.mem_cons_of_mem _ hi)) _
          (attempt.andThen_keeps P h fun c hc => hsync c idx hlow hhigh hc)
  exact hloop _ (fun idx hidx => RelayChain.mem_missionIndices.mp hidx) _ hresize

/-- The settings that an update leads to. -/
def updatedSettings (c : Controller F) (payload : Dict String (Json F)) : Settings F :=
  (((c.settings.takeName payload).takeNumbers payload).takePeriod payload).takeEquipment payload

/-- The state that an update leads to before the positions are recomputed. -/
def configured (c : Controller F) (payload : Dict String (Json F)) : Controller F :=
  let (total, relay) := (c.takeHeader payload).requestedCounts payload
  let synced := ((c.takeHeader payload).syncInventory total relay (droneSpecs payload)).controller
  (((synced.takeTopology payload).adjust (·.takeNumbers payload)).adjust
    (·.takePeriod payload)).adjust (·.takeEquipment payload)

/-- An update that succeeds takes over all parts of the payload and recomputes the positions. -/
theorem updateConfig_succeeds {c : Controller F} {payload : Json F} {input : UpdateInput F}
    (h : (c.updateConfig payload input).raised = false) :
    ∃ d, payload.dict? = some d ∧
      ((c.takeHeader d).syncInventory ((c.takeHeader d).requestedCounts d).1
        ((c.takeHeader d).requestedCounts d).2 (droneSpecs d)).raised = false ∧
      (c.configured d).recompute true input.plan = some (c.updateConfig payload input).controller := by
  cases hpayload : payload.dict? with
  | none => simp [updateConfig, hpayload] at h
  | some d =>
      simp only [updateConfig, hpayload, Attempt.andThen_succeeds] at h ⊢
      obtain ⟨⟨hsynced, htimer⟩, hrecompute⟩ := h
      refine ⟨d, rfl, hsynced, ?_⟩
      rw [Attempt.andThen_of_succeeds hsynced] at hrecompute ⊢
      rw [Attempt.andThen_of_succeeds htimer]
      exact Attempt.orElse_succeeds.mp hrecompute

end Controller

end Netlab
