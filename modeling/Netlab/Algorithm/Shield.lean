import Netlab.Algorithm.Contracts
import Netlab.Link.Gate
import Netlab.Prelude.Motion

/-!
# The safety shield

`apply_safety_shield` of `netlab/safety_shield.py`. An action is validated, the positions that it
asks for are projected into the service region and into what a UAV can fly in one update, and the
result is checked: separation, battery, and the links of the topology at the proposed positions. An
exception is `none`.

The wall clock is read by `validate`, and for each edge of the preview by the link computation and
by the gate: `now` and `stamps` are what is read.
-/

namespace Netlab

variable {F : Type}

/-- Something that the shield has against an action. -/
structure ShieldIssue (F : Type) where
  code : String
  severity : String
  message : String
  entity : String := ""
  measured : Json F := .null
  limit : Json F := .null
  correction : Json F := .null

namespace ShieldIssue

/-- `to_dict`. -/
def toDict (issue : ShieldIssue F) : Json F :=
  .obj [("code", .str issue.code), ("severity", .str issue.severity),
    ("message", .str issue.message), ("entity", .str issue.entity),
    ("measured", issue.measured), ("limit", issue.limit), ("correction", issue.correction)]

/-- Whether an issue rejects the action. -/
def isError (issue : ShieldIssue F) : Bool := issue.severity = "ERROR"

end ShieldIssue

/-- What is read from the clock for one edge of the preview, with the identifier that is drawn for
its metric. -/
structure LinkStamp (F : Type) where
  freshId : String
  computedAt : F
  decidedAt : F

/-- The preview of one edge. Without an outcome an end point is missing. -/
structure LinkPreview (F : Type) where
  src : String
  dst : String
  outcome : Option (LinkMetrics F × FeasibilityDecision F)

namespace LinkPreview

/-- Whether the edge is feasible. -/
def feasible (preview : LinkPreview F) : Bool :=
  preview.outcome.any fun outcome => outcome.2.feasible

/-- The reason that is given for an edge. -/
def reason (preview : LinkPreview F) : String :=
  match preview.outcome with
  | some outcome => outcome.2.reason.value
  | none => "MISSING_ENDPOINT"

end LinkPreview

/-- What the shield decides. The action is missing where the shield returns the empty one. -/
structure ShieldDecision (F : Type) where
  accepted : Bool
  action : Option (AlgorithmAction F)
  issues : List (ShieldIssue F) := []
  projected : Bool := false
  fallbackApplied : Bool := false
  fallback : String := ""
  linkPreview : List (LinkPreview F) := []
  sourceRevisionId : String

/-- Positions by entity. -/
def positionsJson (positions : Dict String (Vec3 F)) : Json F :=
  .obj (positions.entries.map fun e => (e.1, e.2.toJson))

/-- Positions can be read off what is sent. -/
theorem positionsJson_injective {positions positions' : Dict String (Vec3 F)}
    (h : positionsJson positions = positionsJson positions') : positions = positions' := by
  rw [positionsJson, positionsJson, Json.obj.injEq] at h
  refine Dict.ext (List.map_injective_iff.mpr ?_ h)
  rintro ⟨k, x, y, z⟩ ⟨k', x', y', z'⟩ heq
  simpa [Vec3.toJson] using heq

section

variable [PyText F] [PyFloat F]

/-! ## The fleet -/

/-- The UAVs of a snapshot by identifier (`_uav_map`). -/
def uavMap (snapshot : Dict String (Json F)) : Option (Dict String (Dict String (Json F))) :=
  let value := snapshot.getD "uavs" (.arr [])
  match value.dict? with
  | some items => some (items.filterMap fun _ item => item.dict?)
  | none => do
      return .ofList ((← value.elements?).filterMap fun item => do
        let item ← item.dict?
        let id := item.getD "id" .null
        if id.truthy then some (id.toText, item) else none)

/-- Whether a UAV is active and has not failed. -/
def isOperational (item : Dict String (Json F)) : Bool :=
  item.getBool "active" true && !item.getBool "failed" false

/-- The operational UAVs. -/
def operationalUavs (uavs : Dict String (Dict String (Json F))) :
    Dict String (Dict String (Json F)) :=
  uavs.filterMap fun _ item => if isOperational item then some item else none

omit [PyFloat F] in
theorem get?_operationalUavs {uavs : Dict String (Dict String (Json F))} {id : String}
    {item : Dict String (Json F)} : (operationalUavs uavs).get? id = some item ↔
      uavs.get? id = some item ∧ isOperational item = true := by
  rw [operationalUavs, Dict.get?_filterMap, Option.bind_eq_some_iff]
  constructor
  · rintro ⟨item', hitem, hkept⟩
    split at hkept
    · rename_i hoperational
      obtain rfl := Option.some.inj hkept
      exact ⟨hitem, hoperational⟩
    · simp at hkept
  · rintro ⟨hitem, hoperational⟩
    exact ⟨item, hitem, if_pos hoperational⟩

/-- A list of at least three items. -/
def longList? : Json F → Option (List (Json F))
  | .arr items => if 3 ≤ items.length then some items else none
  | _ => none

/-- The first three items of a list as numbers. -/
def firstThree? : List (Json F) → Option (Vec3 F)
  | x :: y :: z :: _ => do return ⟨← x.toFloat?, ← y.toFloat?, ← z.toFloat?⟩
  | _ => none

/-- The keys under which the position of a UAV is looked for. -/
def positionKeys : List String :=
  ["measured_position", "simulated_position", "position", "commanded_position",
    "desired_position"]

/-- The position of a UAV (`_current_position`). -/
def currentPosition (item : Dict String (Json F)) : Option (Vec3 F) :=
  match positionKeys.findSome? fun key => longList? (item.getD key .null) with
  | some raw => firstThree? raw
  | none => some ⟨0.0, 0.0, 0.0⟩

/-- The current position of each operational UAV (`_fallback_positions`). -/
def fallbackPositions (uavs : Dict String (Dict String (Json F))) : Option (Dict String (Vec3 F)) :=
  (operationalUavs uavs).traverse fun _ item => currentPosition item

/-- The positions at which separation and links are evaluated: of every operational UAV the one it
is told to go to, or else its own. -/
def completePositions (uavs : Dict String (Dict String (Json F)))
    (normalized : Dict String (Vec3 F)) : Option (Dict String (Vec3 F)) :=
  (operationalUavs uavs).traverse fun uavId item => do
    let current ← currentPosition item
    return (normalized.get? uavId).getD current

/-- A vector in ENU, or the message of the error (`_enu`). -/
def enu (vector : Vec3 F) (frame : String) : Except String (Vec3 F) :=
  if frame = "ENU" ∨ frame = "ISAAC_STAGE" then .ok vector
  else if frame = "NED" then .ok ⟨vector.y, vector.x, -vector.z⟩
  else .error (s!"The safety shield cannot project frame {PyText.quote F frame} into ENU without " ++
    "a configured transform.")

/-! ## Limits -/

/-- The box of the service region. -/
structure ServiceBounds (F : Type) where
  minX : F
  maxX : F
  minY : F
  maxY : F
  minAlt : F
  maxAlt : F

/-- `_service_bounds`. -/
def serviceBounds (config : Dict String (Json F)) : Option (ServiceBounds F) := do
  let region := Experiment.mappingOrEmpty config "service_region"
  let center := region.getD "center" (.arr [.float 0.0, .float 0.0, .float 0.0])
  let cx ← (← center.item? 0).toFloat?
  let cy ← (← center.item? 1).toFloat?
  let length := PyFloat.max 1.0 (← region.getFloat "length_m" 1000.0)
  let width := PyFloat.max 1.0 (← region.getFloat "width_m" 1000.0)
  -- without a region the altitude is as good as unbounded
  let minAlt ← region.getFloat "min_altitude_m" (-1e6)
  let maxAlt ← region.getFloat "max_altitude_m" 1e6
  let halfLength ← PyFloat.div length 2.0
  let halfWidth ← PyFloat.div width 2.0
  return {
    minX := cx - halfLength, maxX := cx + halfLength
    minY := cy - halfWidth, maxY := cy + halfWidth
    minAlt, maxAlt }

/-- What the configuration allows a UAV. -/
structure ShieldLimits (F : Type) where
  updateRateHz : F
  maxVertical : F
  maxDistance : F
  minSeparation : F
  bounds : ServiceBounds F
  geofenceEnabled : Bool

/-- Read the limits. -/
def shieldLimits (config : Dict String (Json F)) : Option (ShieldLimits F) := do
  let swarm := Experiment.mappingOrEmpty config "swarm"
  let controller ← Experiment.section? swarm "controller"
  let updateRateHz := PyFloat.max 0.1 (← controller.getFloat "update_rate_hz" 10.0)
  let maxSpeed := PyFloat.max 0.01 (← swarm.getFloat "max_horizontal_speed_mps" 12.0)
  let maxVertical := PyFloat.max 0.01 (← swarm.getFloat "max_vertical_speed_mps" 4.0)
  -- the way a drone can go until the next update
  let maxDistance ← PyFloat.div maxSpeed updateRateHz
  let minSeparation := PyFloat.max 0.0 (← swarm.getFloat "minimum_separation_m" 4.0)
  let bounds ← serviceBounds config
  let region ← Experiment.section? config "service_region"
  return {
    updateRateHz, maxVertical, maxDistance, minSeparation, bounds
    geofenceEnabled := region.getBool "geofence_enabled" false }

/-- `_clamp`. -/
def clamp (value lower upper : F) : F := PyFloat.max lower (PyFloat.min upper value)

/-! ## Links -/

/-- The gain and the cable loss of an entity's antenna (`_antenna_gain`). -/
def antennaGain (config : Dict String (Json F)) (entityId : String) : Option (F × F) := do
  let antennas := Experiment.mappingOrEmpty config "antennas"
  let assignments := Experiment.mappingOrEmpty antennas "assignments"
  let items ← (antennas.getD "definitions" (.arr [])).elements?
  let definitions : Dict String (Dict String (Json F)) := .ofList (items.filterMap fun item => do
    let item ← item.dict?
    -- of two antennas with one id the later one counts
    let id := item.getD "id" .null
    if id.truthy then some (id.toText, item) else none)
  let definition := (definitions.get? (assignments.getText entityId "")).getD .empty
  return (← definition.getFloat "gain_dbi" 0.0, ← definition.getFloat "cable_loss_db" 0.0)

/-- The link request of the preview between two positions. -/
def previewRequest (config : Dict String (Json F)) (src dst : String)
    (txPosition rxPosition : Json F) : Option (LinkRequest F) := do
  let communication := Experiment.mappingOrEmpty config "communication"
  let tx ← antennaGain config src
  let rx ← antennaGain config dst
  let experiment ← Experiment.section? config "experiment"
  return {
    src, dst, txPosition, rxPosition
    frequencyHz := ← communication.getFloat "carrier_frequency_hz" 3.5e9
    bandwidthHz := ← communication.getFloat "bandwidth_hz" 20e6
    txPowerDbm := ← communication.getFloat "tx_power_dbm" 23.0
    receiverNoiseFigureDb := ← communication.getFloat "receiver_noise_figure_db" 7.0
    implementationLossDb := ← communication.getFloat "implementation_loss_db" 2.0
    txGainDbi := tx.1
    rxGainDbi := rx.1
    txCableLossDb := tx.2
    rxCableLossDb := rx.2
    pathLossExponent := ← communication.getFloat "path_loss_exponent" 2.0
    shadowingSigmaDb := ← communication.getFloat "shadowing_sigma_db" 0.0
    interferenceMarginDb := ← communication.getFloat "interference_margin_db" 0.0
    model := communication.getText "fallback_model" "free_space"
    spectralEfficiencyFactor := ← communication.getFloat "spectral_efficiency_factor" 0.75
    seed := ← (experiment.getD "seed" (.int 0)).toInt?
    -- the other fields of a request keep their defaults
    referenceDistanceM := 1.0
    atmosphericLossDb := 0.0
    rainLossDb := 0.0
    foliageLossDb := 0.0
    clutterLossDb := 0.0
    blockageLossDb := 0.0
    polarizationLossDb := 0.0
    miscellaneousLossDb := 0.0
    requestId := "" }

/-- The thresholds of the preview. -/
def previewThresholds (config : Dict String (Json F)) : Option (GateThresholds F) := do
  let communication := Experiment.mappingOrEmpty config "communication"
  return {
    operationalRangeM := ← communication.getFloat "operational_range_m" 90.0
    hardOutageDistanceM := ← communication.getFloat "hard_outage_distance_m" 220.0
    minSnrDb := ← communication.getFloat "min_snr_db" 3.0
    minSinrDb := some (← communication.getFloatOr "min_sinr_db" "min_snr_db" 3.0)
    minCapacityMbps := ← communication.getFloat "min_capacity_mbps" 1.0
    metricTtlS := ← communication.getFloat "metric_ttl_s" 2.0 }

/-- The identifier of the station. -/
def stationId (config : Dict String (Json F)) : String :=
  (Experiment.mappingOrEmpty config "station").getText "id" "station"

/-- The positions of the station and of the UAVs. -/
def entityPositions (positions : Dict String (Vec3 F)) (config : Dict String (Json F)) :
    Dict String (Json F) :=
  let position := (Experiment.mappingOrEmpty config "station").getD "position"
    (.arr [.float 0.0, .float 0.0, .float 0.0])
  (Dict.empty.set (stationId config) position).update (positions.map fun _ p => p.toJson)

/-- The record of an entity: the station's, or that of a UAV. -/
def entityItem (config : Dict String (Json F)) (uavs : Dict String (Dict String (Json F)))
    (entityId : String) : Dict String (Json F) :=
  if entityId = stationId config then Experiment.mappingOrEmpty config "station"
  else (uavs.get? entityId).getD .empty

/-- What the gate is told about two entities. -/
def previewEndpoints (config : Dict String (Json F)) (uavs : Dict String (Dict String (Json F)))
    (src dst : String) : LinkEndpoints where
  sourceActive := (entityItem config uavs src).getBool "active" true
  destinationActive := (entityItem config uavs dst).getBool "active" true
  sourceFailed := (entityItem config uavs src).getBool "failed" false
  destinationFailed := (entityItem config uavs dst).getBool "failed" false

/-- The preview of one edge. -/
def previewEdge (propagation : Propagation F) (stamp : LinkStamp F)
    (positions : Dict String (Vec3 F)) (config : Dict String (Json F))
    (uavs : Dict String (Dict String (Json F))) (src dst : String) : Option (LinkPreview F) :=
  let located := entityPositions positions config
  match located.get? src, located.get? dst with
  | some txPosition, some rxPosition => do
      let request ← previewRequest config src dst txPosition rxPosition
      let metrics ← computeAnalyticalLink propagation stamp.freshId stamp.computedAt request
      let thresholds ← previewThresholds config
      return {
        src, dst
        outcome := some (metrics, evaluateFeasibility (some metrics)
          (previewEndpoints config uavs src dst) thresholds stamp.decidedAt) }
  -- an end without a position makes the edge infeasible
  | _, _ => some { src, dst, outcome := none }

/-- The previews of edges; `stamps` are read from the first edge on. -/
def previewEdges (propagation : Propagation F) (stamps : ℕ → LinkStamp F)
    (positions : Dict String (Vec3 F)) (config : Dict String (Json F))
    (uavs : Dict String (Dict String (Json F))) (edges : List (String × String)) :
    Option (List (LinkPreview F)) :=
  edges.zipIdx.mapM fun (edge, i) =>
    previewEdge propagation (stamps i) positions config uavs edge.1 edge.2

/-- `_connectivity_preview`. -/
def connectivityPreview (propagation : Propagation F) (stamps : ℕ → LinkStamp F)
    (positions : Dict String (Vec3 F)) (config : Dict String (Json F))
    (uavs : Dict String (Dict String (Json F))) : Option (List (LinkPreview F) × Bool) := do
  let edges ← topologyEdges (Experiment.mappingOrEmpty config "topology")
  let results ← previewEdges propagation stamps positions config uavs edges
  return (results, results.all LinkPreview.feasible)

/-! ## Unknown UAVs, separation and battery -/

/-- The issues of the UAVs that are not in the snapshot. -/
def unknownIssues (uavs : Dict String (Dict String (Json F))) (desired : Dict String (Vec3 F)) :
    List (ShieldIssue F) :=
  ((desired.keys.filter fun id => (uavs.get? id).isNone).insertionSort (· ≤ ·)).map fun id => {
    code := "UNKNOWN_ENTITY", severity := "ERROR"
    message := "Algorithm targeted an unknown UAV.", entity := id }

/-- The issues of the pairs of UAVs that are too close. -/
def separationIssues (minSeparation : F) : List (String × Vec3 F) → List (ShieldIssue F)
  | [] => []
  | first :: rest =>
      rest.filterMap (fun second =>
        -- two drones at exactly the minimum are far enough apart
        let distance := first.2.dist second.2
        if PyFloat.lt (distance + 1e-9) minSeparation then
          some {
            code := "MINIMUM_SEPARATION", severity := "ERROR"
            message := "Proposed positions violate minimum separation."
            entity := first.1 ++ "," ++ second.1
            measured := .float distance, limit := .float minSeparation }
        else none) ++ separationIssues minSeparation rest

/-- The state of charge from which on a battery is too low. -/
def batteryReserve (config : Dict String (Json F)) : Option F := do
  let energy ← Experiment.section? (Experiment.mappingOrEmpty config "swarm") "energy"
  energy.getFloat "reserve_soc_pct" 20.0

/-- The issue of a UAV whose battery is too low. -/
def batteryIssue (reserve : F) (uavId : String) (item : Dict String (Json F)) :
    Option (List (ShieldIssue F)) := do
  let soc ← item.getFloat "battery_soc_pct" 100.0
  return if PyFloat.le soc reserve then
    [{ code := "BATTERY_RESERVE", severity := "ERROR"
       message := "UAV battery is at or below reserve state.", entity := uavId
       measured := .float soc, limit := .float reserve }]
  else []

/-- The issues of the commanded UAVs whose battery is too low. -/
def batteryIssues (reserve : F) (uavs : Dict String (Dict String (Json F)))
    (normalized : Dict String (Vec3 F)) : Option (List (ShieldIssue F)) := do
  let issues ← normalized.entries.mapM fun e => do batteryIssue reserve e.1 (← uavs.get? e.1)
  return issues.flatten

/-- The issue of a preview in which an edge is not feasible. -/
def connectivityIssue (linkPreview : List (LinkPreview F)) : ShieldIssue F where
  code := "COMMUNICATION_FEASIBILITY"
  severity := "ERROR"
  message := "Proposed state does not preserve every required active hop."
  measured := .arr ((linkPreview.filter fun preview => !preview.feasible).map fun preview =>
    .str s!"{preview.src}->{preview.dst}:{preview.reason}")
  limit := .str "all required hops feasible"

end

/-! ## Projection -/

section

variable [PyText F] [PyMotion F]

/-- `_project_step`. -/
def projectStep (current target : Vec3 F) (maxDistance : F) : Option (Vec3 F) := do
  let dx := target.x - current.x
  let dy := target.y - current.y
  let dz := target.z - current.z
  let distance := PyMotion.sqrt (PyFloat.sum [dx * dx, dy * dy, dz * dz])
  if PyFloat.le distance maxDistance || PyFloat.le distance 1e-12 then some target
  else do
    let scale ← PyFloat.div maxDistance distance
    return ⟨current.x + dx * scale, current.y + dy * scale, current.z + dz * scale⟩

/-- Where a UAV is told to go, and what the shield has to say about it. -/
structure Commanded (F : Type) where
  issues : List (ShieldIssue F)
  projected : Bool
  position : Option (Vec3 F)

/-- A target in the service region, or at least between the altitudes, with the issue if it was
elsewhere. -/
def clampTarget (limits : ShieldLimits F) (uavId : String) (target : Vec3 F) :
    Vec3 F × List (ShieldIssue F) :=
  let bounds := limits.bounds
  let clippedAlt := clamp target.z bounds.minAlt bounds.maxAlt
  if limits.geofenceEnabled then
    let clipped : Vec3 F := ⟨clamp target.x bounds.minX bounds.maxX,
      clamp target.y bounds.minY bounds.maxY, clippedAlt⟩
    if PyMotion.eq clipped.x target.x && PyMotion.eq clipped.y target.y &&
        PyMotion.eq clipped.z target.z then (target, [])
    else (clipped, [{
      code := "GEOFENCE_PROJECTED", severity := "WARNING"
      message := "Target was projected into the configured service region.", entity := uavId
      measured := target.toJson
      limit := .arr (([bounds.minX, bounds.maxX, bounds.minY, bounds.maxY, bounds.minAlt,
        bounds.maxAlt].map .float))
      correction := clipped.toJson }])
  -- the altitude is bounded even without a geofence
  else if PyMotion.eq clippedAlt target.z then (target, [])
  else (⟨target.x, target.y, clippedAlt⟩, [{
    code := "ALTITUDE_PROJECTED", severity := "WARNING"
    message := "Target altitude was projected into bounds.", entity := uavId
    measured := .float target.z, limit := .arr [.float bounds.minAlt, .float bounds.maxAlt]
    correction := .float clippedAlt }])

/-- A position that can be reached in one update on the way to a target. -/
def stepTowards (limits : ShieldLimits F) (current target : Vec3 F) : Option (Vec3 F) := do
  let stepped ← projectStep current target limits.maxDistance
  let verticalDelta := stepped.z - current.z
  let maxVerticalStep ← PyFloat.div limits.maxVertical limits.updateRateHz
  return if PyFloat.lt maxVerticalStep (PyMotion.abs verticalDelta) then
    { stepped with z := current.z + PyMotion.copysign maxVerticalStep verticalDelta }
  else stepped

/-- Check and project the target of one UAV. -/
def commandUav (limits : ShieldLimits F) (frame uavId : String) (item : Dict String (Json F))
    (target : Vec3 F) : Option (Commanded F) :=
  if !isOperational item then some {
    issues := [{
      code := "INACTIVE_OR_FAILED_ENTITY", severity := "ERROR"
      message := "Algorithm targeted an inactive or failed UAV.", entity := uavId }]
    projected := false, position := none }
  else do
    let current ← currentPosition item
    match enu target frame with
    | .error message => return {
        issues := [{ code := "COORDINATE_FRAME", severity := "ERROR", message, entity := uavId }]
        projected := false, position := none }
    | .ok targetEnu => do
        let (corrected, issues) := clampTarget limits uavId targetEnu
        -- the region first, then the motion: the step may end short of the corrected target
        let stepped ← stepTowards limits current corrected
        let moved := PyFloat.lt 1e-9 (stepped.dist corrected)
        let motionIssues : List (ShieldIssue F) := if moved then [{
          code := "MOTION_PROJECTED", severity := "WARNING"
          message := "Target was projected to the per-update motion envelope.", entity := uavId
          measured := corrected.toJson, limit := .float limits.maxDistance
          correction := stepped.toJson }] else []
        return {
          issues := issues ++ motionIssues
          projected := !issues.isEmpty || moved
          position := some stepped }

/-! ## The decision -/

/-- What the shield has found out about an action whose positions are well formed. -/
structure ShieldReview (F : Type) where
  uavs : Dict String (Dict String (Json F))
  issues : List (ShieldIssue F)
  projected : Bool
  normalized : Dict String (Vec3 F)
  linkPreview : List (LinkPreview F)

/-- Check and project the targets of the UAVs of the snapshot. -/
def commandUavs (limits : ShieldLimits F) (frame : String)
    (uavs : Dict String (Dict String (Json F))) (desired : Dict String (Vec3 F)) :
    Option (Dict String (Commanded F)) :=
  (desired.restrict fun id => (uavs.get? id).isSome).traverse fun id target => do
    commandUav limits frame id (← uavs.get? id) target

/-- Project the desired positions and check what comes out of it. -/
def reviewPositions (propagation : Propagation F) (stamps : ℕ → LinkStamp F)
    (requireConnectivity : Bool) (config : Dict String (Json F)) (frame : String)
    (uavs : Dict String (Dict String (Json F))) (desired : Dict String (Vec3 F)) :
    Option (ShieldReview F) := do
  let limits ← shieldLimits config
  let commands ← commandUavs limits frame uavs desired
  let normalized := commands.filterMap fun _ command => command.position
  -- drones that have no command stay where they are
  let complete ← completePositions uavs normalized
  let lowBattery ← batteryIssues (← batteryReserve config) uavs normalized
  let (linkPreview, connected) ← connectivityPreview propagation stamps complete config uavs
  let ordered := complete.entries.insertionSort fun a b => a.1 ≤ b.1
  return {
    uavs
    issues := unknownIssues uavs desired ++ commands.values.flatMap Commanded.issues ++
      separationIssues limits.minSeparation ordered ++ lowBattery ++
      if requireConnectivity && !connected then [connectivityIssue linkPreview] else []
    projected := commands.values.any Commanded.projected
    normalized, linkPreview }

/-- The name of the configured fallback, where it is read without a look at its sections. -/
def safeFallback (config : Dict String (Json F)) : Option String := do
  let swarm ← Experiment.section? config "swarm"
  let controller ← Experiment.section? swarm "controller"
  return controller.getText "safe_fallback" "hold_position"

/-- The decision when the action is refused before anything is projected. -/
def refuseEarly (config : Dict String (Json F)) (action : AlgorithmAction F)
    (issues : List (ShieldIssue F)) : Option (ShieldDecision F) := do
  return {
    accepted := false, action := none, issues, fallbackApplied := true
    fallback := ← safeFallback config
    sourceRevisionId := action.sourceRevisionId }

/-- The decision about reviewed positions. -/
def concludeReview (config : Dict String (Json F)) (action : AlgorithmAction F)
    (review : ShieldReview F) : Option (ShieldDecision F) := do
  let controller ← Experiment.section? (Experiment.mappingOrEmpty config "swarm") "controller"
  let fallback := controller.getText "safe_fallback" "hold_position"
  let issuesJson : Json F := .arr (review.issues.map ShieldIssue.toDict)
  if review.issues.any ShieldIssue.isError then do
    -- whatever the fallback is called, the fleet holds its position
    let positions ← fallbackPositions review.uavs
    return {
      accepted := false
      action := some { action with
        payload := .ofList [("desired_positions", positionsJson positions)]
        fallback := true
        terminationReason := "safety_shield_rejection"
        explanation := action.explanation.set "shield_issues" issuesJson }
      issues := review.issues, projected := review.projected, fallbackApplied := true, fallback
      linkPreview := review.linkPreview, sourceRevisionId := action.sourceRevisionId }
  else return {
    accepted := true
    action := some { action with
      -- the commands have been converted
      coordinateFrame := "ENU"
      payload := action.payload.set "desired_positions" (positionsJson review.normalized)
      explanation := action.explanation.set "safety_shield" (.obj [
        ("projected", .bool review.projected), ("issues", issuesJson),
        ("link_preview_source", .str "SAFETY_SHIELD_ANALYTICAL_PREVIEW")]) }
    issues := review.issues, projected := review.projected
    linkPreview := review.linkPreview, sourceRevisionId := action.sourceRevisionId }

/-- The decision about an action that is valid by itself. -/
def shieldPositions (propagation : Propagation F) (stamps : ℕ → LinkStamp F)
    (requireConnectivity : Bool) (action : AlgorithmAction F) (config : Dict String (Json F))
    (uavs : Dict String (Dict String (Json F))) : Json F → Option (ShieldDecision F)
  -- an action without positions is let through
  | .null => some {
      accepted := true, action := some action, sourceRevisionId := action.sourceRevisionId }
  | desiredRaw =>
      match normalizeVec3Map "desired_positions" desiredRaw with
      | none => none
      | some (.error message) =>
          refuseEarly config action
            [{ code := "ALGORITHM_OUTPUT_REJECTED", severity := "ERROR", message }]
      | some (.ok desired) => do
          let review ← reviewPositions propagation stamps requireConnectivity config
            action.coordinateFrame uavs desired
          concludeReview config action review

/-- `apply_safety_shield`. -/
def applySafetyShield (propagation : Propagation F) (now : F) (stamps : ℕ → LinkStamp F)
    (requireConnectivity : Bool) (action : AlgorithmAction F)
    (snapshot config : Dict String (Json F)) : Option (ShieldDecision F) :=
  match action.validate now with
  | [] => do
      shieldPositions propagation stamps requireConnectivity action config (← uavMap snapshot)
        (action.payload.getD "desired_positions" .null)
  | messages =>
      -- an invalid action is refused before the fleet is read
      refuseEarly config action (messages.map fun message =>
        { code := "ALGORITHM_ACTION_INVALID", severity := "ERROR", message })

/-- Positions that keep the contract are reviewed. -/
theorem shieldPositions_of_wellFormed {propagation : Propagation F} {stamps : ℕ → LinkStamp F}
    {requireConnectivity : Bool} {action : AlgorithmAction F} {config : Dict String (Json F)}
    {uavs : Dict String (Dict String (Json F))} {desiredRaw : Json F}
    {desired : Dict String (Vec3 F)}
    (h : normalizeVec3Map "desired_positions" desiredRaw = some (.ok desired)) :
    shieldPositions propagation stamps requireConnectivity action config uavs desiredRaw =
      (reviewPositions propagation stamps requireConnectivity config action.coordinateFrame uavs
        desired).bind (concludeReview config action) := by
  rw [shieldPositions.eq_def]
  split
  · simp [normalizeVec3Map, Json.dict?] at h
  · rw [h]
    rfl

/-! ## What a decision rests on -/

/-- The message when the desired positions of an action break the contract. -/
def malformedPositions (action : AlgorithmAction F) : Option String :=
  match action.payload.getD "desired_positions" .null with
  | .null => none
  | desiredRaw =>
      match normalizeVec3Map "desired_positions" desiredRaw with
      | some (.error message) => some message
      | _ => none

/-- An action that the shield goes on to look at: `validate` has nothing against it, and its desired
positions keep the contract. -/
def AlgorithmAction.Admissible (action : AlgorithmAction F) (now : F) : Prop :=
  action.validate now = [] ∧ malformedPositions action = none

/-- The ways in which the shield comes to a decision. -/
inductive DecidedBy (propagation : Propagation F) (now : F) (stamps : ℕ → LinkStamp F)
    (requireConnectivity : Bool) (action : AlgorithmAction F)
    (snapshot config : Dict String (Json F)) (decision : ShieldDecision F) : Prop
  /-- The action is refused as it is. -/
  | refused (issues : List (ShieldIssue F)) (inadmissible : ¬action.Admissible now)
      (refusal : refuseEarly config action issues = some decision)
  /-- The action asks for no positions. -/
  | untouched (admissible : action.Admissible now)
      (absent : action.payload.getD "desired_positions" .null = .null)
      (decided : decision = {
        accepted := true, action := some action, sourceRevisionId := action.sourceRevisionId })
  /-- The positions are reviewed. -/
  | reviewed (uavs : Dict String (Dict String (Json F))) (desired : Dict String (Vec3 F))
      (review : ShieldReview F) (admissible : action.Admissible now)
      (fleet : uavMap snapshot = some uavs)
      (wellFormed : normalizeVec3Map "desired_positions"
        (action.payload.getD "desired_positions" .null) = some (.ok desired))
      (result : reviewPositions propagation stamps requireConnectivity config
        action.coordinateFrame uavs desired = some review)
      (conclusion : concludeReview config action review = some decision)

/-- Every decision comes about in one of these ways. -/
theorem decidedBy_of_applySafetyShield {propagation : Propagation F} {now : F}
    {stamps : ℕ → LinkStamp F} {requireConnectivity : Bool} {action : AlgorithmAction F}
    {snapshot config : Dict String (Json F)} {decision : ShieldDecision F}
    (h : applySafetyShield propagation now stamps requireConnectivity action snapshot config =
      some decision) :
    DecidedBy propagation now stamps requireConnectivity action snapshot config decision := by
  rw [applySafetyShield] at h
  split at h
  · rename_i hvalid
    obtain ⟨uavs, huavs, h⟩ := Option.bind_eq_some_iff.mp h
    -- the action is valid: does it propose positions?
    rw [shieldPositions.eq_def] at h
    split at h
    · rename_i habsent
      exact .untouched ⟨hvalid, by rw [malformedPositions, habsent]⟩ habsent
        (Option.some.inj h).symm
    · rename_i habsent
      split at h
      · simp at h
      · rename_i message hmessage
        refine .refused _ (fun hadmissible => ?_) h
        have := hadmissible.2
        rw [malformedPositions] at this
        split at this
        · exact habsent ‹_›
        · simp [hmessage] at this
      · rename_i desired hdesired
        obtain ⟨review, hreview, h⟩ := Option.bind_eq_some_iff.mp h
        refine .reviewed uavs desired review ⟨hvalid, ?_⟩ huavs hdesired hreview h
        rw [malformedPositions]
        split
        · rfl
        · simp [hdesired]
  · rename_i hne
    exact .refused _ (fun hadmissible => hne hadmissible.1) h

omit [PyMotion F] in
/-- A refusal. -/
theorem refuseEarly_spec {config : Dict String (Json F)} {action : AlgorithmAction F}
    {issues : List (ShieldIssue F)} {decision : ShieldDecision F}
    (h : refuseEarly config action issues = some decision) :
    decision.accepted = false ∧ decision.action = none ∧ decision.fallbackApplied = true := by
  obtain ⟨fallback, -, h⟩ := Option.bind_eq_some_iff.mp h
  obtain rfl := Option.some.inj h
  exact ⟨rfl, rfl, rfl⟩

/-- What a review of positions is made of. -/
structure ReviewParts (propagation : Propagation F) (stamps : ℕ → LinkStamp F)
    (requireConnectivity : Bool) (config : Dict String (Json F)) (frame : String)
    (uavs : Dict String (Dict String (Json F))) (desired : Dict String (Vec3 F))
    (review : ShieldReview F) (limits : ShieldLimits F) (commands : Dict String (Commanded F))
    (complete : Dict String (Vec3 F)) (reserve : F) (lowBattery : List (ShieldIssue F))
    (connected : Bool) : Prop where
  uavs_eq : review.uavs = uavs
  limits_eq : shieldLimits config = some limits
  commands_eq : commandUavs limits frame uavs desired = some commands
  normalized_eq : review.normalized = commands.filterMap fun _ command => command.position
  complete_eq : completePositions uavs review.normalized = some complete
  reserve_eq : batteryReserve config = some reserve
  lowBattery_eq : batteryIssues reserve uavs review.normalized = some lowBattery
  preview_eq : connectivityPreview propagation stamps complete config uavs =
    some (review.linkPreview, connected)
  issues_eq : review.issues =
    unknownIssues uavs desired ++ commands.values.flatMap Commanded.issues ++
      separationIssues limits.minSeparation
        (complete.entries.insertionSort fun a b => a.1 ≤ b.1) ++ lowBattery ++
      if requireConnectivity && !connected then [connectivityIssue review.linkPreview] else []

theorem reviewPositions_spec {propagation : Propagation F} {stamps : ℕ → LinkStamp F}
    {requireConnectivity : Bool} {config : Dict String (Json F)} {frame : String}
    {uavs : Dict String (Dict String (Json F))} {desired : Dict String (Vec3 F)}
    {review : ShieldReview F}
    (h : reviewPositions propagation stamps requireConnectivity config frame uavs desired =
      some review) :
    ∃ limits commands complete reserve lowBattery connected,
      ReviewParts propagation stamps requireConnectivity config frame uavs desired review limits
        commands complete reserve lowBattery connected := by
  simp only [reviewPositions, bind, pure, Option.bind_eq_some_iff, Option.some.injEq] at h
  obtain ⟨limits, hlimits, commands, hcommands, complete, hcomplete, reserve, hreserve, lowBattery,
    hbattery, ⟨linkPreview, connected⟩, hpreview, rfl⟩ := h
  exact ⟨limits, commands, complete, reserve, lowBattery, connected,
    ⟨rfl, hlimits, hcommands, rfl, hcomplete, hreserve, hbattery, hpreview, rfl⟩⟩

/-- Reviewed positions are rejected when an issue is an error, and accepted otherwise. -/
theorem concludeReview_spec {config : Dict String (Json F)} {action : AlgorithmAction F}
    {review : ShieldReview F} {decision : ShieldDecision F}
    (h : concludeReview config action review = some decision) :
    (review.issues.any ShieldIssue.isError = true ∧ decision.accepted = false ∧
        decision.fallbackApplied = true ∧
        ∃ positions held, fallbackPositions review.uavs = some positions ∧
          decision.action = some held ∧ held.fallback = true ∧
          held.payload = .ofList [("desired_positions", positionsJson positions)]) ∨
      (review.issues.any ShieldIssue.isError = false ∧ decision.accepted = true ∧
        decision.fallbackApplied = false ∧
        ∃ accepted, decision.action = some accepted ∧ accepted.fallback = action.fallback ∧
          accepted.payload =
            action.payload.set "desired_positions" (positionsJson review.normalized)) := by
  obtain ⟨controller, -, h⟩ := Option.bind_eq_some_iff.mp h
  dsimp only at h
  split at h
  · rename_i herror
    obtain ⟨positions, hpositions, h⟩ := Option.bind_eq_some_iff.mp h
    obtain rfl := Option.some.inj h
    exact Or.inl ⟨herror, rfl, rfl, positions, _, hpositions, rfl, rfl, rfl⟩
  · rename_i herror
    obtain rfl := Option.some.inj h
    exact Or.inr ⟨by simpa using herror, rfl, rfl, _, rfl, rfl, rfl⟩

end

end Netlab
