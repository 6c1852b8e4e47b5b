import Netlab.Algorithm.Shield
import Netlab.Config.Emittable

/-!
# The link previews of the editors

Two functions evaluate the links of a configuration before it runs: `validate_config_topology` of
`netlab/topology.py`, next to the checks of the topology, and `evaluate_experiment_topology_preview`
of `netlab/link.py`. Each puts the parameters of a link together in its own way. Where a preview of
an edge raises, the first gives up the rest of its preview, and the second records the edge as
unavailable if the request could be made. Of `validate_config_topology` the link preview is
modelled, and of the rest what it raises on.
-/

/-- `isinstance(value, Sequence)`. -/
def Json.isSequence {F : Type} : Json F → Bool
  | .arr _ => true
  | .str _ => true
  | _ => false

namespace Netlab

open Experiment (mappingOrEmpty droneObjects)

variable {F : Type} [PyText F] [PyFloat F]

/-- An edge of a topology. -/
abbrev Edge := String × String

/-- The antenna definitions by identifier. -/
def definitionsById (config : Dict String (Json F)) : Option (Dict String (Dict String (Json F))) := do
  let items ← ((mappingOrEmpty config "antennas").getD "definitions" (.arr [])).elements?
  return .ofList (items.filterMap fun item => do
    let item ← item.dict?
    return ((item.getD "id" .null).toText, item))

/-- The antenna with an identifier; an unknown one has no fields. -/
def antennaOf (definitions : Dict String (Dict String (Json F))) (id : String) :
    Dict String (Json F) := (definitions.get? id).getD .empty

/-- The antenna assignments. -/
def antennaAssignments (config : Dict String (Json F)) : Dict String (Json F) :=
  mappingOrEmpty (mappingOrEmpty config "antennas") "assignments"

/-! ## The preview next to the checks of the topology -/

namespace TopologyPreview

/-- The identifier of a drone record. -/
def recordId (item : Dict String (Json F)) : String :=
  (item.getD "id" (.str ("drone_" ++ (item.getD "index" (.str "")).toText))).toText

/-- The positions of the station and of the drones; what is no sequence is left out. -/
def positions (config : Dict String (Json F)) : Dict String (Json F) :=
  let place (id : String) (item : Dict String (Json F)) : Option (String × Json F) :=
    let position := item.getD "position" .null
    if position.isSequence then some (id, position) else none
  .ofList ((place (stationId config) (mappingOrEmpty config "station")).toList ++
    (droneObjects (mappingOrEmpty config "swarm")).filterMap fun item => place (recordId item) item)

/-- The node from which the branches start. -/
def source (config : Dict String (Json F)) : String :=
  ((mappingOrEmpty config "topology").getD "source"
    ((mappingOrEmpty config "station").getD "id" (.str "station"))).toText

/-- The number of relays. -/
def relayCount (config : Dict String (Json F)) : Option ℤ :=
  let swarm := mappingOrEmpty config "swarm"
  (swarm.getD "relay_count" (swarm.getD "drone_count" (.int 0))).toInt?

/-- The edges that `validate_topology` makes of a topology section. A mode that does not exist
counts as the manual one. -/
def edgesOf (relayCount : ℤ) (source : String) (topology : Dict String (Json F)) : List Edge :=
  let mode := (TopologyMode.ofValue? (topologyMode topology)).getD .manual
  if mode = .manual ∧ (topology.getD "manual_edges" (.arr [])).truthy then manualEdges topology
  else branchesToEdges
    (sanitizeBranches (max 0 relayCount) true (topology.getD "branches" (.arr []))) source

/-- The edges of the topology, and what else is read before the links are looked at: the separation
and the altitudes. -/
def edges (config : Dict String (Json F)) : Option (List Edge) := do
  let relayCount ← relayCount config
  let _ ← (mappingOrEmpty config "swarm").getFloat "minimum_separation_m" 0.0
  let region := mappingOrEmpty config "service_region"
  let _ ← region.getFloat "min_altitude_m" (-1e9)
  let _ ← region.getFloat "max_altitude_m" 1e9
  return edgesOf relayCount (source config) (mappingOrEmpty config "topology")

/-- Which entities are active. -/
def active (config : Dict String (Json F)) : Dict String Bool :=
  .ofList ((stationId config, (mappingOrEmpty config "station").getBool "active" true) ::
    (droneObjects (mappingOrEmpty config "swarm")).map fun item =>
      (recordId item, item.getBool "active" true))

/-- Which entities have failed. The station never has. -/
def failed (config : Dict String (Json F)) : Dict String Bool :=
  .ofList ((stationId config, false) ::
    (droneObjects (mappingOrEmpty config "swarm")).map fun item =>
      (recordId item, item.getBool "failed" false))

/-- The members of the link request of an edge. -/
def requestMembers (config : Dict String (Json F)) (tx rx : Dict String (Json F)) (edge : Edge)
    (txPosition rxPosition seed : Json F) : List (String × Json F) :=
  let communication := mappingOrEmpty config "communication"
  [("src", .str edge.1),
    ("dst", .str edge.2),
    ("tx_position", txPosition),
    ("rx_position", rxPosition),
    ("frequency_hz", communication.getD "carrier_frequency_hz" (.float 3.5e9)),
    ("bandwidth_hz", communication.getD "bandwidth_hz" (.float 20e6)),
    ("tx_power_dbm", communication.getD "tx_power_dbm" (.float 23.0)),
    ("receiver_noise_figure_db", communication.getD "receiver_noise_figure_db" (.float 7.0)),
    ("implementation_loss_db", communication.getD "implementation_loss_db" (.float 2.0)),
    ("tx_gain_dbi", tx.getD "gain_dbi" (.float 0.0)),
    ("rx_gain_dbi", rx.getD "gain_dbi" (.float 0.0)),
    ("tx_cable_loss_db", tx.getD "cable_loss_db" (.float 0.0)),
    ("rx_cable_loss_db", rx.getD "cable_loss_db" (.float 0.0)),
    ("path_loss_exponent", communication.getD "path_loss_exponent" (.float 2.0)),
    ("shadowing_sigma_db", communication.getD "shadowing_sigma_db" (.float 0.0)),
    ("interference_margin_db", communication.getD "interference_margin_db" (.float 0.0)),
    ("spectral_efficiency_factor", communication.getD "spectral_efficiency_factor" (.float 0.75)),
    ("model", communication.getD "fallback_model" (.str "free_space")),
    ("seed", seed)]

/-- The antenna of an entity. -/
def antenna (definitions : Dict String (Dict String (Json F))) (config : Dict String (Json F))
    (entityId : String) : Dict String (Json F) :=
  antennaOf definitions ((antennaAssignments config).getText entityId "")

/-- The link request of an edge between two positions. -/
def request (definitions : Dict String (Dict String (Json F))) (config : Dict String (Json F))
    (edge : Edge) (txPosition rxPosition : Json F) : Option (LinkRequest F) := do
  let experiment ← ((config.getD "experiment" (.obj [])).orElse (.obj [])).dict?
  LinkRequest.fromMapping (.ofList (requestMembers config (antenna definitions config edge.1)
    (antenna definitions config edge.2) edge txPosition rxPosition
    (experiment.getD "seed" (.int 0))))

/-- What the gate is told about the ends of an edge. -/
def endpoints (config : Dict String (Json F)) (edge : Edge) : LinkEndpoints where
  sourceActive := ((active config).get? edge.1).getD false
  destinationActive := ((active config).get? edge.2).getD false
  sourceFailed := ((failed config).get? edge.1).getD false
  destinationFailed := ((failed config).get? edge.2).getD false

/-- The preview of an edge between two positions. -/
def previewLink (propagation : Propagation F) (stamp : LinkStamp F)
    (definitions : Dict String (Dict String (Json F))) (config : Dict String (Json F)) (edge : Edge)
    (txPosition rxPosition : Json F) : Option (LinkPreview F) := do
  let request ← request definitions config edge txPosition rxPosition
  let metrics ← computeAnalyticalLink propagation stamp.freshId stamp.computedAt request
  let thresholds ← previewThresholds config
  return {
    src := edge.1, dst := edge.2
    outcome := some (metrics, evaluateFeasibility (some metrics) (endpoints config edge) thresholds
      stamp.decidedAt) }

/-- The previews of edges with their places, and whether one of them has raised: that ends the
preview. An edge with an end that has no position is passed over. -/
def previewLinks (propagation : Propagation F) (stamps : ℕ → LinkStamp F)
    (definitions : Dict String (Dict String (Json F))) (config : Dict String (Json F)) :
    List (Edge × ℕ) → List (LinkPreview F) × Bool
  | [] => ([], false)
  | (edge, i) :: rest =>
      match (positions config).get? edge.1, (positions config).get? edge.2 with
      | some txPosition, some rxPosition =>
          match previewLink propagation (stamps i) definitions config edge txPosition rxPosition with
          | some preview =>
              let (previews, unavailable) := previewLinks propagation stamps definitions config rest
              (preview :: previews, unavailable)
          -- the exception ends the loop, and its previews are lost
          | none => ([], true)
      | _, _ => previewLinks propagation stamps definitions config rest

/-- The link preview of `validate_config_topology`, and whether it warns that one is not
available. -/
def linkPreview (propagation : Propagation F) (stamps : ℕ → LinkStamp F)
    (config : Dict String (Json F)) : Option (List (LinkPreview F) × Bool) := do
  let edges ← edges config
  match definitionsById config with
  | some definitions => return previewLinks propagation stamps definitions config edges.zipIdx
  | none => return ([], true)

end TopologyPreview

/-! ## The preview of the link service -/

namespace EditorPreview

/-- The models that the preview evaluates itself. -/
def analyticalModels : List String :=
  ["free_space", "log_distance", "stochastic_shadowing", "probabilistic_air_to_ground",
    "sionna_analytical"]

/-- The model that the configuration names. -/
def configuredModel (config : Dict String (Json F)) : String :=
  (mappingOrEmpty config "communication").getText "model" "free_space"

/-- The model of the preview: the configured one if it is analytical, or else the fallback. -/
def previewModel (config : Dict String (Json F)) : String :=
  if configuredModel config ∈ analyticalModels then configuredModel config
  else (mappingOrEmpty config "communication").getText "fallback_model" "free_space"

/-- The records of the station and of the drones. -/
def entities (config : Dict String (Json F)) : Option (Dict String (Dict String (Json F))) := do
  let items ← ((mappingOrEmpty config "swarm").getD "drones" (.arr [])).elements?
  return .ofList ((stationId config, mappingOrEmpty config "station") :: items.filterMap fun item => do
    let item ← item.dict?
    return ((item.getD "id" .null).toText, item))

/-- The antenna that an entity is assigned, or else its own. -/
def antennaId (config : Dict String (Json F)) (entityId : String) (entity : Dict String (Json F)) :
    String :=
  ((antennaAssignments config).getD entityId (entity.getD "antenna_id" (.str ""))).toText

/-- The position of an entity. -/
def position (entity : Dict String (Json F)) : Json F :=
  entity.getD "position" (.arr [.float 0.0, .float 0.0, .float 0.0])

/-- The link request of an edge between two entities. -/
def request (definitions : Dict String (Dict String (Json F))) (config : Dict String (Json F))
    (edge : Edge) (source destination : Dict String (Json F)) : Option (LinkRequest F) := do
  let communication := mappingOrEmpty config "communication"
  let tx := antennaOf definitions (antennaId config edge.1 source)
  let rx := antennaOf definitions (antennaId config edge.2 destination)
  let experiment ← Experiment.section? config "experiment"
  return {
    src := edge.1
    dst := edge.2
    txPosition := position source
    rxPosition := position destination
    frequencyHz := ← communication.getFloat "carrier_frequency_hz" 3.5e9
    bandwidthHz := ← communication.getFloat "bandwidth_hz" 20e6
    txPowerDbm := ← communication.getFloat "tx_power_dbm" 23.0
    receiverNoiseFigureDb := ← communication.getFloat "receiver_noise_figure_db" 7.0
    implementationLossDb := ← communication.getFloat "implementation_loss_db" 2.0
    txGainDbi := ← tx.getFloat "gain_dbi" 0.0
    rxGainDbi := ← rx.getFloat "gain_dbi" 0.0
    txCableLossDb := ← tx.getFloat "cable_loss_db" 0.0
    rxCableLossDb := ← rx.getFloat "cable_loss_db" 0.0
    interferenceMarginDb := ← communication.getFloat "interference_margin_db" 0.0
    pathLossExponent := ← communication.getFloat "path_loss_exponent" 2.0
    shadowingSigmaDb := ← communication.getFloat "shadowing_sigma_db" 0.0
    seed := ← (experiment.getD "seed" (.int 0)).toInt?
    model := previewModel config
    spectralEfficiencyFactor := ← communication.getFloat "spectral_efficiency_factor" 0.75
    referenceDistanceM := 1.0
    atmosphericLossDb := 0.0
    rainLossDb := 0.0
    foliageLossDb := 0.0
    clutterLossDb := 0.0
    blockageLossDb := 0.0
    polarizationLossDb := 0.0
    miscellaneousLossDb := 0.0
    requestId := "" }

/-- What the gate is told about two entities. -/
def endpoints (source destination : Dict String (Json F)) : LinkEndpoints where
  sourceActive := source.getBool "active" true
  destinationActive := destination.getBool "active" true
  sourceFailed := source.getBool "failed" false
  destinationFailed := destination.getBool "failed" false

/-- The thresholds: a metric stays fresh for at least two seconds. -/
def thresholds (config : Dict String (Json F)) : Option (GateThresholds F) := do
  let thresholds ← previewThresholds config
  return { thresholds with metricTtlS := PyFloat.max 2.0 thresholds.metricTtlS }

/-- The record of an edge. -/
inductive Record (F : Type)
  | missingEndpoint (edge : Edge)
  | unavailable (edge : Edge)
  | decided (edge : Edge) (metrics : LinkMetrics F) (decision : FeasibilityDecision F)

namespace Record

/-- The edge of a record. -/
def edge : Record F → Edge
  | missingEndpoint edge => edge
  | unavailable edge => edge
  | decided edge _ _ => edge

/-- Whether the edge is feasible. -/
def feasible : Record F → Bool
  | decided _ _ decision => decision.feasible
  | _ => false

/-- The reason of the gate. -/
def gateReason : Record F → String
  | missingEndpoint _ => "MISSING_ENDPOINT"
  | unavailable _ => "PREVIEW_MODEL_UNAVAILABLE"
  | decided _ _ decision => decision.reason.value

end Record

/-- The decision about an edge for which a request was made. -/
def decide (propagation : Propagation F) (stamp : LinkStamp F) (config : Dict String (Json F))
    (request : LinkRequest F) (endpoints : LinkEndpoints) :
    Option (LinkMetrics F × FeasibilityDecision F) := do
  let metrics ← computeAnalyticalLink propagation stamp.freshId stamp.computedAt request
  return (metrics, evaluateFeasibility (some metrics) endpoints (← thresholds config) stamp.decidedAt)

/-- The record of an edge. An exception while the request is made is not caught. -/
def record (propagation : Propagation F) (stamp : LinkStamp F)
    (definitions entities : Dict String (Dict String (Json F))) (config : Dict String (Json F))
    (edge : Edge) : Option (Record F) :=
  match entities.get? edge.1, entities.get? edge.2 with
  | some source, some destination => do
      let request ← request definitions config edge source destination
      match decide propagation stamp config request (endpoints source destination) with
      | some (metrics, decision) => return .decided edge metrics decision
      -- the exception is reported on the edge, and the loop goes on
      | none => return .unavailable edge
  | _, _ => some (.missingEndpoint edge)

/-- The records of `evaluate_experiment_topology_preview`. -/
def records (propagation : Propagation F) (stamps : ℕ → LinkStamp F)
    (config : Dict String (Json F)) : Option (List (Record F)) := do
  let definitions ← definitionsById config
  let entities ← entities config
  let edges ← topologyEdges (mappingOrEmpty config "topology")
  edges.zipIdx.mapM fun (edge, i) => record propagation (stamps i) definitions entities config edge

end EditorPreview

end Netlab
