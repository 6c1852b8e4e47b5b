import Netlab.Algorithm.Baselines

/-!
# Planners for users on the ground

Three of the planners of `netlab/algorithm_baselines.py`: `learn_as_you_fly`,
`joint_trajectory_communication` and `voronoi_coverage`, with the two planners that they fall back
on when there are no users. Each gives users or sample points to the nearest UAV, which is the
minimum of a list that is empty when no UAV is operational.
-/

namespace Netlab.Baseline

variable {F : Type}

/-- What a planner returns. -/
structure Plan (F : Type) where
  desiredPositions : Dict String (Vec3 F)
  userAssociation : Dict String (Json F) := .empty
  transmitPowerCommandsDbm : Dict String F := .empty
  constraintResiduals : Dict String F := .empty
  objectiveValue : F
  terminationReason : String
  explanation : Json F := .obj []

variable [PyText F] [PyPlanner F]

/-! ## Minima and assignments -/

/-- `min(items, key=key)`: the key of every item is computed, and of several smallest items the
first one is taken. -/
def minKey {α : Type} (key : α → Option F) (items : List α) : Option α := do
  let keyed ← items.mapM fun item => do return (item, ← key item)
  -- of several least items the first one is kept
  match keyed with
  | [] => none
  | first :: rest =>
      some (rest.foldl (fun best e => if PyFloat.lt e.2 best.2 then e else best) first).1

/-- The UAV that is nearest to a point. -/
def nearest (uavs : List (Dict String (Json F))) (place : Dict String (Json F) → Option (Vec3 F))
    (point : Vec3 F) : Option (Dict String (Json F)) :=
  minKey (fun item => do return (← place item).dist point) uavs

/-- Give each element, which is somewhere, to the UAV nearest to it. -/
def assign {α : Type} (uavs : List (Dict String (Json F))) (place : α → Option (Vec3 F))
    (elements : List α) : Option (Dict String (List α)) := do
  let start ← uavs.mapM fun item => do return (← uavId item, [])
  elements.foldlM (fun cells element => do
    let owner ← nearest uavs position (← place element)
    let id ← uavId owner
    -- two UAVs with one identifier share a cell
    let cell ← cells.get? id
    return cells.set id (cell ++ [element])) (.ofList start)

/-- Where a UAV is to go. -/
def desiredOf (desired : Dict String (Vec3 F)) (item : Dict String (Json F)) : Option (Vec3 F) := do
  desired.get? (← uavId item)

/-- How far a UAV is sent. -/
def moveLength (desired : Dict String (Vec3 F)) (item : Dict String (Json F)) : Option F := do
  return (← desiredOf desired item).dist (← position item)

/-- The identifier of the UAV that each user ends up nearest to. -/
def associate (uavs : List (Dict String (Json F))) (desired : Dict String (Vec3 F))
    (people : List (Dict String (Json F))) : Option (Dict String (Json F)) := do
  let entries ← people.mapM fun user => do
    let owner ← nearest uavs (desiredOf desired) (← position user)
    return ((user.getD "id" .null).toText, ← owner.get? "id")
  return .ofList entries

/-- `max(0.0, min(1.0, x))`. -/
def share (x : F) : F := PyFloat.max 0.0 (PyFloat.min 1.0 x)

/-- The smallest of some values, if there are any. -/
def leastOf : List F → F
  | [] => 0.0
  | x :: xs => xs.foldl PyFloat.min x

/-! ## Planners without users -/

/-- The first ground entity. -/
def station (snapshot : Dict String (Json F)) : Option (Dict String (Json F)) :=
  let ground := snapshot.getD "ground_entities" .null
  if ground.truthy then do (← ground.item? 0).dict? else some .empty

/-- The active UAVs that are not on standby. -/
def relaysOf (snapshot : Dict String (Json F)) : Option (List (Dict String (Json F))) := do
  return (← activeUavs snapshot).filter fun item => !(item.getD "role" .null).isStr "standby"

/-- Where one relay of a straight chain is to go. -/
def chainStep (start : Vec3 F) (spacing altitude direction : F) (item : Dict String (Json F))
    (index : ℕ) : Option (String × Vec3 F) := do
  let along := spacing * PyFloat.ofCount (index + 1)
  return (← uavId item, ⟨start.x + along * (← PyTrig.cos direction),
    start.y + along * (← PyTrig.sin direction), altitude⟩)

/-- `researcher_chain_spacing`. -/
def researcherChainSpacing (snapshot parameters : Dict String (Json F)) : Option (Plan F) := do
  let spacing ← parameters.getFloat "spacing_m" 28.0
  let altitude ← parameters.getFloat "altitude_m" 30.0
  let direction := PyTrig.radians (← parameters.getFloat "direction_deg" 0.0)
  let start ← position (← station snapshot)
  let relays ← relaysOf snapshot
  let desired ← relays.zipIdx.mapM fun e => chainStep start spacing altitude direction e.1 e.2
  return {
    desiredPositions := .ofList desired
    objectiveValue := 0.0
    terminationReason := "closed_form_chain_spacing"
    explanation := .obj [("spacing_m", .float spacing)] }

/-- The worst margin of a link. An item that is no object is left out. -/
def linkMargin (item : Json F) : Option (List (String × F)) :=
  match item.dict? with
  | none => some []
  | some link => do
      let margin := PyFloat.min (PyFloat.min (← link.getFloat "range_margin_m" 1e9)
        (← link.getFloat "snr_margin_db" 1e9)) (← link.getFloat "capacity_margin_mbps" 1e9)
      return [((link.getD "src" .null).toText ++ "->" ++ (link.getD "dst" .null).toText, margin)]

/-- The worst margins of the links. -/
def linkMargins (snapshot : Dict String (Json F)) : Option (Dict String F) := do
  let links ← (snapshot.getD "links" (.arr [])).elements?
  return .ofList (← links.mapM linkMargin).flatten

/-- The parameters of the formation. -/
structure FormationGains (F : Type) where
  spacing : F
  altitude : F
  connectivityWeight : F
  formationWeight : F
  energyWeight : F

/-- Read them. -/
def formationGains (parameters : Dict String (Json F)) : Option (FormationGains F) := do
  return {
    spacing := ← parameters.getFloat "spacing_m" 28.0
    altitude := ← parameters.getFloat "altitude_m" 30.0
    connectivityWeight := ← parameters.getFloat "connectivity_weight" 2.0
    formationWeight := ← parameters.getFloat "formation_weight" 1.0
    energyWeight := ← parameters.getFloat "energy_weight" 0.2 }

/-- The place of a relay in the formation. -/
def formationTarget (start : Vec3 F) (gains : FormationGains F) (index : ℕ) : Vec3 F :=
  ⟨start.x + gains.spacing * PyFloat.ofCount (index + 1), start.y, gains.altitude⟩

/-- What comes before a relay in the chain. -/
def predecessorOf (relays : List (Dict String (Json F))) : ℕ → Option String
  | 0 => some "station"
  | previous + 1 => do uavId (← relays[previous]?)

/-- Where one relay is to go, and what it adds to the objective. -/
def formationStep (relays : List (Dict String (Json F))) (start : Vec3 F) (margins : Dict String F)
    (gains : FormationGains F) (item : Dict String (Json F)) (index : ℕ) :
    Option (String × Vec3 F × F) := do
  let current ← position item
  let battery ← PyFloat.div (← item.getFloat "battery_soc_pct" 100.0) 100.0
  let responsiveness := PyFloat.max 0.2 (1.0 - gains.energyWeight * (1.0 - battery))
  let formationDelta := sub (formationTarget start gains index) current
  let correction := scale formationDelta (PyFloat.min 1.0 (gains.formationWeight * responsiveness))
  let predecessor ← predecessorOf relays index
  let id ← uavId item
  let margin := (margins.get? (predecessor ++ "->" ++ id)).getD 0.0
  -- the chain is compressed when the margin of the adjacent link is negative
  let correction := if PyFloat.lt margin 0.0 then
      { correction with
        x := correction.x - gains.connectivityWeight *
          PyFloat.min (gains.spacing * 0.25) (PyMotion.abs margin * 0.1) }
    else correction
  let cost := gains.formationWeight * (← norm formationDelta) -
    gains.connectivityWeight * PyFloat.min 0.0 margin + gains.energyWeight * (1.0 - battery)
  return (id, add current correction, cost)

/-- `connectivity_aware_formation`. -/
def connectivityAwareFormation (snapshot parameters : Dict String (Json F)) : Option (Plan F) := do
  let relays ← relaysOf snapshot
  let gains ← formationGains parameters
  let start ← position (← station snapshot)
  -- the weakest link is reported as the residual
  let margins ← linkMargins snapshot
  let steps ← relays.zipIdx.mapM fun e => formationStep relays start margins gains e.1 e.2
  return {
    desiredPositions := .ofList (steps.map fun step => (step.1, step.2.1))
    constraintResiduals := .ofList [("minimum_link_margin", leastOf margins.values)]
    objectiveValue := (steps.map fun step => step.2.2).foldl (· + ·) 0.0
    terminationReason := "single_deterministic_control_step" }

/-! ## Planners for users -/

/-- The middle of what a UAV has been given, or where it is if that is nothing. -/
def targetOf (points : List (Vec3 F)) (weights : List F) (item : Dict String (Json F)) :
    Option (Vec3 F) :=
  if points.isEmpty then position item else centroid points weights

/-- Where a UAV is to go for the users that it has been given. -/
def learnMove (assignments : Dict String (List (Vec3 F))) (altitude learningRate : F)
    (item : Dict String (Json F)) : Option (String × Vec3 F) := do
  let id ← uavId item
  let owned ← assignments.get? id
  let target ← targetOf owned [] item
  let current ← position item
  return (id, add current (scale (sub { target with z := altitude } current) learningRate))

/-- `learn_as_you_fly`. -/
def learnAsYouFly (snapshot parameters : Dict String (Json F)) : Option (Plan F) := do
  let uavs ← activeUavs snapshot
  let people ← users snapshot
  let altitude ← parameters.getFloat "altitude_m" 45.0
  let learningRate := share (← parameters.getFloat "learning_rate" 0.35)
  -- without users the UAVs stand in a chain
  if people.isEmpty then
    researcherChainSpacing snapshot (.ofList [
      ("spacing_m", parameters.getD "spacing_m" (.float 30.0)), ("altitude_m", .float altitude)])
  else do
    let assignments ← assign uavs some (← people.mapM position)
    let moves ← uavs.mapM (learnMove assignments altitude learningRate)
    let desired := Dict.ofList moves
    let association ← associate uavs desired people
    let lengths ← uavs.mapM (moveLength desired)
    return {
      desiredPositions := desired
      userAssociation := association
      objectiveValue := PyFloat.sum lengths
      terminationReason := "distributed_centroid_update" }

/-- What each user gets, or needs. -/
def throughputs (people : List (Dict String (Json F))) : Option (Dict String F) := do
  let entries ← people.mapM fun user => do
    return ((user.getD "id" .null).toText, ← user.getFloatOr "throughput_mbps" "demand_mbps" 1.0)
  return .ofList entries

/-- Where one of several UAVs is to go for a user, and with what power it transmits. -/
def jointMove (parameters : Dict String (Json F)) (count : ℕ) (target : Vec3 F) (step altitude : F)
    (uav : Dict String (Json F)) (index : ℕ) : Option (String × Vec3 F × F) := do
  let current ← position uav
  -- the fleet is lined up around the target
  let middle ← PyFloat.div (PyFloat.ofCount (count - 1)) 2.0
  let offset := (PyFloat.ofCount index - middle) * (← parameters.getFloat "spacing_m" 20.0)
  let goal : Vec3 F := ⟨target.x + offset, target.y + 0.0, altitude⟩
  let id ← uavId uav
  let power := PyFloat.min (← parameters.getFloat "max_tx_power_dbm" 30.0)
    ((← parameters.getFloat "base_tx_power_dbm" 23.0) +
      PyFloat.max 0.0 (← parameters.getFloat "fairness_gain_db" 2.0))
  return (id, add current (scale (sub goal current) step), power)

/-- `joint_trajectory_communication`. -/
def jointTrajectoryCommunication (snapshot parameters : Dict String (Json F)) :
    Option (Plan F) := do
  let uavs ← activeUavs snapshot
  let people ← users snapshot
  let step := share (← parameters.getFloat "step_size" 0.25)
  let altitude ← parameters.getFloat "altitude_m" 50.0
  -- without users it is a matter of connectivity only
  if people.isEmpty then connectivityAwareFormation snapshot parameters
  else do
    let throughput ← throughputs people
    let targetUser ← minKey (fun user => throughput.get? (user.getD "id" .null).toText) people
    let target ← position targetUser
    let moves ← uavs.zipIdx.mapM fun e =>
      jointMove parameters uavs.length target step altitude e.1 e.2
    let desired := Dict.ofList (moves.map fun move => (move.1, move.2.1))
    let association ← associate uavs desired people
    return {
      desiredPositions := desired
      userAssociation := association
      transmitPowerCommandsDbm := .ofList (moves.map fun move => (move.1, move.2.2))
      objectiveValue := leastOf throughput.values
      terminationReason := "receding_horizon_fairness_step"
      explanation := .obj [("solver_status", .str "deterministic_reference_heuristic"),
        ("paper_method", .str "BCD/SCA-inspired decomposition")] }

/-- A sample point of a region; `uniform` is the random generator at each of its draws. -/
def samplePoint (uniform : ℕ → F → F → F) (center : Json F) (length width : F) (i : ℕ) :
    Option (Dict String (Json F)) := do
  let x ← (← center.item? 0).toFloat?
  let dx := uniform (2 * i) (← PyFloat.div (-length) 2.0) (← PyFloat.div length 2.0)
  let y ← (← center.item? 1).toFloat?
  let dy := uniform (2 * i + 1) (← PyFloat.div (-width) 2.0) (← PyFloat.div width 2.0)
  return .ofList [("id", .str s!"sample_{i}"),
    ("position", .arr [.float (x + dx), .float (y + dy), .float 0.0]), ("weight", .float 1.0)]

/-- The sample points of a region without users; `uniform` is the random generator with a seed. -/
def samplePoints (uniform : ℤ → ℕ → F → F → F) (snapshot parameters : Dict String (Json F)) :
    Option (List (Dict String (Json F))) := do
  let seed ← (snapshot.getD "seed" (.int 0)).toInt?
  let constraints ← Experiment.section? snapshot "constraints"
  let region ← Experiment.section? constraints "service_region"
  let center := region.getD "center" (.arr [.int 0, .int 0, .int 0])
  let length ← region.getFloat "length_m" 200.0
  let width ← region.getFloat "width_m" 100.0
  -- a negative count gives no points
  let count ← (parameters.getD "sample_count" (.int 64)).toInt?
  (List.range count.toNat).mapM (samplePoint (uniform seed) center length width)

/-- The points that want to be covered. -/
def demandOf (uniform : ℤ → ℕ → F → F → F) (snapshot parameters : Dict String (Json F)) :
    Option (List (Dict String (Json F))) := do
  let people ← users snapshot
  if people.isEmpty then samplePoints uniform snapshot parameters else some people

/-- Where a UAV is to go for its cell. -/
def lloydMove (gain altitude : F) (items : List (Dict String (Json F)))
    (uav : Dict String (Json F)) : Option (Vec3 F) := do
  let points ← items.mapM position
  let weights ← items.mapM fun item => item.getFloat "weight" 1.0
  let target ← targetOf points weights uav
  let current ← position uav
  return add current (scale (sub { target with z := altitude } current) gain)

/-- What a cell costs. -/
def cellCost (moved : Vec3 F) (items : List (Dict String (Json F))) : Option F := do
  let costs ← items.mapM fun item => do
    return (← item.getFloat "weight" 1.0) * (← PyPlanner.square (moved.dist (← position item)))
  return PyFloat.sum costs

/-- Where a UAV is to go, and what its cell costs then. -/
def coverCell (cells : Dict String (List (Dict String (Json F)))) (gain altitude : F)
    (uav : Dict String (Json F)) : Option (String × Vec3 F × F) := do
  let id ← uavId uav
  let items ← cells.get? id
  let moved ← lloydMove gain altitude items uav
  return (id, moved, ← cellCost moved items)

/-- `voronoi_coverage`. -/
def voronoiCoverage (uniform : ℤ → ℕ → F → F → F) (snapshot parameters : Dict String (Json F)) :
    Option (Plan F) := do
  let uavs ← activeUavs snapshot
  let demand ← demandOf uniform snapshot parameters
  -- each point of demand goes to the drone that is nearest to it
  let cells ← assign uavs position demand
  let gain := share (← parameters.getFloat "lloyd_gain" 0.5)
  let altitude ← parameters.getFloat "altitude_m" 35.0
  let moves ← uavs.mapM (coverCell cells gain altitude)
  return {
    desiredPositions := .ofList (moves.map fun move => (move.1, move.2.1))
    objectiveValue := (moves.map fun move => move.2.2).foldl (· + ·) 0.0
    terminationReason := "weighted_lloyd_iteration" }

end Netlab.Baseline
