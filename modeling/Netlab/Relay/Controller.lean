import Netlab.Relay.Streams

/-!
# The packet controller

The state of the ROS node `SnaasRelayChain` and its timer callback `_tick`: reload the strategy,
process a pending failure, integrate standby drones that are close, and then move packets, unless
the operator paused the controller.

What comes from outside is an input of the tick: the time, the answers of the strategy and of the
link service. An exception in a callback ends the process, so such a tick has no result (`none`).
Counters and texts that are only published are left out. Of what a packet costs its sender, which
nothing reads during a tick, the sum is taken at the end (`Fleet.drain`).
-/

namespace Netlab

variable {F : Type}

/-- A failure that was injected and is not detected yet. -/
structure PendingFailure (F : Type) where
  droneIndex : ℤ
  detectionDeadline : F

/-- The mode that the last mission command led to. -/
inductive MissionMode
  | running
  | takeoff
  | hold
  | landing
  | returnHome
  | completed
  | emergencyStop
  deriving DecidableEq, Repr

/-- The revision that the controller reports as applied. -/
structure AppliedRevision (F : Type) where
  revisionId : String
  parentRevisionId : String
  hashes : Dict String (Json F)
  commandId : String

/-- The state of the controller. -/
structure Controller (F : Type) where
  fleet : Fleet F
  settings : Settings F
  revision : AppliedRevision F
  pendingFailure : Option (PendingFailure F)
  homePositions : Dict ℤ (Vec3 F)
  /-- `phase`, `cursor` and `current_packet` -/
  stream : Stream
  currentBranchIndex : ℕ
  /-- `packet_id`, the number of packets created -/
  packetCount : ℕ
  /-- `branch_flow_state`, by branch id -/
  flows : List Flow
  connectivityPaused : Bool
  operatorPaused : Bool
  missionMode : MissionMode
  strategyId : Option String
  pendingRevisionId : String

/-- What a strategy contributes when the positions are recomputed. -/
inductive Plan (F : Type)
  /-- no strategy is loaded, or it yields no usable plan -/
  | nothing
  /-- an observation for the algorithm bridge was published -/
  | observation
  /-- desired positions by drone -/
  | positions (entries : List (Json F × Json F))

/-- What is given to a tick from outside. -/
structure TickInput (F : Type) where
  now : F
  /-- the strategy after its selection file was looked at, when it is loaded anew -/
  strategy : Option (Option String)
  /-- what the hooks for a failure answer; raises when there is no answer -/
  selections : Option (List (Json F))
  /-- the plan of the strategy after a failure, and after an integration; raises without one -/
  failurePlan : Option (Plan F)
  integrationPlan : Option (Plan F)
  /-- the gate reason of a hop; raises when the metrics cannot be read -/
  gate : Node → Node → Option String

namespace Fleet

/-- A node exists: the station, or a drone of the inventory. -/
def knownNode (fleet : Fleet F) : Node → Bool
  | .station => true
  | .drone index => fleet.known index

/-- `_node_failed`. -/
def failedNode (fleet : Fleet F) : Node → Bool
  | .station => false
  | .drone index => index ∈ fleet.failedIndices

/-- `_parallel_enabled`. -/
def parallelEnabled (fleet : Fleet F) : Bool :=
  fleet.transmissionMode ∈ ["parallel", "forest", "manual"] ∧ 1 < fleet.activeBranches.length

/-- A drone is marked as failed. -/
def markFailed (fleet : Fleet F) (idx : ℤ) : Fleet F :=
  let fleet := fleet.modify idx fun drone => { drone with failed := true }
  { fleet with failedIndices := fleet.failedIndices.insert idx }

/-- A standby drone takes the place of a failed one. -/
def promote (fleet : Fleet F) (idx : ℤ) (position : Vec3 F) : Fleet F :=
  fleet.modify idx fun drone =>
    { drone with role := "relay", integrated := true, failed := false, desiredPosition := position }

/-- Each packet that a drone has sent on has cost it some of its battery (`_append_local_state`). -/
def drain [PyFloat F] (fleet : Fleet F) (hops : List Hop) : Fleet F :=
  { fleet with
    drones := fleet.drones.mapValues fun idx drone =>
      { drone with
        batteryPct := (hops.filter fun hop => hop.linkOk ∧ hop.src = .drone idx).foldl
          (fun battery _ => PyFloat.max 0.0 (battery - 0.02)) drone.batteryPct } }

/-- The battery decides nothing about the branches. -/
@[simp] theorem chain_drain [PyFloat F] (fleet : Fleet F) (hops : List Hop) :
    (fleet.drain hops).chain = fleet.chain := by
  have hdrones : (fleet.drain hops).drones.map runtime = fleet.drones.map runtime := by
    exact Dict.map_mapValues (by intros; rfl) fleet.drones
  rw [chain, chain, hdrones]
  rfl

@[simp] theorem activeBranches_drain [PyFloat F] (fleet : Fleet F) (hops : List Hop) :
    (fleet.drain hops).activeBranches = fleet.activeBranches := by
  rw [activeBranches, chain_drain, activeBranches]

@[simp] theorem parallelEnabled_drain [PyFloat F] (fleet : Fleet F) (hops : List Hop) :
    (fleet.drain hops).parallelEnabled = fleet.parallelEnabled := by
  rw [parallelEnabled, activeBranches_drain]
  rfl

@[simp] theorem desired_drain [PyFloat F] (fleet : Fleet F) (hops : List Hop) (idx : ℤ) :
    (fleet.drain hops).desired idx = fleet.desired idx := by
  rw [desired, drain, Dict.get?_mapValues, Option.map_map]
  rfl

/-- Drones become relays. -/
def integrate (fleet : Fleet F) (joining : List ℤ) : Fleet F :=
  { fleet with
    drones := fleet.drones.mapValues fun idx drone =>
      if idx ∈ joining then { drone with role := "relay", integrated := true } else drone }

section

variable [PyFloat F]

/-- `min(xs, key=key)`: of several smallest elements the first. -/
def minBy (key : ℤ → F) : List ℤ → Option ℤ
  | [] => none
  | x :: xs => some (xs.foldl (fun best y => if PyFloat.lt (key y) (key best) then y else best) x)

/-- The distance of a drone from the nearest relay in service. -/
def reach (fleet : Fleet F) (idx : ℤ) : Option F := do
  let position := (← fleet.drones.get? idx).currentPosition
  let distanceTo (j : ℤ) : F :=
    match fleet.drones.get? j with
    | some drone => position.dist drone.currentPosition
    | none => 0.0
  return distanceTo (← minBy distanceTo fleet.activeChain)

/-- The standby drones within the activation radius of a relay in service. -/
def joining (fleet : Fleet F) (settings : Settings F) : List ℤ :=
  fleet.standbyIndices.filter fun idx =>
    (fleet.reach idx).any fun distance => PyFloat.le distance settings.standbyActivationRadius

end

section

variable [PyText F] [PyFloat F]

/-- The drone that an answer of a hook stands for, looked up under one of three keys. -/
def selectedDrone (fleet : Fleet F) (selected : Json F) : Option ℤ :=
  match selected.dict? with
  | some d =>
      fleet.parseDroneIndex (d.getD "standby_selection"
        (d.getD "replacement_drone" (d.getD "selected" .null)))
  | none => fleet.parseDroneIndex selected

/-- `_strategy_selected_standby`: the first answer that names a standby drone. -/
def strategySelectedStandby (fleet : Fleet F) (standby : List ℤ) (selections : List (Json F)) :
    Option ℤ :=
  (selections.filterMap fleet.selectedDrone).find? fun idx => idx ∈ standby

/-- The standby drone that replaces a failed one, when there is one. -/
def replacement (fleet : Fleet F) (failedPosition : Vec3 F) (selections : List (Json F)) :
    Option ℤ :=
  let standby := fleet.standbyIndices
  (fleet.strategySelectedStandby standby selections).or
    (minBy (fun idx =>
      match fleet.drones.get? idx with
      | some drone => drone.currentPosition.dist failedPosition
      | none => 0.0) standby)

/-- `_activate_best_standby_for_failure`. -/
def activateBestStandby (fleet : Fleet F) (failedIndex : ℤ) (selections : List (Json F)) :
    Fleet F :=
  match fleet.desired failedIndex with
  | none => fleet
  | some failedPosition =>
      match fleet.replacement failedPosition selections with
      | none => fleet
      | some idx => fleet.promote idx failedPosition

end

end Fleet

namespace Controller

/-- `_clear_connectivity_pause`. -/
def clearConnectivityPause (c : Controller F) : Controller F :=
  { c with
    connectivityPaused := false
    flows := c.flows.map fun flow => { flow with paused := false } }

/-- A new packet starts on the first branch. -/
def resetPacket (c : Controller F) : Controller F :=
  { c.clearConnectivityPause with
    stream := .fresh (c.packetCount + 1)
    packetCount := c.packetCount + 1
    currentBranchIndex := 0 }

/-- `_sync_branch_flow_state`. -/
def syncBranchFlowState (c : Controller F) : Controller F :=
  let (flows, packetCount) := syncFlows c.fleet.activeBranches c.flows c.packetCount
  { c with flows, packetCount }

/-- What the hops of a tick are tried against. -/
def surroundings (c : Controller F) (gate : Node → Node → Option String) : Surroundings where
  known := c.fleet.knownNode
  failed := c.fleet.failedNode
  gate := gate

/-- The state after the packets moved, with the hops that were tried and the round trips that were
completed. -/
structure Moved (F : Type) where
  controller : Controller F
  hops : List Hop
  trips : List Trip

/-- `_tick_parallel`. -/
def tickParallel (c : Controller F) (gate : Node → Node → Option String) : Option (Moved F) := do
  let c := c.syncBranchFlowState
  if c.flows = [] then return { controller := c, hops := [], trips := [] }
  -- the last flow that had its turn is the one that the status shows
  else
    let result ← lap (c.surroundings gate) 0 c.flows c.packetCount
    return {
      controller := { c with
        flows := result.flows
        packetCount := result.packetCount
        currentBranchIndex := (result.last.map Prod.fst).getD c.currentBranchIndex
        stream := (result.last.map Prod.snd).getD c.stream
        connectivityPaused := result.flows.all Flow.paused }
      hops := result.hops
      trips := result.trips }

/-- The part of `_tick` that moves the packet of the chain. -/
def tickChain (c : Controller F) (gate : Node → Node → Option String) : Option (Moved F) :=
  if c.connectivityPaused then some { controller := c, hops := [], trips := [] }
  else
    let branches := c.fleet.activeBranches
    let index := c.currentBranchIndex % branches.length
    let branch := (branches[index]?).getD []
    if (nodes branch c.stream.phase).length < 2 then
      some { controller := { c with currentBranchIndex := index }, hops := [], trips := [] }
    else do
      let next := (index + 1) % branches.length
      -- a completed round trip goes on with the next branch
      let departure :=
        c.stream.turnAround branch ((branches[next]?).getD []) c.packetCount
      let (stream, hop) ← departure.stream.cross departure.branch (c.surroundings gate)
      return {
        controller := { c with
          currentBranchIndex := if departure.trip.isSome then next else index
          stream
          packetCount := departure.packetCount
          connectivityPaused := !hop.linkOk }
        hops := [hop]
        trips := departure.trip.toList }

/-- The end of `_tick`: the packets move unless the operator paused the controller. -/
def movePackets (c : Controller F) (gate : Node → Node → Option String) : Option (Moved F) :=
  if c.operatorPaused then some { controller := c, hops := [], trips := [] }
  else if c.fleet.parallelEnabled then c.tickParallel gate
  else c.tickChain gate

/-- The hops that were made have drained the batteries of their senders. -/
def Moved.drained [PyFloat F] (moved : Moved F) : Moved F :=
  { moved with
    controller := { moved.controller with fleet := moved.controller.fleet.drain moved.hops } }

section

variable [PyText F] [PyTrig F]

/-- `_apply_strategy_position_plan`. -/
def applyPlan (c : Controller F) : Plan F → Controller F
  | .nothing => c
  | .observation =>
      { c with
        pendingRevisionId :=
          if c.revision.revisionId = "" then "runtime-current" else c.revision.revisionId }
  | .positions entries => { c with fleet := c.fleet.aimAll (c.fleet.planCommands entries) }

/-- What `_recompute_desired_positions` leaves behind when it raises. -/
def interrupted (c : Controller F) : Controller F :=
  { c with fleet := c.fleet.interrupted c.settings }

/-- `_recompute_desired_positions`. -/
def recompute (c : Controller F) (resetPacket : Bool) (plan : Option (Plan F)) :
    Option (Controller F) := do
  let targets ← Fleet.targets c.settings c.fleet.activeBranches
  let c := { c with fleet := ((c.fleet.layOut targets).sinkFailed).holdStandby }
  let c := c.applyPlan (← plan)
  return if resetPacket then c.resetPacket else c

/-- `_integrate_standby_if_possible`. -/
def integrateStandby (c : Controller F) (plan : Option (Plan F)) : Option (Controller F) :=
  let joining := c.fleet.joining c.settings
  if joining = [] then some c
  else { c with fleet := c.fleet.integrate joining }.recompute true plan

/-- The failure that is due at a time. -/
def dueFailure (c : Controller F) (now : F) : Option ℤ :=
  match c.pendingFailure with
  | none => none
  | some failure =>
      if PyFloat.lt now failure.detectionDeadline then none else some failure.droneIndex

/-- `_process_pending_failure`. -/
def processPendingFailure (c : Controller F) (input : TickInput F) : Option (Controller F) :=
  match c.dueFailure input.now with
  | none => some c
  | some idx =>
      if !c.fleet.known idx || c.fleet.droneCount < idx then some { c with pendingFailure := none }
      else do
        let fleet := c.fleet.markFailed idx
        -- the strategy is asked only if there is a standby drone to select
        let selections ← if fleet.standbyIndices = [] then some [] else input.selections
        { c with
          fleet := fleet.activateBestStandby idx selections
          pendingFailure := none }.recompute true input.failurePlan

/-- `_load_active_strategy`. -/
def loadStrategy (c : Controller F) (input : TickInput F) : Controller F :=
  match input.strategy with
  | none => c
  | some strategyId => { c with strategyId }

/-- The part of `_tick` before the packets move. -/
def prepare (c : Controller F) (input : TickInput F) : Option (Controller F) := do
  let c ← (c.loadStrategy input).processPendingFailure input
  c.integrateStandby input.integrationPlan

/-- `_tick`. -/
def tick (c : Controller F) (input : TickInput F) : Option (Moved F) := do
  let c ← c.prepare input
  return (← c.movePackets input.gate).drained

/-- A tick prepares the state, moves the packets and drains the batteries. -/
theorem tick_spec {c : Controller F} {input : TickInput F} {moved : Moved F}
    (h : c.tick input = some moved) :
    ∃ prepared moved', c.prepare input = some prepared ∧
      prepared.movePackets input.gate = some moved' ∧ moved = moved'.drained := by
  simp only [tick, bind, pure, Option.bind_eq_some_iff, Option.some.injEq] at h
  obtain ⟨prepared, hprepared, moved', hmoved, rfl⟩ := h
  exact ⟨prepared, moved', hprepared, hmoved, rfl⟩

end

end Controller

end Netlab
