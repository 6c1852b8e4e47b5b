import Netlab.Prelude.Run
import Netlab.Relay.UpdateConfig

/-!
# Runs of the packet controller

The controller starts from a legacy configuration and then performs callbacks in any order: ticks,
commands, movement patterns, configuration updates, algorithm actions, poses and status reports. A
callback that raises ends the process; what would follow does nothing.
-/

namespace Netlab

variable {F : Type}

/-! ## Start -/

/-- What the configuration says besides who is a relay and how the relays are arranged, and the
strategy that is loaded at the start. -/
structure StartInput (F : Type) where
  settings : Settings F
  revision : AppliedRevision F
  forwardingPolicy : String
  queueModel : String
  position : ℤ → Vec3 F
  droneId : ℤ → String
  batteryPct : ℤ → F
  antennaGain : ℤ → F
  antennaName : ℤ → String
  strategyId : Option String
  plan : Option (Plan F)

/-- The fleet of a chain whose drones are equipped and placed as the configuration says. -/
def Fleet.ofChain (chain : RelayChain) (input : StartInput F) : Fleet F where
  droneCount := chain.droneCount
  relayCount := chain.relayCount
  standbyCount := chain.standbyCount
  branchCount := chain.branchCount
  transmissionMode := chain.transmissionMode
  manualBranches := chain.manualBranches
  forwardingPolicy := input.forwardingPolicy
  queueModel := input.queueModel
  drones := chain.drones.map fun idx drone =>
    { drone with
      -- no pose has come in yet, and the failures of the file are not taken over
      failed := false
      droneId := input.droneId idx
      initialPosition := input.position idx
      currentPosition := input.position idx
      desiredPosition := input.position idx
      batteryPct := input.batteryPct idx
      antennaGain := input.antennaGain idx
      antennaName := input.antennaName idx
      posed := false }
  failedIndices := chain.failedIndices

@[simp] theorem Fleet.chain_ofChain (chain : RelayChain) (input : StartInput F) :
    (Fleet.ofChain chain input).chain = chain := by
  obtain ⟨_, _, _, _, _, _, drones, _⟩ := chain
  simp only [Fleet.chain, Fleet.ofChain, RelayChain.mk.injEq, true_and, and_true]
  ext1
  simp [Dict.map, Function.comp_def, Fleet.runtime]

namespace Controller

section

variable [PyText F] [PyTrig F]

/-- The controller after `__init__` on a legacy configuration. -/
def start (legacy : LegacyConfig F) (input : StartInput F) : Option (Controller F) := do
  let fleet := Fleet.ofChain (RelayChain.start legacy) input
  let c : Controller F :=
    { fleet
      settings := input.settings
      revision := input.revision
      pendingFailure := none
      homePositions := fleet.drones.map fun _ drone => drone.currentPosition
      stream := .fresh 0
      currentBranchIndex := 0
      packetCount := 0
      flows := []
      connectivityPaused := false
      operatorPaused := false
      missionMode := .running
      strategyId := input.strategyId
      pendingRevisionId := "" }
  -- the first layout does not reset the packet, which is drawn after it
  let c ← c.recompute false input.plan
  return { c with stream := .fresh 1, packetCount := 1 }

end

/-! ## Callbacks -/

/-- A callback of the controller. -/
inductive Op (F : Type)
  | tick (input : TickInput F)
  | fail (idx : ℤ) (now : F)
  | heal (idx : ℤ) (plan : Option (Plan F))
  | standby (idx : ℤ) (plan : Option (Plan F))
  | reset (plan : Option (Plan F))
  | mission (command : MissionCommand)
  | setPattern (message : PatternMessage F)
  | updateConfig (payload : Json F) (input : UpdateInput F)
  | action (message : ActionMessage F)
  | pose (idx : ℤ) (position : Vec3 F)
  | publishStatus

variable [PyText F] [PyTrig F]

/-- The state after a callback, unless it raises. -/
def perform (c : Controller F) : Op F → Option (Controller F)
  | .tick input => (c.tick input).map Moved.controller
  | .fail idx now => some (c.failDrone idx now)
  | .heal idx plan => c.healDrone idx plan
  | .standby idx plan => c.standbyDrone idx plan
  | .reset plan => c.resetChain plan
  | .mission command => some (c.missionCommand command)
  | .setPattern message => some (c.setPattern message)
  | .updateConfig payload input =>
      let attempt := c.updateConfig payload input
      if attempt.raised then none else some attempt.controller
  | .action message => some (c.algorithmAction message)
  | .pose idx position => some (c.pose idx position)
  -- reporting the flows brings them in line with the branches
  | .publishStatus => some c.syncBranchFlowState

/-- A callback of a process that may have ended. -/
def step (s : Option (Controller F)) (op : Op F) : Option (Controller F) :=
  s.bind fun c => c.perform op

/-- The state after callbacks in order, unless one of them raised. -/
def run (s : Option (Controller F)) (ops : List (Op F)) : Option (Controller F) :=
  Run.run step s ops

/-- What every callback preserves holds in every run. -/
theorem run_invariant (Inv : Controller F → Prop)
    (hstep : ∀ c op c', Inv c → perform c op = some c' → Inv c')
    {s : Option (Controller F)} (hs : ∀ c, s = some c → Inv c) {ops : List (Op F)}
    {c : Controller F} (hrun : run s ops = some c) : Inv c := by
  refine Run.run_invariant (fun s => ∀ c, s = some c → Inv c) (fun s op h c' hc' => ?_) hs ops c hrun
  obtain ⟨c, rfl, hperform⟩ := Option.bind_eq_some_iff.mp hc'
  exact hstep c op c' (h c rfl) hperform

/-- A condition on the callbacks of a run, each with the state that it finds. -/
def AllSteps (P : Controller F → Op F → Prop) (c : Controller F) (ops : List (Op F)) : Prop :=
  Run.AllSteps step (fun s op => ∀ c, s = some c → P c op) (some c) ops

/-- What every callback that meets a condition preserves holds in every run whose callbacks all meet
it. -/
theorem run_invariant_of_allSteps (Inv : Controller F → Prop) {P : Controller F → Op F → Prop}
    (hstep : ∀ c op c', Inv c → P c op → perform c op = some c' → Inv c') {c c' : Controller F}
    (hc : Inv c) {ops : List (Op F)} (hops : c.AllSteps P ops)
    (hrun : run (some c) ops = some c') : Inv c' := by
  refine Run.run_invariant_of_allSteps (fun s => ∀ c, s = some c → Inv c)
    (fun s op h hop c' hc' => ?_) (fun _ h => Option.some.inj h ▸ hc) hops c' hrun
  obtain ⟨c, rfl, hperform⟩ := Option.bind_eq_some_iff.mp hc'
  exact hstep c op c' (h c rfl) (hop c rfl) hperform

/-! ## A small fleet -/

/-- Relays in a mode, for evaluations. -/
def sampleConfig (mode : String) (relays branches : ℕ) : LegacyConfig ℚ where
  droneCount := .int relays
  relayCount := .int relays
  standbyCount := .int 0
  failedIndices := []
  branchCount := branches
  transmissionMode := .str mode
  manualBranches := .arr []
  drones := []

/-- The drones stand in a line, ten metres apart, and no strategy is loaded. -/
def sampleStart : StartInput ℚ where
  settings :=
    { experimentName := "relay"
      stationPosition := ⟨0, 0, 0⟩
      stationAntennaName := "sector"
      stationAntennaGain := 8
      coverageRadius := 60
      coverageWidth := 20
      directionDeg := 0
      altitudeStart := 10
      altitudeEnd := 20
      maxSingleHopRange := 40
      hardOutageRange := 220
      allowDegradedForwarding := false
      distancePenalty := 0
      standbyActivationRadius := 5
      failureDetection := 2
      hopPeriod := 1
      movementPattern := "hover"
      movementAmplitude := 10
      movementSpeed := 1
      visualFollowAlpha := 1
      windSpeed := 0
      windDirection := 0
      turbulenceIntensity := 0
      radio :=
        { frequency := 3500000000
          bandwidth := 20000000
          txPower := 23
          noiseFloor := -95
          minSnr := 3
          requiredCapacity := 1
          stationAntennaName := "sector"
          uavAntennaName := "omni"
          antennaModel := "gain" }
      antennas := []
      worlds := [] }
  revision := { revisionId := "rev-1", parentRevisionId := "", hashes := .empty, commandId := "" }
  forwardingPolicy := "fifo_round_robin"
  queueModel := "priority_mg1_preview"
  position idx := ⟨10 * idx, 0, 10⟩
  droneId idx := droneNode idx
  batteryPct _ := 100
  antennaGain _ := 4
  antennaName _ := "omni"
  strategyId := none
  plan := some .nothing

/-- A tick at a time, with links that are all feasible. -/
def sampleTick (now : ℚ) : TickInput ℚ where
  now := now
  strategy := none
  selections := some []
  failurePlan := some .nothing
  integrationPlan := some .nothing
  gate _ _ := some "FEASIBLE"

/-- An update in which the timer accepts every period and no strategy is loaded. -/
def sampleUpdate : UpdateInput ℚ := { acceptsTimer := fun _ => true, plan := some .nothing }

/-- A chain of three relays right after the start. -/
def sampleChain : Controller ℚ :=
  (Controller.start (sampleConfig "chain" 3 1) sampleStart).get (by decide +kernel)

theorem start_sampleChain :
    Controller.start (sampleConfig "chain" 3 1) sampleStart = some sampleChain :=
  (Option.some_get _).symm

/-! ## What the callbacks do -/

/-- A new layout of the fleet: only desired positions change, and the revision that observations
name. -/
theorem recompute_spec {c c' : Controller F} {reset : Bool} {plan : Option (Plan F)}
    (h : c.recompute reset plan = some c') :
    ∃ fleet pendingRevisionId, c.fleet.Aimed fleet ∧
      c' = if reset then { c with fleet, pendingRevisionId }.resetPacket
        else { c with fleet, pendingRevisionId } := by
  simp only [recompute, bind, pure, Option.bind_eq_some_iff, Option.some.injEq] at h
  obtain ⟨targets, -, plan, -, rfl⟩ := h
  have hlaid : c.fleet.Aimed ((c.fleet.layOut targets).sinkFailed).holdStandby :=
    ((Fleet.Aimed.aim _ _).trans (Fleet.Aimed.aim _ _)).trans (Fleet.Aimed.aim _ _)
  cases plan with
  | nothing => exact ⟨_, c.pendingRevisionId, hlaid, rfl⟩
  | observation => exact ⟨_, _, hlaid, rfl⟩
  | positions entries => exact ⟨_, c.pendingRevisionId, hlaid.trans (Fleet.aimed_aimAll _ _), rfl⟩

/-- The first part of a tick: no failure is due, or the one that is due names no drone of the
mission any more, or the drone is marked as failed and the chain laid out anew. -/
theorem processPendingFailure_spec {c c' : Controller F} {input : TickInput F}
    (h : c.processPendingFailure input = some c') :
    (c.dueFailure input.now = none ∧ c' = c) ∨
      ∃ idx, c.dueFailure input.now = some idx ∧
        (((c.fleet.known idx = false ∨ c.fleet.droneCount < idx) ∧
            c' = { c with pendingFailure := none }) ∨
          (c.fleet.known idx = true ∧ idx ≤ c.fleet.droneCount ∧ ∃ selections,
            { c with
              fleet := (c.fleet.markFailed idx).activateBestStandby idx selections
              pendingFailure := none }.recompute true input.failurePlan = some c')) := by
  rw [processPendingFailure] at h
  split at h
  · rename_i hdue
    exact Or.inl ⟨hdue, (Option.some.inj h).symm⟩
  · rename_i idx hdue
    refine Or.inr ⟨idx, hdue, ?_⟩
    -- a drone that has left the fleet in the meantime is not failed
    by_cases hgone : (!c.fleet.known idx || c.fleet.droneCount < idx) = true
    · rw [if_pos hgone] at h
      exact Or.inl ⟨by simpa using hgone, (Option.some.inj h).symm⟩
    · rw [if_neg hgone] at h
      simp only [Bool.or_eq_true, Bool.not_eq_true', decide_eq_true_eq, not_or, not_lt,
        Bool.not_eq_false] at hgone
      refine Or.inr ⟨hgone.1, hgone.2, ?_⟩
      -- without a standby drone nothing is selected
      by_cases hnone : (c.fleet.markFailed idx).standbyIndices = []
      · simp only [hnone, ↓reduceIte, bind, Option.bind_some] at h
        exact ⟨[], h⟩
      · simp only [hnone, ↓reduceIte, bind, Option.bind_eq_some_iff] at h
        obtain ⟨selections, -, hrecompute⟩ := h
        exact ⟨selections, hrecompute⟩

omit [PyText F] [PyTrig F] in
/-- Moving the packets changes nothing but the packets. -/
theorem movePackets_keeps {c : Controller F} {gate : Node → Node → Option String} {moved : Moved F}
    (h : c.movePackets gate = some moved) :
    ∃ stream currentBranchIndex packetCount flows connectivityPaused, moved.controller =
      { c with stream, currentBranchIndex, packetCount, flows, connectivityPaused } := by
  rw [movePackets] at h
  split at h
  · obtain rfl := Option.some.inj h
    exact ⟨_, _, _, _, _, rfl⟩
  split at h
  · rw [tickParallel] at h
    split at h
    · obtain rfl := Option.some.inj h
      exact ⟨_, _, _, _, _, rfl⟩
    · simp only [bind, pure, Option.bind_eq_some_iff, Option.some.injEq] at h
      obtain ⟨result, -, rfl⟩ := h
      exact ⟨_, _, _, _, _, rfl⟩
  · rw [tickChain] at h
    split at h
    · obtain rfl := Option.some.inj h
      exact ⟨_, _, _, _, _, rfl⟩
    dsimp only at h
    split at h
    · obtain rfl := Option.some.inj h
      exact ⟨_, _, _, _, _, rfl⟩
    · simp only [bind, pure, Option.bind_eq_some_iff, Option.some.injEq] at h
      obtain ⟨result, -, rfl⟩ := h
      exact ⟨_, _, _, _, _, rfl⟩

/-- A tick changes the prepared state only in its packets and the batteries. -/
theorem tick_keeps {c : Controller F} {input : TickInput F} {moved : Moved F}
    (h : c.tick input = some moved) :
    ∃ prepared, c.prepare input = some prepared ∧
      ∃ hops stream currentBranchIndex packetCount flows connectivityPaused, moved.controller =
        { prepared with
          fleet := prepared.fleet.drain hops
          stream, currentBranchIndex, packetCount, flows, connectivityPaused } := by
  obtain ⟨prepared, moved', hprepare, hmoved, rfl⟩ := tick_spec h
  obtain ⟨stream, currentBranchIndex, packetCount, flows, connectivityPaused, hkept⟩ :=
    movePackets_keeps hmoved
  refine ⟨prepared, hprepare, moved'.hops, stream, currentBranchIndex, packetCount, flows,
    connectivityPaused, ?_⟩
  rw [Moved.drained, hkept]

end Controller

end Netlab
