import Netlab.Config.Validation

/-!
# The legacy projection

What `emit_legacy_config` passes on of the inventory and the topology to the ROS packet controller:
the counts, the drone records, the mode, the number of branches, and the branches. The manual edges
are not passed on. A configuration on which the projection raises gives `none`.
-/

namespace Netlab

variable {F : Type}

/-- A drone record of the legacy configuration. The position, battery and antenna fields are left
out. -/
structure LegacyDrone (F : Type) where
  id : Json F
  index : Json F
  role : Json F
  active : Bool
  failed : Bool

/-- The part of the legacy configuration that describes the inventory and the topology. -/
structure LegacyConfig (F : Type) where
  droneCount : Json F
  relayCount : Json F
  standbyCount : Json F
  failedIndices : List ℤ
  branchCount : ℕ
  transmissionMode : Json F
  manualBranches : Json F
  drones : List (LegacyDrone F)

variable [PyText F]

/-- Project one drone record. Its identifier is looked up among the antenna assignments, so it has
to be a key. -/
def legacyDrone (item : Json F) : Option (LegacyDrone F) := do
  let record ← item.dict?
  let id ← record.get? "id"
  -- an id that cannot be a key raises
  if !id.isHashable then none
  else
    return {
      id
      index := ← record.get? "index"
      role := record.getD "role" (.str "relay")
      active := record.getBool "active" true
      failed := record.getBool "failed" false }

variable [PyFloat F]

/-- The indices of the drones that are marked as failed. -/
def failedIndices (drones : List (LegacyDrone F)) : Option (List ℤ) :=
  (drones.filter LegacyDrone.failed).mapM fun drone => drone.index.toInt?

/-- Project a configuration (`emit_legacy_config`). -/
def emitLegacyConfig (config : ExperimentConfig F) : Option (LegacyConfig F) := do
  let drones ← (← (← config.swarm.get? "drones").elements?).mapM legacyDrone
  let branches ← config.topology.get? "branches"
  return {
    droneCount := ← config.swarm.get? "drone_count"
    relayCount := ← config.swarm.get? "relay_count"
    standbyCount := ← config.swarm.get? "standby_count"
    failedIndices := ← failedIndices drones
    branchCount := ← branches.length?
    transmissionMode := ← config.topology.get? "mode"
    manualBranches := branches
    drones }

/-- What the projection passes on. -/
theorem emitLegacyConfig_spec {config : ExperimentConfig F} {legacy : LegacyConfig F}
    (h : emitLegacyConfig config = some legacy) :
    config.swarm.get? "drone_count" = some legacy.droneCount ∧
      config.swarm.get? "relay_count" = some legacy.relayCount ∧
      config.topology.get? "branches" = some legacy.manualBranches ∧
      legacy.manualBranches.length? = some legacy.branchCount ∧
      config.topology.get? "mode" = some legacy.transmissionMode ∧
      ∃ records, (config.swarm.get? "drones").bind Json.elements? = some records ∧
        records.mapM legacyDrone = some legacy.drones := by
  simp only [emitLegacyConfig, bind, pure, Option.bind_eq_some_iff, Option.some.injEq] at h
  obtain ⟨value, hvalue, records, hrecords, drones, hdrones, branches, hbranches, _, hcount,
    _, hrelay, _, _, _, _, _, hlength, _, hmode, rfl⟩ := h
  exact ⟨hcount, hrelay, hbranches, hlength, hmode, records,
    by rw [hvalue, Option.bind_some, hrecords], hdrones⟩

end Netlab
