import Netlab.Relay.UpdateConfig

/-!
# What an inventory update comes to

The loop of `_sync_drone_inventory` over the drones, when no turn raises: each drone has the role,
the state of service and the failure that its record says, and everything else is as before
(`syncInventory_spec`). The turn of a drone touches no other drone, so the order does not matter.
-/

namespace Netlab

variable {F : Type}

namespace Fleet

section

variable [PyText F] [PyFloat F]

/-- The integers in the failed indices of an update. -/
def listedIndices (raw : Json F) : List ℤ :=
  (match raw with
    | .arr values => values
    | _ => []).filterMap Json.toInt?

theorem get?_takeSpec_self (fleet : Fleet F) (spec : Dict String (Json F)) (limit idx : ℤ) :
    (fleet.takeSpec spec limit idx).drones.get? idx =
      (fleet.drones.get? idx).map (fleet.updatedDrone spec limit idx) := by
  rw [takeSpec, modify, Dict.get?_mapValues]
  simp

theorem get?_takeSpec_of_ne (fleet : Fleet F) (spec : Dict String (Json F)) (limit : ℤ)
    {idx i : ℤ} (h : i ≠ idx) :
    (fleet.takeSpec spec limit idx).drones.get? i = fleet.drones.get? i := by
  rw [takeSpec, modify, Dict.get?_mapValues]
  simp [h]

theorem mem_failedIndices_takeSpec {fleet : Fleet F} {spec : Dict String (Json F)}
    {limit idx i : ℤ} :
    i ∈ (fleet.takeSpec spec limit idx).failedIndices ↔
      if i = idx then fleet.updatedFailed spec idx = true else i ∈ fleet.failedIndices := by
  rw [takeSpec]
  by_cases hfailed : fleet.updatedFailed spec idx = true
  · by_cases hi : i = idx <;> simp [hfailed, hi]
  · by_cases hi : i = idx <;> simp [hfailed, hi]

theorem mem_failedIndices_takeFailedIndices {fleet : Fleet F} {raw : Json F} {idx : ℤ} :
    idx ∈ (fleet.takeFailedIndices raw).failedIndices ↔
      idx ∈ listedIndices raw ∧ 1 ≤ idx ∧ idx ≤ fleet.droneCount := by
  change idx ∈ ((listedIndices raw).filter fun i => 1 ≤ i ∧ i ≤ fleet.droneCount).dedup ↔ _
  rw [List.mem_dedup, List.mem_filter, decide_eq_true_iff]

/-- A drone of the mission when the failed indices of an update have been taken over: it is out of
service if it is listed, and in service otherwise, unless it is on standby. -/
def markListed (raw : Json F) (idx : ℤ) (drone : Drone F) : Drone F :=
  { drone with
    failed := idx ∈ listedIndices raw
    integrated := drone.role ≠ "standby" && !(idx ∈ listedIndices raw) }

theorem get?_takeFailedIndices {fleet : Fleet F} {raw : Json F} {idx : ℤ} (hlow : 1 ≤ idx)
    (hhigh : idx ≤ fleet.droneCount) :
    (fleet.takeFailedIndices raw).drones.get? idx =
      (fleet.drones.get? idx).map (markListed raw idx) := by
  have hget : (fleet.takeFailedIndices raw).drones.get? idx =
      (fleet.drones.get? idx).map fun drone =>
        { drone with
          failed := idx ∈ (listedIndices raw).filter fun i => 1 ≤ i ∧ i ≤ fleet.droneCount
          integrated := drone.role ≠ "standby" ∧
            idx ∉ (listedIndices raw).filter fun i => 1 ≤ i ∧ i ≤ fleet.droneCount } :=
    Dict.get?_mapValues _ _ _
  rw [hget]
  congr 1
  funext drone
  by_cases hrole : drone.role = "standby"
  · simp [markListed, hrole, hlow, hhigh]
  · by_cases hmem : idx ∈ listedIndices raw <;> simp [markListed, hrole, hlow, hhigh, hmem]

end

section

variable [PyText F] [PyTrig F]

/-- A drone of the inventory, or the one that is created at its index. -/
def droneAt (fleet : Fleet F) (settings : Settings F) (droneCount : ℤ)
    (spec : Dict String (Json F)) (limit idx : ℤ) : Option (Drone F) :=
  (fleet.drones.get? idx).or (newDrone settings droneCount spec limit idx)

/-- A new drone has not failed. -/
theorem failed_newDrone {settings : Settings F} {droneCount : ℤ} {spec : Dict String (Json F)}
    {limit idx : ℤ} {drone : Drone F} (h : newDrone settings droneCount spec limit idx = some drone) :
    drone.failed = false := by
  simp only [newDrone, bind, pure, Option.bind_eq_some_iff, Option.some.injEq] at h
  obtain ⟨_, -, _, -, rfl⟩ := h
  rfl

/-- After `_ensure_drone` the drone exists, and nothing else has changed. -/
theorem ensureDrone_spec {fleet fleet' : Fleet F} {settings : Settings F}
    {spec : Dict String (Json F)} {limit idx : ℤ}
    (h : fleet.ensureDrone settings spec limit idx = some fleet') :
    (∃ drone, fleet.droneAt settings fleet.droneCount spec limit idx = some drone ∧
      fleet'.drones.get? idx = some drone) ∧ (∃ drones, fleet' = { fleet with drones }) ∧
      ∀ i, i ≠ idx → fleet'.drones.get? i = fleet.drones.get? i := by
  rw [ensureDrone] at h
  split at h
  · rename_i hknown
    obtain rfl := Option.some.inj h
    obtain ⟨drone, hdrone⟩ := Option.isSome_iff_exists.mp hknown
    refine ⟨⟨drone, ?_, hdrone⟩, ⟨_, rfl⟩, fun _ _ => rfl⟩
    rw [droneAt, hdrone, Option.some_or]
  · rename_i hunknown
    simp only [bind, pure, Option.bind_eq_some_iff, Option.some.injEq] at h
    obtain ⟨drone, hdrone, rfl⟩ := h
    have hnone : fleet.drones.get? idx = none := by simpa [known] using hunknown
    refine ⟨⟨drone, ?_, Dict.get?_set_self _ _ _⟩, ⟨_, rfl⟩, fun i hi => Dict.get?_set_of_ne _ _ hi⟩
    rw [droneAt, hnone, Option.none_or, hdrone]

end

end Fleet

namespace Controller

/-- The record of a drone in an update; the empty one when it has none. -/
def recordOf (specs : Dict ℤ (Dict String (Json F))) (idx : ℤ) : Dict String (Json F) :=
  (specs.get? idx).getD .empty

/-- The records of some drones have been taken over, and everything else is as before. -/
structure Synced [PyText F] [PyTrig F] (specs : Dict ℤ (Dict String (Json F))) (limit : ℤ)
    (indices : List ℤ) (c c' : Controller F) : Prop where
  rest : c' = { c with fleet := { c.fleet with
    drones := c'.fleet.drones, failedIndices := c'.fleet.failedIndices } }
  drone : ∀ idx ∈ indices, ∃ drone,
    c.fleet.droneAt c.settings c.fleet.droneCount (recordOf specs idx) limit idx = some drone ∧
      c'.fleet.drones.get? idx = some (c.fleet.updatedDrone (recordOf specs idx) limit idx drone)
  failed : ∀ idx ∈ indices, (idx ∈ c'.fleet.failedIndices ↔
    c.fleet.updatedFailed (recordOf specs idx) idx = true)
  otherDrone : ∀ idx, idx ∉ indices → c'.fleet.drones.get? idx = c.fleet.drones.get? idx
  otherFailed : ∀ idx, idx ∉ indices → (idx ∈ c'.fleet.failedIndices ↔ idx ∈ c.fleet.failedIndices)

/-- A turn after other ones: the drones do not meet. -/
theorem Synced.cons [PyText F] [PyTrig F] {specs : Dict ℤ (Dict String (Json F))}
    {limit idx : ℤ} {indices : List ℤ} {c c' c'' : Controller F} (hidx : idx ∉ indices)
    (h : Synced specs limit [idx] c c')
    (h' : Synced specs limit indices c' c'') : Synced specs limit (idx :: indices) c c'' := by
  have hne : ∀ i ∈ indices, i ∉ [idx] := by
    intro i hi hmem
    obtain rfl := List.mem_singleton.mp hmem
    exact hidx hi
  -- the other drones are still to be asked what they were asked before
  have hupdated : ∀ i ∈ indices, c'.fleet.updatedFailed (recordOf specs i) i =
      c.fleet.updatedFailed (recordOf specs i) i := by
    intro i hi
    rw [Fleet.updatedFailed, Fleet.updatedFailed, decide_eq_decide.mpr (h.otherFailed i (hne i hi))]
  -- and new ones are created from the same numbers and settings
  have hdroneAt : ∀ i ∈ indices,
      c'.fleet.droneAt c'.settings c'.fleet.droneCount (recordOf specs i) limit i =
        c.fleet.droneAt c.settings c.fleet.droneCount (recordOf specs i) limit i := by
    intro i hi
    rw [Fleet.droneAt, Fleet.droneAt, h.otherDrone i (hne i hi), h.rest]
  refine ⟨?_, ?_, ?_, fun i hi => ?_, fun i hi => ?_⟩
  · rw [h'.rest, h.rest]
  · intro i hi
    rcases List.mem_cons.mp hi with rfl | hmem
    · rw [h'.otherDrone i hidx]
      exact h.drone i (List.mem_singleton_self i)
    · obtain ⟨drone, hdrone, hget⟩ := h'.drone i hmem
      refine ⟨drone, (hdroneAt i hmem).symm.trans hdrone, hget.trans ?_⟩
      rw [Fleet.updatedDrone, Fleet.updatedDrone, hupdated i hmem]
  · intro i hi
    rcases List.mem_cons.mp hi with rfl | hmem
    · rw [h'.otherFailed i hidx]
      exact h.failed i (List.mem_singleton_self i)
    · rw [h'.failed i hmem, hupdated i hmem]
  · obtain ⟨hother, hmem⟩ := not_or.mp fun hor => hi (List.mem_cons.mpr hor)
    rw [h'.otherDrone i hmem, h.otherDrone i fun heq => hother (List.mem_singleton.mp heq)]
  · obtain ⟨hother, hmem⟩ := not_or.mp fun hor => hi (List.mem_cons.mpr hor)
    rw [h'.otherFailed i hmem, h.otherFailed i fun heq => hother (List.mem_singleton.mp heq)]

section

variable [PyText F] [PyTrig F]

/-- The turn of one drone. -/
theorem syncDrone_spec {c : Controller F} {specs : Dict ℤ (Dict String (Json F))} {limit idx : ℤ}
    (h : (c.syncDrone specs limit idx).raised = false) :
    Synced specs limit [idx] c (c.syncDrone specs limit idx).controller := by
  have hresult := Attempt.orElse_succeeds.mp h
  simp only [bind, pure, Option.bind_eq_some_iff, Option.some.injEq] at hresult
  obtain ⟨fleet, hensured, hc'⟩ := hresult
  obtain ⟨⟨drone, hdroneAt, hget⟩, ⟨drones, hfleet⟩, hother⟩ := Fleet.ensureDrone_spec hensured
  change { c with fleet := fleet.takeSpec (recordOf specs idx) limit idx } =
    (c.syncDrone specs limit idx).controller at hc'
  rw [← hc']
  -- whether a drone counts as failed does not depend on the new drone
  have hupdated : fleet.updatedFailed (recordOf specs idx) idx =
      c.fleet.updatedFailed (recordOf specs idx) idx := by
    rw [hfleet]
    rfl
  refine ⟨?_, ?_, ?_, fun i hi => ?_, fun i hi => ?_⟩
  · rw [hfleet]
    rfl
  · intro i hi
    obtain rfl := List.mem_singleton.mp hi
    refine ⟨drone, hdroneAt, ?_⟩
    rw [Fleet.get?_takeSpec_self, hget, Option.map_some, Fleet.updatedDrone, Fleet.updatedDrone,
      hupdated]
  · intro i hi
    obtain rfl := List.mem_singleton.mp hi
    rw [Fleet.mem_failedIndices_takeSpec, if_pos rfl, hupdated]
  · have hne : i ≠ idx := fun heq => hi (List.mem_singleton.mpr heq)
    rw [Fleet.get?_takeSpec_of_ne _ _ _ hne, hother i hne]
  · have hne : i ≠ idx := fun heq => hi (List.mem_singleton.mpr heq)
    rw [Fleet.mem_failedIndices_takeSpec, if_neg hne, hfleet]

/-- The loop over some drones. -/
def syncDrones (c : Controller F) (specs : Dict ℤ (Dict String (Json F))) (limit : ℤ)
    (indices : List ℤ) : Attempt F :=
  indices.foldl (fun attempt idx => attempt.andThen fun c => c.syncDrone specs limit idx) (.ok c)

theorem synced_of_turn {c c' : Controller F} {specs : Dict ℤ (Dict String (Json F))} {limit idx : ℤ}
    (h : c.syncDrone specs limit idx = { controller := c', raised := false }) :
    Synced specs limit [idx] c c' := by
  have hspec := @syncDrone_spec _ _ _ c specs limit idx (by rw [h])
  rwa [h] at hspec

theorem syncDrones_cons {c : Controller F} {attempt : Attempt F}
    {specs : Dict ℤ (Dict String (Json F))} {limit idx : ℤ}
    (h : c.syncDrone specs limit idx = attempt) (indices : List ℤ) :
    c.syncDrones specs limit (idx :: indices) = indices.foldl
      (fun attempt idx => attempt.andThen fun c => c.syncDrone specs limit idx) attempt := by
  rw [syncDrones, List.foldl_cons, Attempt.andThen_of_succeeds rfl, Attempt.ok, h]

/-- The records of drones are taken over one after the other. -/
theorem syncDrones_spec {specs : Dict ℤ (Dict String (Json F))} {limit : ℤ} {indices : List ℤ} :
    ∀ {c : Controller F}, indices.Nodup → (c.syncDrones specs limit indices).raised = false →
      Synced specs limit indices c (c.syncDrones specs limit indices).controller := by
  induction indices with
  | nil =>
      intro c _ _
      exact ⟨rfl, by simp, by simp, fun _ _ => rfl, fun _ _ => Iff.rfl⟩
  | cons idx indices ih =>
      intro c hnodup h
      obtain ⟨hidx, hnodup⟩ := List.nodup_cons.mp hnodup
      cases hturn : c.syncDrone specs limit idx with
      | mk c' raised =>
          have hcons := syncDrones_cons hturn indices
          cases raised with
          | true =>
              rw [hcons, Attempt.foldl_of_raised rfl] at h
              cases h
          | false =>
              rw [hcons] at h ⊢
              exact (synced_of_turn hturn).cons hidx (ih hnodup h)

/-- An inventory update that succeeds changes the numbers of drones and then takes over the records
of all drones of the mission. -/
theorem syncInventory_spec {c : Controller F} {total relay : ℤ} {specs : Option (List (Json F))}
    (h : (c.syncInventory total relay specs).raised = false) :
    Synced (Fleet.specsByIndex (max 1 total) specs) (max 1 (min (max 1 total) relay))
      (RelayChain.missionIndices (max 1 total))
      (c.resize (max 1 total) (max 1 (min (max 1 total) relay)))
      (c.syncInventory total relay specs).controller :=
  syncDrones_spec ((RelayChain.pairwise_missionIndices _).imp fun hlt => hlt.ne) h

/-! ## The configured state -/

/-- The number of drones that an update leads to. -/
def requested (c : Controller F) (payload : Dict String (Json F)) : ℤ :=
  max 1 (c.requestedCounts payload).1

/-- The number of relays that an update leads to. -/
def relayLimit (c : Controller F) (payload : Dict String (Json F)) : ℤ :=
  max 1 (min (c.requested payload) (c.requestedCounts payload).2)

/-- The record of a drone in the payload of an update. -/
def specOf (c : Controller F) (payload : Dict String (Json F)) (idx : ℤ) : Dict String (Json F) :=
  recordOf (Fleet.specsByIndex (c.requested payload) (droneSpecs payload)) idx

/-- Whether an update leads to a failed drone: the failed indices of the update decide if there are
any, otherwise the record of the drone, and without a word in it the drone is as before. -/
def declaredFailed (c : Controller F) (payload : Dict String (Json F)) (idx : ℤ) : Bool :=
  match payload.get? "failed_indices" with
  | some raw => idx ∈ Fleet.listedIndices raw
  | none => c.fleet.updatedFailed (c.specOf payload idx) idx

/-- A drone as an update leaves it before the positions are recomputed. -/
def declaredDrone (c : Controller F) (payload : Dict String (Json F)) (idx : ℤ) (drone : Drone F) :
    Drone F :=
  let drone := c.fleet.updatedDrone (c.specOf payload idx) (c.relayLimit payload) idx drone
  match payload.get? "failed_indices" with
  | some raw => Fleet.markListed raw idx drone
  | none => drone

omit [PyTrig F] in
/-- Whether a drone of the mission counts as failed does not depend on the change of the numbers. -/
theorem updatedFailed_resize {c : Controller F} {requested limit idx : ℤ} (h : idx ≤ requested)
    (spec : Dict String (Json F)) :
    (c.resize requested limit).fleet.updatedFailed spec idx = c.fleet.updatedFailed spec idx := by
  have hmem : idx ∈ (c.resize requested limit).fleet.failedIndices ↔ idx ∈ c.fleet.failedIndices := by
    simp [resize, Fleet.prune, h]
  rw [Fleet.updatedFailed, Fleet.updatedFailed, decide_eq_decide.mpr hmem]

/-- The inventory of an update could be taken over: every new drone could be created. -/
def InventorySynced (c : Controller F) (payload : Dict String (Json F)) : Prop :=
  ((c.takeHeader payload).syncInventory ((c.takeHeader payload).requestedCounts payload).1
    ((c.takeHeader payload).requestedCounts payload).2 (droneSpecs payload)).raised = false

/-- A configured state comes from the synchronized inventory. -/
theorem configured_synced {c : Controller F} {payload : Dict String (Json F)}
    (h : c.InventorySynced payload) :
    ∃ c', Synced (Fleet.specsByIndex (c.requested payload) (droneSpecs payload))
        (c.relayLimit payload) (RelayChain.missionIndices (c.requested payload))
        ((c.takeHeader payload).resize (c.requested payload) (c.relayLimit payload)) c' ∧
      (c.configured payload).fleet = (match payload.get? "failed_indices" with
        | some raw => c'.fleet.takeFailedIndices raw
        | none => c'.fleet).takeTopology payload ∧
      (c.configured payload).pendingFailure = c'.pendingFailure ∧
      (c.configured payload).revision = c'.revision ∧
      (c.configured payload).settings =
        ((c'.settings.takeNumbers payload).takePeriod payload).takeEquipment payload :=
  ⟨_, syncInventory_spec h, rfl, rfl, rfl, rfl⟩

/-- What a configured state says besides its drones. -/
theorem configured_rest {c : Controller F} {payload : Dict String (Json F)}
    (h : c.InventorySynced payload) :
    (c.configured payload).revision = c.updatedRevision payload ∧
      (c.configured payload).settings = c.updatedSettings payload ∧
      (c.configured payload).pendingFailure =
        (c.resize (c.requested payload) (c.relayLimit payload)).pendingFailure := by
  obtain ⟨c', hsynced, -, hpending, hrevision, hsettings⟩ := configured_synced h
  rw [hrevision, hsettings, hpending, hsynced.rest]
  exact ⟨rfl, rfl, rfl⟩

/-- The numbers and the topology of a configured state. -/
theorem configured_topology {c : Controller F} {payload : Dict String (Json F)}
    (h : c.InventorySynced payload) :
    (c.configured payload).fleet.droneCount = c.requested payload ∧
      (c.configured payload).fleet.relayCount = c.relayLimit payload ∧
      (c.configured payload).fleet.standbyCount =
        max 0 (c.requested payload - c.relayLimit payload) ∧
      (c.configured payload).fleet.branchCount =
        ((c.resize (c.requested payload) (c.relayLimit payload)).fleet.takeTopology
          payload).branchCount ∧
      (c.configured payload).fleet.transmissionMode = c.fleet.updatedMode payload ∧
      (c.configured payload).fleet.manualBranches =
        (c.resize (c.requested payload) (c.relayLimit payload)).fleet.updatedManualBranches
          payload ∧
      (c.configured payload).fleet.forwardingPolicy =
        Fleet.updatedTopologyText payload "forwarding_policy" c.fleet.forwardingPolicy ∧
      (c.configured payload).fleet.queueModel =
        Fleet.updatedTopologyText payload "queue_model" c.fleet.queueModel := by
  obtain ⟨c', hsynced, hfleet, -⟩ := configured_synced h
  rw [hfleet]
  cases payload.get? "failed_indices" <;>
    (dsimp only; rw [hsynced.rest]; exact ⟨rfl, rfl, rfl, rfl, rfl, rfl, rfl, rfl⟩)

/-- A drone of the mission in a configured state: the one that was there or a new one, as the update
declares it. -/
theorem configured_drone {c : Controller F} {payload : Dict String (Json F)}
    (h : c.InventorySynced payload) {idx : ℤ} (hlow : 1 ≤ idx) (hhigh : idx ≤ c.requested payload) :
    ∃ drone, c.fleet.droneAt c.settings (c.requested payload) (c.specOf payload idx)
        (c.relayLimit payload) idx = some drone ∧
      (c.configured payload).fleet.drones.get? idx = some (c.declaredDrone payload idx drone) := by
  obtain ⟨c', hsynced, hfleet, -⟩ := configured_synced h
  obtain ⟨drone, hdroneAt, hget⟩ :=
    hsynced.drone idx (RelayChain.mem_missionIndices.mpr ⟨hlow, hhigh⟩)
  refine ⟨drone, ?_, ?_⟩
  · -- the resize removes no drone of the mission
    have hbefore : ((c.takeHeader payload).resize (c.requested payload)
        (c.relayLimit payload)).fleet.drones.get? idx = c.fleet.drones.get? idx :=
      (Dict.get?_restrict _ _ _).trans (if_pos (decide_eq_true hhigh))
    rw [Fleet.droneAt, hbefore] at hdroneAt
    exact hdroneAt
  · have hcount : c'.fleet.droneCount = c.requested payload := by
      rw [hsynced.rest]
      rfl
    have htaken : c'.fleet.drones.get? idx = some (c.fleet.updatedDrone (c.specOf payload idx)
        (c.relayLimit payload) idx drone) := by
      rw [hget, Fleet.updatedDrone, updatedFailed_resize hhigh]
      rfl
    rw [hfleet, declaredDrone]
    cases payload.get? "failed_indices" with
    | some raw =>
        change (c'.fleet.takeFailedIndices raw).drones.get? idx = _
        rw [Fleet.get?_takeFailedIndices hlow (hcount ▸ hhigh), htaken]
        rfl
    | none => exact htaken

/-- Of the drones outside the mission those beyond the requested number are gone. -/
theorem configured_outside {c : Controller F} {payload : Dict String (Json F)}
    (h : c.InventorySynced payload) {idx : ℤ} (houtside : ¬ (1 ≤ idx ∧ idx ≤ c.requested payload)) :
    (c.configured payload).fleet.known idx =
      (c.fleet.known idx && decide (idx ≤ c.requested payload)) := by
  obtain ⟨c', hsynced, hfleet, -⟩ := configured_synced h
  -- the loop does not visit the drone, and the resize drops those beyond the count
  have hother : c'.fleet.drones.get? idx =
      if idx ≤ c.requested payload then c.fleet.drones.get? idx else none := by
    rw [hsynced.otherDrone idx fun hmem => houtside (RelayChain.mem_missionIndices.mp hmem)]
    exact (Dict.get?_restrict _ _ _).trans (by simp only [decide_eq_true_eq]; rfl)
  have hknown : (c.configured payload).fleet.known idx = c'.fleet.known idx := by
    rw [hfleet]
    cases payload.get? "failed_indices" with
    | some raw =>
        change ((c'.fleet.drones.mapValues _).get? idx).isSome = _
        rw [Dict.get?_mapValues, Option.isSome_map, Fleet.known]
    | none => rfl
  rw [hknown, Fleet.known, hother]
  split
  · rename_i hle
    simp [Fleet.known, hle]
  · rename_i hgt
    simp [hgt]

/-- Which drones of the mission have failed in a configured state. -/
theorem configured_failed {c : Controller F} {payload : Dict String (Json F)}
    (h : c.InventorySynced payload) {idx : ℤ} (hlow : 1 ≤ idx) (hhigh : idx ≤ c.requested payload) :
    idx ∈ (c.configured payload).fleet.failedIndices ↔ c.declaredFailed payload idx = true := by
  obtain ⟨c', hsynced, hfleet, -⟩ := configured_synced h
  rw [hfleet, declaredFailed]
  cases payload.get? "failed_indices" with
  | some raw =>
      have hcount : c'.fleet.droneCount = c.requested payload := by
        rw [hsynced.rest]
        rfl
      change idx ∈ (c'.fleet.takeFailedIndices raw).failedIndices ↔ _
      rw [Fleet.mem_failedIndices_takeFailedIndices, hcount, decide_eq_true_iff]
      exact ⟨fun hmem => hmem.1, fun hmem => ⟨hmem, hlow, hhigh⟩⟩
  | none =>
      change idx ∈ c'.fleet.failedIndices ↔ _
      rw [hsynced.failed idx (RelayChain.mem_missionIndices.mpr ⟨hlow, hhigh⟩)]
      exact iff_of_eq (congrArg (· = true) (updatedFailed_resize hhigh _))

/-- The state before the recomputation of an update whose inventory could be taken over: the drones
of the mission are as the update says, and of the others only those within the number are left. -/
theorem configured_spec {c : Controller F} {payload : Dict String (Json F)}
    (h : c.InventorySynced payload) :
    (c.configured payload).fleet.droneCount = c.requested payload ∧
    (c.configured payload).pendingFailure =
      (c.resize (c.requested payload) (c.relayLimit payload)).pendingFailure ∧
    (∀ idx, 1 ≤ idx → idx ≤ c.requested payload →
      (idx ∈ (c.configured payload).fleet.failedIndices ↔ c.declaredFailed payload idx = true) ∧
      (c.configured payload).fleet.chain.drones.get? idx = some {
        role := Fleet.updatedRole (c.specOf payload idx) (c.relayLimit payload) idx
        integrated := ((payload.get? "failed_indices").isSome ||
            (c.specOf payload idx).getBool "active" true) &&
          Fleet.updatedRole (c.specOf payload idx) (c.relayLimit payload) idx ≠ "standby" &&
          !c.declaredFailed payload idx }) ∧
    ∀ idx, ¬ (1 ≤ idx ∧ idx ≤ c.requested payload) →
      (c.configured payload).fleet.known idx =
        (c.fleet.known idx && decide (idx ≤ c.requested payload)) := by
  obtain ⟨hcount, -⟩ := configured_topology h
  obtain ⟨-, -, hpending⟩ := configured_rest h
  refine ⟨hcount, hpending, fun idx hlow hhigh => ⟨configured_failed h hlow hhigh, ?_⟩,
    fun idx houtside => configured_outside h houtside⟩
  obtain ⟨drone, -, hget⟩ := configured_drone h hlow hhigh
  rw [Fleet.chain, Dict.get?_map, hget, declaredDrone, declaredFailed]
  cases payload.get? "failed_indices" <;> simp [Fleet.runtime, Fleet.markListed, Fleet.updatedDrone]

/-- Of the failed indices outside the mission, an update without failed indices keeps those of
drones that are not removed, and an update with failed indices keeps none. -/
theorem failed_outside {c : Controller F} {payload : Dict String (Json F)}
    (h : c.InventorySynced payload) {idx : ℤ} (houtside : ¬ (1 ≤ idx ∧ idx ≤ c.requested payload)) :
    idx ∈ (c.configured payload).fleet.failedIndices ↔
      payload.get? "failed_indices" = none ∧ idx ∈ c.fleet.failedIndices ∧
        ¬ (c.fleet.known idx = true ∧ c.requested payload < idx) := by
  obtain ⟨c', hsynced, hfleet, -⟩ := configured_synced h
  have hcount : c'.fleet.droneCount = c.requested payload := by
    rw [hsynced.rest]
    rfl
  rw [hfleet]
  cases hraw : payload.get? "failed_indices" with
  | some raw =>
      change idx ∈ (c'.fleet.takeFailedIndices raw).failedIndices ↔ _
      rw [Fleet.mem_failedIndices_takeFailedIndices, hcount]
      exact iff_of_false (fun hmem => houtside hmem.2) fun hnone => by cases hnone.1
  | none =>
      change idx ∈ c'.fleet.failedIndices ↔ _
      rw [hsynced.otherFailed idx fun hmem => houtside (RelayChain.mem_missionIndices.mp hmem)]
      cases hknown : c.fleet.known idx <;> simp [takeHeader, adjust, resize, Fleet.prune, hknown]

end

end Controller

end Netlab
