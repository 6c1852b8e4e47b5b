import Netlab.Relay.Failures

/-!
# Cold start and hot update

A legacy configuration reaches the controller in two ways: it starts from it, or it receives it as
an update while it runs. Both read the same payload, each in its own way. The update takes over
failed drones, reads roles without regard to case, gives roles by index only to drones without a
record, has at most as many branches as relays, and keeps its mode when the one in the payload is
unknown. `cold_eq_hot_iff` says when this makes no difference.
-/

namespace Netlab

variable {F : Type}

/-! ## The payload of a projected configuration -/

/-- A drone record of a payload and the projected record it stands for. -/
structure CarriesDrone (record : Dict String (Json F)) (drone : LegacyDrone F) : Prop where
  id : record.get? "id" = some drone.id
  index : record.get? "index" = some drone.index
  role : record.get? "role" = some drone.role
  active : record.get? "active" = some (.bool drone.active)
  failed : record.get? "failed" = some (.bool drone.failed)

/-- A payload holds the members of a legacy configuration. What else it holds is left open. -/
structure Carries (payload : Dict String (Json F)) (legacy : LegacyConfig F) : Prop where
  droneCount : payload.get? "drone_count" = some legacy.droneCount
  relayCount : payload.get? "relay_count" = some legacy.relayCount
  standbyCount : payload.get? "standby_count" = some legacy.standbyCount
  failedIndices : payload.get? "failed_indices" = some (.arr (legacy.failedIndices.map .int))
  branchCount : payload.get? "branch_count" = some (.int legacy.branchCount)
  transmissionMode : payload.get? "transmission_mode" = some legacy.transmissionMode
  manualBranches : payload.get? "manual_branches" = some legacy.manualBranches
  drones : ∃ items, payload.get? "drones" = some (.arr items) ∧
    List.Forall₂ (fun item drone => ∃ record, item.dict? = some record ∧ CarriesDrone record drone)
      items legacy.drones

/-- The payload that a drone record is written as. -/
def LegacyDrone.toJson (drone : LegacyDrone F) : Json F :=
  .obj [("id", drone.id), ("index", drone.index), ("role", drone.role),
    ("active", .bool drone.active), ("failed", .bool drone.failed)]

/-- The payload that a legacy configuration is written as. -/
def LegacyConfig.toJson (legacy : LegacyConfig F) : Json F :=
  .obj [("drone_count", legacy.droneCount), ("relay_count", legacy.relayCount),
    ("standby_count", legacy.standbyCount),
    ("failed_indices", .arr (legacy.failedIndices.map .int)),
    ("branch_count", .int legacy.branchCount), ("transmission_mode", legacy.transmissionMode),
    ("manual_branches", legacy.manualBranches),
    ("drones", .arr (legacy.drones.map LegacyDrone.toJson))]

/-- What is written carries the configuration. -/
theorem carries_toJson (legacy : LegacyConfig F) :
    ∃ d, legacy.toJson.dict? = some d ∧ Carries d legacy := by
  refine ⟨_, rfl, ?_, ?_, ?_, ?_, ?_, ?_, ?_, legacy.drones.map LegacyDrone.toJson, ?_, ?_⟩
  iterate 8 exact Dict.get?_ofList_of_mem (by simp) (by simp)
  rw [List.forall₂_map_left_iff, List.forall₂_same]
  intro drone _
  refine ⟨_, rfl, ?_, ?_, ?_, ?_, ?_⟩
  all_goals exact Dict.get?_ofList_of_mem (by simp) (by simp)

section

variable [PyText F] [PyTrig F]

/-! ## The roles of an update -/

/-- The record of a drone that an update reads: the last one with its index. -/
def updateRecord (drones : List (LegacyDrone F)) (idx : ℤ) : Option (LegacyDrone F) :=
  drones.reverse.find? fun item => RelayChain.asInt item.index 0 = idx

/-- The role that an update gives to a drone. -/
def updateRole (drones : List (LegacyDrone F)) (relayCount idx : ℤ) : String :=
  let role := PyText.lower F (match updateRecord drones idx with
    | some item => item.role.toText
    | none => if idx ≤ relayCount then "relay" else "standby")
  if role ∈ ["relay", "standby"] then role else "relay"

/-- Of the records within the mission, the last one with an index counts. -/
theorem get?_specsByIndex {requested idx : ℤ} (hlow : 1 ≤ idx) (hhigh : idx ≤ requested)
    (items : List (Json F)) :
    (Fleet.specsByIndex requested (some items)).get? idx =
      (items.filterMap Json.dict?).reverse.find? fun spec => Fleet.specIndex spec = idx := by
  rw [Fleet.specsByIndex, Option.getD_some]
  generalize items.filterMap Json.dict? = specs
  induction specs using List.reverseRecOn with
  | nil => rfl
  | append_singleton specs spec ih =>
      rw [List.foldl_append, List.reverse_append, List.reverse_singleton, List.singleton_append,
        List.find?_cons]
      by_cases hidx : Fleet.specIndex spec = idx
      · simp [hidx, hlow, hhigh]
      · simp only [List.foldl_cons, List.foldl_nil, hidx, decide_false]
        rw [← ih]
        split
        · exact Dict.get?_set_of_ne _ _ (Ne.symm hidx)
        · rfl

/-- Related lists have related first elements with related properties. -/
private theorem find?_related {α β : Type*} {R : α → β → Prop} {p : α → Bool} {q : β → Bool}
    (hpq : ∀ a b, R a b → p a = q b) {l : List α} {l' : List β} (h : List.Forall₂ R l l') :
    (l.find? p = none ∧ l'.find? q = none) ∨
      ∃ a b, l.find? p = some a ∧ l'.find? q = some b ∧ R a b := by
  induction h with
  | nil => exact Or.inl ⟨rfl, rfl⟩
  | @cons a b l l' hab _ ih =>
      rw [List.find?_cons, List.find?_cons, hpq a b hab]
      cases q b with
      | true => exact Or.inr ⟨a, b, rfl, rfl, hab⟩
      | false => exact ih

/-- An update gives the roles that the projected records say. -/
theorem updatedRole_eq {c : Controller F} {payload : Dict String (Json F)} {legacy : LegacyConfig F}
    (h : Carries payload legacy) {idx : ℤ} (hlow : 1 ≤ idx) (hhigh : idx ≤ c.requested payload)
    (limit : ℤ) :
    Fleet.updatedRole (c.specOf payload idx) limit idx = updateRole legacy.drones limit idx := by
  obtain ⟨items, hitems, hrecords⟩ := h.drones
  have hspecs : Controller.droneSpecs payload = some items := by
    rw [Controller.droneSpecs, hitems]
  -- the payload records and the legacy drones agree pairwise, hence also from the back,
  have hrelated : List.Forall₂ CarriesDrone (items.filterMap Json.dict?) legacy.drones := by
    clear hitems hspecs
    generalize legacy.drones = drones at hrecords ⊢
    induction hrecords with
    | nil => exact .nil
    | cons hitem _ ih =>
        obtain ⟨record, hrecord, hcarries⟩ := hitem
        rw [List.filterMap_cons_some hrecord]
        exact .cons hcarries ih
  -- where the last record with the index is found
  have hindex : ∀ (record : Dict String (Json F)) (drone : LegacyDrone F),
      CarriesDrone record drone → decide (Fleet.specIndex record = idx) =
        decide (RelayChain.asInt drone.index 0 = idx) := by
    intro record drone hcarries
    rw [Fleet.specIndex, Dict.getD, hcarries.index]
    rfl
  rw [Controller.specOf, Controller.recordOf, hspecs, get?_specsByIndex hlow hhigh, updateRole,
    updateRecord]
  rcases find?_related hindex (List.forall₂_reverse_iff.mpr hrelated) with
    ⟨hnone, hnone'⟩ | ⟨record, drone, hrecord, hdrone, hcarries⟩
  · rw [hnone, hnone']
    rfl
  · rw [hrecord, hdrone, Fleet.updatedRole, Fleet.specRole, Option.getD_some, Dict.getD,
      hcarries.role]
    rfl

end

/-! ## Layouts -/

namespace RelayChain

/-- The number of rows that the relays are dealt out to, unless stored branches are used. -/
def dealtRows (mode : String) (branchCount : ℕ) (relays : List ℤ) : ℕ :=
  if mode = "chain" then 1 else min (max 1 branchCount) relays.length

/-- Whether stored branches are used. -/
def usesStored (mode : String) (droneCount : ℤ) (stored : List (List ℤ)) : Bool :=
  mode = "manual" ∧ sanitizeRows droneCount [] stored ≠ []

/-- The layout of relays uses the stored branches or deals the relays out. -/
theorem relayLayout_eq {relays : List ℤ} (h : relays ≠ []) (mode : String) (branchCount : ℕ)
    (droneCount : ℤ) (stored : List (List ℤ)) :
    relayLayout mode branchCount droneCount stored relays =
      if usesStored mode droneCount stored then dealtManual stored relays
      else dealt (dealtRows mode branchCount relays) relays := by
  rw [relayLayout, if_neg h, usesStored]
  simp only [decide_eq_true_eq]
  split
  · rfl
  · rw [dealtRows]
    split
    · simp [dealt]
    · rfl

/-- Relays that are dealt out in the same way are dealt out to the same number of rows. -/
theorem dealt_inj {rows rows' : ℕ} {relays : List ℤ} :
    dealt rows relays = dealt rows' relays ↔ rows = rows' := by
  refine ⟨fun h => ?_, fun h => by rw [h]⟩
  simpa [dealt] using congrArg List.length h

/-- Two modes with their numbers of branches lay the relays out in the same way: both use the stored
branches, or both deal to the same number of rows, or the one uses stored branches that are just the
rows to which the other deals. -/
def LayoutsAgree (droneCount : ℤ) (stored : List (List ℤ)) (relays : List ℤ) (mode : String)
    (branchCount : ℕ) (mode' : String) (branchCount' : ℕ) : Prop :=
  relays = [] ∨
    match usesStored mode droneCount stored, usesStored mode' droneCount stored with
    | true, true => True
    | false, false => dealtRows mode branchCount relays = dealtRows mode' branchCount' relays
    | true, false => dealtManual stored relays = dealt (dealtRows mode' branchCount' relays) relays
    | false, true => dealt (dealtRows mode branchCount relays) relays = dealtManual stored relays

theorem relayLayout_eq_iff (droneCount : ℤ) (stored : List (List ℤ)) (relays : List ℤ)
    (mode : String) (branchCount : ℕ) (mode' : String) (branchCount' : ℕ) :
    relayLayout mode branchCount droneCount stored relays =
        relayLayout mode' branchCount' droneCount stored relays ↔
      LayoutsAgree droneCount stored relays mode branchCount mode' branchCount' := by
  rw [LayoutsAgree]
  by_cases hnil : relays = []
  · simp [relayLayout, hnil]
  · rw [relayLayout_eq hnil, relayLayout_eq hnil, or_iff_right hnil]
    cases usesStored mode droneCount stored <;> cases usesStored mode' droneCount stored <;>
      simp [dealt_inj]

end RelayChain

/-! ## What an update makes of a configuration -/

namespace Controller

section

variable [PyText F] [PyFloat F]

/-- The number of drones after an update; what is no integer leaves it as it is. -/
def updatedDroneCount (c : Controller F) (legacy : LegacyConfig F) : ℤ :=
  max 1 (RelayChain.asInt legacy.droneCount c.fleet.droneCount)

/-- The number of relays after an update. -/
def updatedRelayCount (c : Controller F) (legacy : LegacyConfig F) : ℤ :=
  max 1 (min (c.updatedDroneCount legacy) (RelayChain.asInt legacy.relayCount c.fleet.relayCount))

/-- The number of branches after an update: at most the number of relays. -/
def updatedBranchCount (c : Controller F) (legacy : LegacyConfig F) : ℕ :=
  min (max 1 legacy.branchCount) (c.updatedRelayCount legacy).toNat

/-- The mode after an update; an unknown one leaves it as it is. -/
def updatedMode (c : Controller F) (legacy : LegacyConfig F) : String :=
  match legacy.transmissionMode with
  | .null => c.fleet.transmissionMode
  | requested =>
      let mode := PyText.lower F requested.toText
      if mode ∈ RelayChain.transmissionModes then mode else c.fleet.transmissionMode

end

section

variable [PyText F] [PyTrig F]

theorem requested_eq {c : Controller F} {payload : Dict String (Json F)} {legacy : LegacyConfig F}
    (h : Carries payload legacy) : c.requested payload = c.updatedDroneCount legacy := by
  simp [requested, requestedCounts, updatedDroneCount, h.droneCount]

theorem relayLimit_eq {c : Controller F} {payload : Dict String (Json F)} {legacy : LegacyConfig F}
    (h : Carries payload legacy) : c.relayLimit payload = c.updatedRelayCount legacy := by
  have hcount : 1 ≤ c.updatedDroneCount legacy := le_max_left _ _
  rw [relayLimit, requested_eq h, updatedRelayCount]
  simp only [requestedCounts, h.relayCount, Option.map_some, Option.getD_some]
  omega

/-- A new layout changes neither roles nor topology. -/
theorem chain_recompute {c c' : Controller F} {reset : Bool} {plan : Option (Plan F)}
    (h : c.recompute reset plan = some c') : c'.fleet.chain = c.fleet.chain := by
  obtain ⟨fleet, pendingRevisionId, haimed, rfl⟩ := recompute_spec h
  cases reset <;> exact haimed.chain_eq

/-- The chain of a started controller. -/
theorem chain_start {legacy : LegacyConfig F} {input : StartInput F} {c : Controller F}
    (h : Controller.start legacy input = some c) : c.fleet.chain = RelayChain.start legacy := by
  simp only [Controller.start, bind, pure, Option.bind_eq_some_iff, Option.some.injEq] at h
  obtain ⟨c', hc', rfl⟩ := h
  exact (chain_recompute hc').trans (Fleet.chain_ofChain _ _)

/-- A chain is what an update makes of a configuration: its numbers and its topology, and the drones
of the mission, which have failed when the configuration says so and are relays unless they are on
standby. -/
structure UpdatedChain (c : Controller F) (legacy : LegacyConfig F) (chain : RelayChain) : Prop where
  droneCount : chain.droneCount = c.updatedDroneCount legacy
  branchCount : chain.branchCount = max 1 (c.updatedBranchCount legacy : ℤ)
  mode : chain.transmissionMode = c.updatedMode legacy
  manualBranches : chain.manualBranches = RelayChain.sanitizeRows (c.updatedDroneCount legacy) []
    (RelayChain.rawBranches legacy.manualBranches)
  sorted : chain.sortedIndices = RelayChain.missionIndices (c.updatedDroneCount legacy)
  failed : ∀ idx, idx ∈ chain.failedIndices ↔
    idx ∈ legacy.failedIndices ∧ 1 ≤ idx ∧ idx ≤ c.updatedDroneCount legacy
  isRelay : ∀ idx, 1 ≤ idx → idx ≤ c.updatedDroneCount legacy → idx ∉ legacy.failedIndices →
    chain.isRelay idx =
      decide (updateRole legacy.drones (c.updatedRelayCount legacy) idx ≠ "standby")

/-- What an update of a controller that holds the drones of its mission leads to. -/
theorem updatedChain_updateConfig {c : Controller F} {payload : Json F} {d : Dict String (Json F)}
    {legacy : LegacyConfig F} {input : UpdateInput F} (henrolled : c.fleet.Enrolled)
    (hpayload : payload.dict? = some d) (hcarries : Carries d legacy)
    (hraised : (c.updateConfig payload input).raised = false) :
    c.UpdatedChain legacy (c.updateConfig payload input).controller.fleet.chain := by
  obtain ⟨d', hd', hsynced, hrecompute⟩ := updateConfig_succeeds hraised
  obtain rfl : d = d' := Option.some.inj (hpayload.symm.trans hd')
  obtain ⟨hcount, -, -, hbranches, hmode, hmanual, -⟩ := configured_topology hsynced
  obtain ⟨-, -, hinside, -⟩ := configured_spec hsynced
  have hrequested := requested_eq (c := c) hcarries
  have hchain := chain_recompute hrecompute
  have hlisted : ∀ idx, c.declaredFailed d idx = decide (idx ∈ legacy.failedIndices) := by
    intro idx
    simp [declaredFailed, hcarries.failedIndices, Fleet.listedIndices, List.filterMap_map,
      Function.comp_def, Json.toInt?]
  constructor
  · rw [hchain]
    exact hcount.trans hrequested
  · -- the branch count is capped by the relay limit, in both paths from below by one
    have hlimit : 1 ≤ c.updatedRelayCount legacy := le_max_left _ _
    rw [hchain]
    refine hbranches.trans ?_
    simp only [Fleet.takeTopology, hcarries.branchCount, resize, relayLimit_eq hcarries,
      updatedBranchCount, RelayChain.asInt, Json.toInt?, Option.getD_some]
    rw [max_eq_right hlimit]
    obtain ⟨limit, hlimit⟩ := Int.eq_ofNat_of_zero_le (Int.le_trans Int.one_nonneg hlimit)
    rw [hlimit, Int.toNat_natCast]
    simp only [Nat.cast_min, Nat.cast_max, Nat.cast_one]
  · rw [hchain]
    refine hmode.trans ?_
    rw [Fleet.updatedMode, Dict.getD, hcarries.transmissionMode, Option.getD_some]
    cases hmode : legacy.transmissionMode <;> simp only [updatedMode, hmode]
  · rw [hchain]
    refine hmanual.trans ?_
    rw [Fleet.updatedManualBranches, hcarries.manualBranches, Option.some_or, ← hrequested]
    rfl
  · -- the drones are exactly those of the mission, so the sorted indices are too
    refine RelayChain.sortedIndices_of_mem fun idx => ?_
    rw [Dict.mem_keys_iff, ← Option.isSome_iff_exists, Fleet.known_chain, ← hrequested, ← hcount,
      enrolled_updateConfig henrolled hraised idx, ← (recompute_keeps hrecompute).1.droneCount]
  · intro idx
    rw [hchain]
    change idx ∈ (c.configured d).fleet.failedIndices ↔ _
    rw [← hrequested]
    by_cases hrange : 1 ≤ idx ∧ idx ≤ c.requested d
    · rw [and_iff_left hrange, (hinside idx hrange.1 hrange.2).1, hlisted, decide_eq_true_iff]
    · rw [failed_outside hsynced hrange, hcarries.failedIndices]
      simp [hrange]
  · intro idx hlow hhigh hworks
    rw [← hrequested] at hhigh
    rw [hchain, RelayChain.isRelay, (hinside idx hlow hhigh).2, hlisted,
      updatedRole_eq hcarries hlow hhigh, relayLimit_eq hcarries, hcarries.failedIndices]
    simp [hworks]

/-! ## The comparison -/

/-- An update of a controller reads a configuration as a start does: it marks no drone of the
mission as failed, leads to the same number of drones, and makes the same ones relays and the same
branches. -/
structure StartsAlike (c : Controller F) (legacy : LegacyConfig F) : Prop where
  working : ∀ idx ∈ legacy.failedIndices, idx ∉ RelayChain.missionIndices (c.updatedDroneCount legacy)
  droneCount : c.updatedDroneCount legacy = (RelayChain.settings legacy).droneCount
  roles : ∀ idx ∈ RelayChain.missionIndices (RelayChain.settings legacy).droneCount,
    updateRole legacy.drones (c.updatedRelayCount legacy) idx ≠ "standby" ↔
      idx ∈ RelayChain.configuredRelays legacy
  layout : RelayChain.LayoutsAgree (RelayChain.settings legacy).droneCount
    (RelayChain.rawBranches legacy.manualBranches) (RelayChain.configuredRelays legacy)
    (c.updatedMode legacy) (c.updatedBranchCount legacy)
    (RelayChain.settings legacy).transmissionMode legacy.branchCount

/-- Two controllers know the same failures and have the same relays in service, the same drones in
reserve, and the same branches. -/
structure SameTopology (c c' : Controller F) : Prop where
  failed : ∀ idx, idx ∈ c.fleet.failedIndices ↔ idx ∈ c'.fleet.failedIndices
  activeChain : c.fleet.activeChain = c'.fleet.activeChain
  standby : c.fleet.standbyIndices = c'.fleet.standbyIndices
  branches : c.fleet.activeBranches = c'.fleet.activeBranches

/-- A start knows of no failure. -/
theorem failedIndices_start (legacy : LegacyConfig F) :
    (RelayChain.start legacy).failedIndices = [] := by
  rw [RelayChain.start_eq, (RelayChain.applyRoleCounts_keeps _ _ _).2.2]
  rfl

/-- A drone of the mission is a relay of a started chain exactly when it is a configured relay. -/
theorem isRelay_start (legacy : LegacyConfig F) {idx : ℤ}
    (hidx : idx ∈ RelayChain.missionIndices (RelayChain.settings legacy).droneCount) :
    (RelayChain.start legacy).isRelay idx = decide (idx ∈ RelayChain.configuredRelays legacy) := by
  have hcount := (RelayChain.start_settings legacy).1
  rw [RelayChain.configuredRelays, ← RelayChain.activeChain_start,
    RelayChain.activeChain_eq (RelayChain.keys_start legacy) (failedIndices_start legacy), hcount]
  simp [hidx]

/-- The failures agree when the update marks no drone of the mission as failed. -/
theorem UpdatedChain.sameFailed_iff {c : Controller F} {legacy : LegacyConfig F} {chain : RelayChain}
    (h : c.UpdatedChain legacy chain) :
    (∀ idx, idx ∈ chain.failedIndices ↔ idx ∈ (RelayChain.start legacy).failedIndices) ↔
      ∀ idx ∈ legacy.failedIndices,
        idx ∉ RelayChain.missionIndices (c.updatedDroneCount legacy) := by
  refine forall_congr' fun idx => ?_
  rw [h.failed, failedIndices_start, RelayChain.mem_missionIndices]
  simp

/-- Without failures, the drones in service and in reserve agree when the numbers of drones do and
the same ones are relays. -/
theorem UpdatedChain.sameService_iff {c : Controller F} {legacy : LegacyConfig F} {chain : RelayChain}
    (h : c.UpdatedChain legacy chain) (hworking : ∀ idx ∈ legacy.failedIndices,
      idx ∉ RelayChain.missionIndices (c.updatedDroneCount legacy)) :
    (chain.activeChain = (RelayChain.start legacy).activeChain ∧
        chain.standbyIndices = (RelayChain.start legacy).standbyIndices) ↔
      c.updatedDroneCount legacy = (RelayChain.settings legacy).droneCount ∧
        ∀ idx ∈ RelayChain.missionIndices (RelayChain.settings legacy).droneCount,
          updateRole legacy.drones (c.updatedRelayCount legacy) idx ≠ "standby" ↔
            idx ∈ RelayChain.configuredRelays legacy := by
  obtain ⟨hcount, -⟩ := RelayChain.start_settings legacy
  -- no drone of the mission has failed, in the updated chain or after a cold start
  have hnone : chain.failedIndices = [] :=
    List.eq_nil_iff_forall_not_mem.mpr fun idx hidx =>
      hworking idx ((h.failed idx).mp hidx).1
        (RelayChain.mem_missionIndices.mpr ((h.failed idx).mp hidx).2)
  rw [RelayChain.sameService_iff (h.droneCount ▸ h.sorted)
    (RelayChain.sortedIndices_eq (RelayChain.keys_start legacy)) hnone (failedIndices_start legacy)
    (h.droneCount ▸ le_max_left _ _) (hcount ▸ (RelayChain.settings_counts legacy).1),
    hcount, h.droneCount, eq_comm]
  refine and_congr_right fun hsame => ?_
  rw [← hsame]
  refine forall_congr' fun idx => ?_
  rw [RelayChain.mem_missionIndices, and_imp]
  refine forall₂_congr fun hlow hhigh => ?_
  have hidx := RelayChain.mem_missionIndices.mpr ⟨hlow, hhigh⟩
  have hworks : idx ∉ legacy.failedIndices := fun hfailed => hworking idx hfailed hidx
  rw [h.isRelay idx hlow hhigh hworks, isRelay_start legacy (hsame ▸ hidx), decide_eq_decide]

/-- With the same relays in service, the branches agree when the layouts do. -/
theorem UpdatedChain.sameBranches_iff {c : Controller F} {legacy : LegacyConfig F}
    {chain : RelayChain} (h : c.UpdatedChain legacy chain)
    (hactive : chain.activeChain = (RelayChain.start legacy).activeChain)
    (hcount : c.updatedDroneCount legacy = (RelayChain.settings legacy).droneCount) :
    chain.activeBranches = (RelayChain.start legacy).activeBranches ↔
      RelayChain.LayoutsAgree (RelayChain.settings legacy).droneCount
        (RelayChain.rawBranches legacy.manualBranches) (RelayChain.configuredRelays legacy)
        (c.updatedMode legacy) (c.updatedBranchCount legacy)
        (RelayChain.settings legacy).transmissionMode legacy.branchCount := by
  have hrelays : chain.activeChain = RelayChain.configuredRelays legacy :=
    hactive.trans (RelayChain.activeChain_start legacy)
  rw [RelayChain.activeBranches_eq (h.manualBranches.trans (by rw [h.droneCount])) h.branchCount,
    RelayChain.activeBranches_start, h.mode, h.droneCount, hcount, hrelays,
    RelayChain.relayLayout_eq_iff]

/-- A controller that starts from a configuration and one that is updated with it agree exactly when
the update reads the configuration as the start does. -/
theorem cold_eq_hot_iff {before : LegacyConfig F} {start : StartInput F} {ops : List (Op F)}
    {c : Controller F} (hrun : run (Controller.start before start) ops = some c)
    {legacy : LegacyConfig F} {input : StartInput F} {cold : Controller F}
    (hcold : Controller.start legacy input = some cold) {payload : Json F}
    {d : Dict String (Json F)} (hpayload : payload.dict? = some d) (hcarries : Carries d legacy)
    {update : UpdateInput F} {hot : Controller F}
    (hhot : c.perform (.updateConfig payload update) = some hot) :
    SameTopology hot cold ↔ c.StartsAlike legacy := by
  rw [perform] at hhot
  split at hhot
  · cases hhot
  rename_i hraised
  obtain rfl := Option.some.inj hhot
  have hupdated := updatedChain_updateConfig (enrolled_run hrun) hpayload hcarries
    (Bool.eq_false_of_not_eq_true hraised)
  have hstarted := chain_start hcold
  generalize (c.updateConfig payload update).controller = hot at hupdated ⊢
  constructor
  · -- what agrees in the two controllers gives the four conditions one after the other
    rintro ⟨hfailed, hactive, hstandby, hbranches⟩
    rw [Fleet.activeChain, Fleet.activeChain, hstarted] at hactive
    rw [Fleet.standbyIndices, Fleet.standbyIndices, hstarted] at hstandby
    rw [Fleet.activeBranches, Fleet.activeBranches, hstarted] at hbranches
    have hworking := hupdated.sameFailed_iff.mp (by rw [← hstarted]; exact hfailed)
    obtain ⟨hcount, hroles⟩ := (hupdated.sameService_iff hworking).mp ⟨hactive, hstandby⟩
    exact ⟨hworking, hcount, hroles, (hupdated.sameBranches_iff hactive hcount).mp hbranches⟩
  · rintro ⟨hworking, hcount, hroles, hlayout⟩
    have hfailed := hupdated.sameFailed_iff.mpr hworking
    obtain ⟨hactive, hstandby⟩ := (hupdated.sameService_iff hworking).mpr ⟨hcount, hroles⟩
    have hbranches := (hupdated.sameBranches_iff hactive hcount).mpr hlayout
    rw [← hstarted] at hfailed hactive hstandby hbranches
    exact ⟨hfailed, hactive, hstandby, hbranches⟩

end

/-! ## Two relays -/

/-- A configuration of two relays, the second of which may have failed. -/
def twoRelays (failed : Bool) : ExperimentConfig ℚ where
  swarm := .ofList [("drone_count", .int 2), ("relay_count", .int 2), ("standby_count", .int 0),
    ("drones", .arr ([(1, false), (2, failed)].map fun (index, failed) =>
      .obj [("id", .str (droneNode index)), ("index", .int index), ("role", .str "relay"),
        ("active", .bool true), ("failed", .bool failed)]))]
  topology := .ofList [("mode", .str "chain"), ("source", .str "station"),
    ("branches", .arr [.arr [.int 1, .int 2]]), ("manual_edges", .arr [])]

/-- What is projected of the two relays. -/
def twoRelaysLegacy (failed : Bool) : LegacyConfig ℚ :=
  (emitLegacyConfig (twoRelays failed)).get (by cases failed <;> decide +kernel)

/-- The controller that starts from the two relays. -/
def twoRelaysStarted (failed : Bool) : Controller ℚ :=
  (Controller.start (twoRelaysLegacy failed) sampleStart).get (by cases failed <;> decide +kernel)

/-- A controller of three relays after an update to the two relays. -/
def twoRelaysUpdated (failed : Bool) : Controller ℚ :=
  (sampleChain.perform (.updateConfig (twoRelaysLegacy failed).toJson sampleUpdate)).get
    (by cases failed <;> decide +kernel)

/-- Without a failed drone the start and the update agree. -/
theorem cold_eq_hot_twoRelays : SameTopology (twoRelaysUpdated false) (twoRelaysStarted false) := by
  obtain ⟨d, hd, hcarries⟩ := carries_toJson (twoRelaysLegacy false)
  refine ((@cold_eq_hot_iff _ _ _ _ _ [] _ start_sampleChain _ _ _ (Option.some_get _).symm _ _ hd
    hcarries _ _ (Option.some_get _).symm)).mpr ⟨?_, ?_, ?_, ?_⟩
  · decide +kernel
  · decide +kernel
  · decide +kernel
  · exact (RelayChain.relayLayout_eq_iff _ _ _ _ _ _ _).mp (by decide +kernel)

/-- A start takes a failed drone for a working one; an update does not. -/
theorem cold_forgets_failure :
    (twoRelays true).Valid ∧ emitLegacyConfig (twoRelays true) = some (twoRelaysLegacy true) ∧
      Controller.start (twoRelaysLegacy true) sampleStart = some (twoRelaysStarted true) ∧
      sampleChain.perform (.updateConfig (twoRelaysLegacy true).toJson sampleUpdate) =
        some (twoRelaysUpdated true) ∧
      (twoRelaysStarted true).fleet.failedIndices = [] ∧
      (twoRelaysUpdated true).fleet.failedIndices = [2] ∧
      (twoRelaysStarted true).fleet.activeChain = [1, 2] ∧
      (twoRelaysUpdated true).fleet.activeChain = [1] := by
  refine ⟨?_, (Option.some_get _).symm, (Option.some_get _).symm, (Option.some_get _).symm, ?_⟩ <;>
    decide +kernel

end Controller

end Netlab
