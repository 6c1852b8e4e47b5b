import Netlab.Config.Legacy
import Netlab.Prelude.Dealing

/-!
# The fleet of the relay chain

The inventory that the ROS relay chain keeps of its drones, as `snaas_relay_chain.py` builds it when
it starts from a legacy configuration: which drones there are, in which role, and which of them form
the active chain. What starting yields is said without the loops of the source by
`relayIndices` (`activeChain_start`).
-/

namespace Netlab

variable {F : Type}

/-- A drone as the relay chain keeps it. Positions, batteries and antennas are left out. -/
structure DroneRuntime where
  /-- `relay` or `standby`. -/
  role : String
  integrated : Bool
  deriving DecidableEq, Repr

/-- The inventory and the topology settings of the relay chain. -/
structure RelayChain where
  droneCount : ℤ
  relayCount : ℤ
  standbyCount : ℤ
  branchCount : ℤ
  transmissionMode : String
  manualBranches : List (List ℤ)
  drones : Dict ℤ DroneRuntime
  failedIndices : List ℤ

namespace RelayChain

/-- `sorted(self.drones)`. -/
def sortedIndices (chain : RelayChain) : List ℤ := chain.drones.keys.insertionSort (· ≤ ·)

/-- Whether an index belongs to the mission inventory and has not failed. -/
def available (chain : RelayChain) (idx : ℤ) : Bool :=
  1 ≤ idx ∧ idx ≤ chain.droneCount ∧ idx ∉ chain.failedIndices

/-- Whether the drone at an index is integrated as a relay. -/
def isRelay (chain : RelayChain) (idx : ℤ) : Bool :=
  match chain.drones.get? idx with
  | some drone => drone.integrated && drone.role ≠ "standby"
  | none => false

/-- The relays in service, in the order of their indices. -/
def activeChain (chain : RelayChain) : List ℤ :=
  chain.sortedIndices.filter fun idx => chain.available idx && chain.isRelay idx

/-- No relay is in service twice. -/
theorem nodup_activeChain (chain : RelayChain) : chain.activeChain.Nodup :=
  ((List.perm_insertionSort _ _).nodup_iff.mpr chain.drones.nodup).filter _

/-- The drones kept in reserve, in the order of their indices. -/
def standbyIndices (chain : RelayChain) : List ℤ :=
  chain.sortedIndices.filter fun idx => chain.available idx && !chain.isRelay idx

/-! ## Roles -/

/-- The drones whose role is `standby`. -/
def explicitStandby (chain : RelayChain) : List ℤ :=
  chain.sortedIndices.filter fun idx =>
    match chain.drones.get? idx with
    | some drone => drone.role = "standby"
    | none => false

/-- The role of a drone by its index: the first `relayCount` drones are relays, unless they have
failed, and the others are on standby. -/
def roleByIndex (relayCount : ℤ) (failedIndices : List ℤ) (idx : ℤ) (drone : DroneRuntime) :
    DroneRuntime :=
  if idx ≤ relayCount then
    if idx ∈ failedIndices then drone else { role := "relay", integrated := true }
  else { role := "standby", integrated := false }

/-- Distribute the roles (`_apply_role_counts`). Explicit standby roles can be kept. -/
def applyRoleCounts (chain : RelayChain) (relayCount : ℤ) (preserveExplicitRoles : Bool) :
    RelayChain :=
  let total : ℤ := chain.drones.keys.length
  if total ≤ 0 then { chain with relayCount := 0, standbyCount := 0 }
  else
    let relayCount := max 1 (min total relayCount)
    -- explicit standby roles are respected, and only the counts follow
    if preserveExplicitRoles && !chain.explicitStandby.isEmpty then
      let standbyCount : ℤ := chain.explicitStandby.length
      { chain with relayCount := max 1 (total - standbyCount), standbyCount }
    else
      { chain with
        relayCount
        standbyCount := max 0 (total - relayCount)
        drones := chain.drones.mapValues (roleByIndex relayCount chain.failedIndices) }

/-! ## Start -/

/-- The indices `1..n`. -/
def missionIndices (n : ℤ) : List ℤ := (List.range n.toNat).map fun i : ℕ => (i : ℤ) + 1

/-- Read branches (`_sanitize_manual_branches`): in the order in which they are listed, an index is
kept the first time it occurs, unless it is outside `1..droneCount` or excluded. Rows that remain
empty are dropped. -/
def sanitizeRows (droneCount : ℤ) (excluded : List ℤ) (rows : List (List ℤ)) : List (List ℤ) :=
  List.firstRows (fun idx => 1 ≤ idx ∧ idx ≤ droneCount ∧ idx ∉ excluded) [] rows

/-- The modes that the relay chain knows. -/
def transmissionModes : List String := ["chain", "parallel", "forest", "manual"]

section Start

variable [PyText F] [PyFloat F]

/-- `int(value)`, or a default when it raises. -/
def asInt (value : Json F) (default : ℤ) : ℤ := value.toInt?.getD default

/-- The integers of the branches in a configuration: what is no list or no integer is skipped. -/
def rawBranches : Json F → List (List ℤ)
  | .arr branches => branches.filterMap fun branch =>
      match branch with
      | .arr values => some (values.filterMap Json.toInt?)
      | _ => none
  | _ => []

/-- The drone records by index. A record without an integer index gets the next free one; of two
records with one index the later counts. -/
def recordsByIndex (drones : List (LegacyDrone F)) : Dict ℤ (LegacyDrone F) :=
  drones.foldl (fun byIndex item =>
    byIndex.set (asInt item.index (byIndex.keys.length + 1)) item) .empty

/-- The role in a drone record; a drone without a record is a relay. -/
def recordedRole (item : Option (LegacyDrone F)) : String :=
  match item with
  | some item => item.role.toText
  | none => "relay"

/-- A drone as it is created from its record, if it has one (`_ensure_drone`). -/
def newDrone (item : Option (LegacyDrone F)) : DroneRuntime where
  role := recordedRole item
  integrated := recordedRole item ≠ "standby"

/-- The mode of a configuration; an unknown one is replaced by what the number of branches
suggests. -/
def startMode (legacy : LegacyConfig F) (branchCount : ℤ) : String :=
  let mode := PyText.lower F legacy.transmissionMode.toText
  if mode ∈ transmissionModes then mode else if 1 < branchCount then "parallel" else "chain"

/-- The relay chain before its drones are loaded. -/
def settings (legacy : LegacyConfig F) : RelayChain :=
  let droneCount := max 1 (asInt legacy.droneCount 6)
  let relayCount := max 1 (min droneCount (asInt legacy.relayCount droneCount))
  let branchCount := max 1 (legacy.branchCount : ℤ)
  { droneCount
    relayCount
    standbyCount := max 0 (droneCount - relayCount)
    branchCount
    transmissionMode := startMode legacy branchCount
    manualBranches := sanitizeRows droneCount [] (rawBranches legacy.manualBranches)
    drones := .empty
    failedIndices := [] }

/-- The relay chain that starts from a legacy configuration (`__init__` with
`_load_drones_from_config`). The failed indices of the configuration are not read. -/
def start (legacy : LegacyConfig F) : RelayChain :=
  let chain := settings legacy
  let byIndex := recordsByIndex legacy.drones
  let loaded := { chain with
    drones := .ofList ((missionIndices chain.droneCount).map fun idx =>
      (idx, newDrone (byIndex.get? idx))) }
  loaded.applyRoleCounts chain.relayCount !byIndex.keys.isEmpty

/-! ## The relays in service after the start -/

/-- The role that a drone has according to its record. -/
def roleAt (drones : List (LegacyDrone F)) (idx : ℤ) : String :=
  recordedRole ((recordsByIndex drones).get? idx)

/-- The relays of a configuration: if some drone is recorded as standby, the drones that are not;
otherwise the first `relayCount` drones. -/
def relayIndices (drones : List (LegacyDrone F)) (droneCount relayCount : ℤ) : List ℤ :=
  (missionIndices droneCount).filter fun idx =>
    if drones ≠ [] ∧ ∃ i ∈ missionIndices droneCount, roleAt drones i = "standby" then
      roleAt drones idx ≠ "standby"
    else idx ≤ relayCount

end Start

theorem mem_missionIndices {n idx : ℤ} : idx ∈ missionIndices n ↔ 1 ≤ idx ∧ idx ≤ n := by
  simp only [missionIndices, List.mem_map, List.mem_range]
  constructor
  · rintro ⟨i, hi, rfl⟩
    omega
  · rintro ⟨h1, hn⟩
    exact ⟨(idx - 1).toNat, by omega, by omega⟩

theorem pairwise_missionIndices (n : ℤ) : (missionIndices n).Pairwise (· < ·) := by
  rw [missionIndices, List.pairwise_map]
  exact List.pairwise_lt_range.imp fun h => by omega

theorem length_missionIndices (n : ℤ) : (missionIndices n).length = n.toNat := by
  simp [missionIndices]

section Started

variable [PyText F] [PyFloat F]

/-- There are records by index exactly when there are records. -/
theorem keys_recordsByIndex_isEmpty (drones : List (LegacyDrone F)) :
    (recordsByIndex drones).keys.isEmpty = drones.isEmpty := by
  rcases List.eq_nil_or_concat' drones with rfl | ⟨init, item, rfl⟩
  · rfl
  · have hkey : ∃ idx, idx ∈ (recordsByIndex (init ++ [item])).keys := by
      rw [recordsByIndex, List.foldl_append]
      exact ⟨_, Dict.mem_keys_iff.mpr ⟨item, Dict.get?_set_self _ _ _⟩⟩
    obtain ⟨idx, hidx⟩ := hkey
    simp [List.isEmpty_eq_false_iff.mpr (List.ne_nil_of_mem hidx)]

/-- The drones that are loaded, before the roles are distributed. -/
def loadedDrones (legacy : LegacyConfig F) : Dict ℤ DroneRuntime :=
  .ofList ((missionIndices (settings legacy).droneCount).map fun idx =>
    (idx, newDrone ((recordsByIndex legacy.drones).get? idx)))

theorem entries_loadedDrones (legacy : LegacyConfig F) :
    (loadedDrones legacy).entries = (missionIndices (settings legacy).droneCount).map fun idx =>
      (idx, newDrone ((recordsByIndex legacy.drones).get? idx)) := by
  refine Dict.entries_ofList ?_
  rw [List.map_map]
  exact ((pairwise_missionIndices _).imp fun h => h.ne).map _ fun _ _ h => h

theorem keys_loadedDrones (legacy : LegacyConfig F) :
    (loadedDrones legacy).keys = missionIndices (settings legacy).droneCount := by
  rw [Dict.keys, entries_loadedDrones, List.map_map]
  exact List.map_id _

theorem get?_loadedDrones {legacy : LegacyConfig F} {idx : ℤ}
    (h : idx ∈ missionIndices (settings legacy).droneCount) :
    (loadedDrones legacy).get? idx = some (newDrone ((recordsByIndex legacy.drones).get? idx)) := by
  rw [Dict.get?_eq_some_iff, entries_loadedDrones]
  exact List.mem_map.mpr ⟨idx, h, rfl⟩

/-- What starting does: the loaded drones get their roles. -/
theorem start_eq (legacy : LegacyConfig F) :
    start legacy = applyRoleCounts { settings legacy with drones := loadedDrones legacy }
      (settings legacy).relayCount !(recordsByIndex legacy.drones).keys.isEmpty :=
  rfl

/-- Distributing the roles changes neither the drones nor what is known about failures. -/
theorem applyRoleCounts_keeps (chain : RelayChain) (relayCount : ℤ) (preserveExplicitRoles : Bool) :
    (chain.applyRoleCounts relayCount preserveExplicitRoles).drones.keys = chain.drones.keys ∧
      (chain.applyRoleCounts relayCount preserveExplicitRoles).droneCount = chain.droneCount ∧
      (chain.applyRoleCounts relayCount preserveExplicitRoles).failedIndices =
        chain.failedIndices := by
  rw [applyRoleCounts]
  split
  · exact ⟨rfl, rfl, rfl⟩
  · dsimp only
    split
    · exact ⟨rfl, rfl, rfl⟩
    · exact ⟨Dict.keys_mapValues _ _, rfl, rfl⟩

/-- The drones of a started chain are those of the mission. -/
theorem keys_start (legacy : LegacyConfig F) :
    (start legacy).drones.keys = missionIndices (start legacy).droneCount := by
  obtain ⟨hkeys, hcount, -⟩ := applyRoleCounts_keeps
    { settings legacy with drones := loadedDrones legacy } (settings legacy).relayCount
    (!(recordsByIndex legacy.drones).keys.isEmpty)
  rw [start_eq, hkeys, hcount]
  exact keys_loadedDrones legacy

/-- The sorted indices of a chain whose drones are those of the mission. -/
theorem sortedIndices_eq {chain : RelayChain} {n : ℤ} (h : chain.drones.keys = missionIndices n) :
    chain.sortedIndices = missionIndices n := by
  rw [sortedIndices, h]
  exact ((pairwise_missionIndices n).imp fun hlt => hlt.le).insertionSort_eq

/-- The sorted indices depend only on which drones there are. -/
theorem sortedIndices_of_mem {chain : RelayChain} {n : ℤ}
    (h : ∀ idx, idx ∈ chain.drones.keys ↔ 1 ≤ idx ∧ idx ≤ n) :
    chain.sortedIndices = missionIndices n := by
  have hnodup : (missionIndices n).Nodup := (pairwise_missionIndices n).imp fun hlt => hlt.ne
  have hperm : chain.drones.keys.Perm (missionIndices n) :=
    (List.perm_ext_iff_of_nodup chain.drones.nodup hnodup).mpr fun idx =>
      (h idx).trans mem_missionIndices.symm
  exact List.Perm.eq_of_pairwise (fun _ _ _ _ hab hba => le_antisymm hab hba)
    (List.pairwise_insertionSort _ _) ((pairwise_missionIndices n).imp fun hlt => hlt.le)
    ((List.perm_insertionSort _ _).trans hperm)

/-- Two chains of missions without failed drones have the same relays in service and the same drones
in reserve when they have the same number of drones and integrate the same ones. -/
theorem sameService_iff {chain chain' : RelayChain}
    (hsorted : chain.sortedIndices = missionIndices chain.droneCount)
    (hsorted' : chain'.sortedIndices = missionIndices chain'.droneCount)
    (hfailed : chain.failedIndices = []) (hfailed' : chain'.failedIndices = [])
    (hcount : 1 ≤ chain.droneCount) (hcount' : 1 ≤ chain'.droneCount) :
    (chain.activeChain = chain'.activeChain ∧ chain.standbyIndices = chain'.standbyIndices) ↔
      chain'.droneCount = chain.droneCount ∧ ∀ idx, 1 ≤ idx → idx ≤ chain.droneCount →
        chain.isRelay idx = chain'.isRelay idx := by
  have hactive : ∀ {chain : RelayChain}, chain.sortedIndices = missionIndices chain.droneCount →
      chain.failedIndices = [] → ∀ idx, idx ∈ chain.activeChain ↔
        (1 ≤ idx ∧ idx ≤ chain.droneCount) ∧ chain.isRelay idx = true := by
    intro chain hsorted hfailed idx
    simp only [activeChain, hsorted, List.mem_filter, mem_missionIndices, available, hfailed]
    grind
  have hstandby : ∀ {chain : RelayChain}, chain.sortedIndices = missionIndices chain.droneCount →
      chain.failedIndices = [] → ∀ idx, idx ∈ chain.standbyIndices ↔
        (1 ≤ idx ∧ idx ≤ chain.droneCount) ∧ chain.isRelay idx = false := by
    intro chain hsorted hfailed idx
    simp only [standbyIndices, hsorted, List.mem_filter, mem_missionIndices, available, hfailed]
    grind
  constructor
  · rintro ⟨hsame, hsame'⟩
    -- every mission drone serves on one of the two lists, so equal lists mean equal missions
    have hmission : ∀ idx, (1 ≤ idx ∧ idx ≤ chain.droneCount) ↔
        (1 ≤ idx ∧ idx ≤ chain'.droneCount) := by
      intro idx
      have hone := hactive hsorted hfailed idx
      have hother := hstandby hsorted hfailed idx
      rw [hsame, hactive hsorted' hfailed' idx] at hone
      rw [hsame', hstandby hsorted' hfailed' idx] at hother
      -- a drone is a relay or a standby, never both
      generalize chain.isRelay idx = relay at hone hother
      generalize chain'.isRelay idx = relay' at hone hother
      cases relay <;> cases relay' <;> grind
    have hle := (hmission chain.droneCount).mp ⟨hcount, le_refl _⟩
    have hge := (hmission chain'.droneCount).mpr ⟨hcount', le_refl _⟩
    refine ⟨le_antisymm hge.2 hle.2, fun idx hlow hhigh => ?_⟩
    have h1 := hactive hsorted hfailed idx
    have h2 := hactive hsorted' hfailed' idx
    rw [hsame, h2] at h1
    rw [Bool.eq_iff_iff]
    have hin := (hmission idx).mp ⟨hlow, hhigh⟩
    rw [and_iff_right hin, and_iff_right ⟨hlow, hhigh⟩] at h1
    exact h1.symm
  · rintro ⟨hsame, hrelay⟩
    rw [activeChain, activeChain, standbyIndices, standbyIndices, hsorted, hsorted', hsame]
    constructor
    · refine List.filter_congr fun idx hidx => ?_
      obtain ⟨hlow, hhigh⟩ := mem_missionIndices.mp hidx
      rw [hrelay idx hlow hhigh, available, available, hsame, hfailed, hfailed']
    · refine List.filter_congr fun idx hidx => ?_
      obtain ⟨hlow, hhigh⟩ := mem_missionIndices.mp hidx
      rw [hrelay idx hlow hhigh, available, available, hsame, hfailed, hfailed']

/-- Of a chain whose drones are those of the mission and none of which has failed, the active chain
lists the relays. -/
theorem activeChain_eq {chain : RelayChain} (hkeys : chain.drones.keys =
    missionIndices chain.droneCount) (hfailed : chain.failedIndices = []) :
    chain.activeChain = (missionIndices chain.droneCount).filter fun idx => chain.isRelay idx := by
  rw [activeChain, sortedIndices_eq hkeys]
  refine List.filter_congr fun idx hidx => ?_
  obtain ⟨hlow, hhigh⟩ := mem_missionIndices.mp hidx
  simp [available, hlow, hhigh, hfailed]

/-- The explicit standby drones of a loaded chain are those that are recorded as standby. -/
theorem explicitStandby_loaded_eq (legacy : LegacyConfig F) :
    ({ settings legacy with drones := loadedDrones legacy } : RelayChain).explicitStandby =
      (missionIndices (settings legacy).droneCount).filter fun idx =>
        roleAt legacy.drones idx = "standby" := by
  rw [explicitStandby, sortedIndices_eq (keys_loadedDrones legacy)]
  refine List.filter_congr fun idx hidx => ?_
  simp only [get?_loadedDrones hidx, newDrone, roleAt]
  exact decide_eq_decide.mpr Iff.rfl

/-- A loaded chain has explicit standby drones exactly when some drone is recorded as standby. -/
theorem explicitStandby_loaded (legacy : LegacyConfig F) :
    ({ settings legacy with drones := loadedDrones legacy } : RelayChain).explicitStandby ≠ [] ↔
      ∃ i ∈ missionIndices (settings legacy).droneCount, roleAt legacy.drones i = "standby" := by
  rw [explicitStandby_loaded_eq, Ne, List.filter_eq_nil_iff]
  push Not
  simp only [decide_eq_true_eq]

theorem settings_counts (legacy : LegacyConfig F) :
    1 ≤ (settings legacy).droneCount ∧ 1 ≤ (settings legacy).relayCount ∧
      (settings legacy).relayCount ≤ (settings legacy).droneCount := by
  simp only [settings]
  omega

/-- A loaded drone is a relay unless it is recorded as standby. -/
theorem isRelay_loaded {legacy : LegacyConfig F} {chain : RelayChain} {idx : ℤ}
    (hdrones : chain.drones = loadedDrones legacy)
    (hidx : idx ∈ missionIndices (settings legacy).droneCount) :
    chain.isRelay idx = decide (roleAt legacy.drones idx ≠ "standby") := by
  rw [isRelay, hdrones, get?_loadedDrones hidx, roleAt]
  by_cases h : recordedRole ((recordsByIndex legacy.drones).get? idx) = "standby" <;>
    simp [newDrone, h]

/-- A drone that got its role by its index is a relay when it is among the first ones. -/
theorem isRelay_byIndex {legacy : LegacyConfig F} {chain : RelayChain} {relayCount idx : ℤ}
    (hdrones : chain.drones = (loadedDrones legacy).mapValues (roleByIndex relayCount []))
    (hidx : idx ∈ missionIndices (settings legacy).droneCount) :
    chain.isRelay idx = decide (idx ≤ relayCount) := by
  rw [isRelay, hdrones, Dict.get?_mapValues, get?_loadedDrones hidx]
  by_cases h : idx ≤ relayCount <;> simp [roleByIndex, h]

/-- The relays after the start. -/
theorem activeChain_start (legacy : LegacyConfig F) :
    (start legacy).activeChain = relayIndices legacy.drones (settings legacy).droneCount
      (settings legacy).relayCount := by
  obtain ⟨hdrone, hrelay, hle⟩ := settings_counts legacy
  have htotal : ((loadedDrones legacy).keys.length : ℤ) = (settings legacy).droneCount := by
    rw [keys_loadedDrones, length_missionIndices]
    omega
  have hcount : max 1 (min (settings legacy).droneCount (settings legacy).relayCount) =
      (settings legacy).relayCount := by omega
  have hpreserve : (!(recordsByIndex legacy.drones).keys.isEmpty) = true ↔ legacy.drones ≠ [] := by
    rw [keys_recordsByIndex_isEmpty]
    simp
  rw [start_eq, applyRoleCounts]
  simp only [htotal, if_neg (show ¬(settings legacy).droneCount ≤ 0 by omega), hcount]
  split
  all_goals
    rename_i hkeep
    rw [Bool.and_eq_true, hpreserve, Bool.not_eq_true', List.isEmpty_eq_false_iff,
      explicitStandby_loaded] at hkeep
  · -- explicit standby roles are kept, so the relays are the other drones
    rw [activeChain_eq (keys_loadedDrones legacy) rfl, relayIndices]
    refine List.filter_congr fun idx hidx => ?_
    rw [isRelay_loaded rfl hidx]
    simp only [if_pos hkeep]
  · -- otherwise the roles go by index
    rw [activeChain_eq ((Dict.keys_mapValues _ _).trans (keys_loadedDrones legacy)) rfl,
      relayIndices]
    refine List.filter_congr fun idx hidx => ?_
    rw [isRelay_byIndex rfl hidx]
    simp only [if_neg hkeep]

end Started

end RelayChain

end Netlab
