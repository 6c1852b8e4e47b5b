import Netlab.Relay.Fleet

/-!
# The branches of the relay chain

The relay chain does not execute the branches of its configuration: each time it derives branches
from the relays in service (`activeBranches`). In chain mode there is one branch with all relays; in
parallel and forest mode the relays are dealt out to as many branches as are configured; in manual
mode the configured branches are restricted to the relays in service, and the remaining relays are
dealt out to them. `relayLayout` says the same about a chain that has just started, from the
configuration (`activeBranches_start`).
-/

namespace Netlab

namespace RelayChain

/-- The branches of manual mode for the relays in service. -/
def manualLayout (chain : RelayChain) (active : List ℤ) : List (List ℤ) :=
  let excluded := chain.failedIndices ++ chain.standbyIndices
  let sanitized := sanitizeRows chain.droneCount excluded chain.manualBranches
  let manual := List.takeRows (fun idx => idx ∈ active) [] sanitized
  let leftovers := active.filter fun idx => idx ∉ manual.flatten
  if leftovers = [] then manual
  else if manual = [] then [leftovers]
  else manual.deal leftovers

/-- The branches that the relay chain runs packets on (`_active_branches`). -/
def activeBranches (chain : RelayChain) : List (List ℤ) :=
  let active := chain.activeChain
  if active = [] then []
  else if chain.transmissionMode = "manual" ∧ chain.manualBranches ≠ [] then
    chain.manualLayout active
  else if chain.transmissionMode = "chain" then [active]
  else
    let branchCount := max 1 (min chain.branchCount active.length)
    ((List.replicate branchCount.toNat []).deal active).filter fun branch => branch ≠ []

/-- The rows of the manual layout are made of relays in service. -/
private theorem of_mem_manualLayout {chain : RelayChain} {active branch : List ℤ}
    (h : branch ∈ chain.manualLayout active) : branch ≠ [] ∧ ∀ idx ∈ branch, idx ∈ active := by
  rw [manualLayout] at h
  split at h
  · obtain ⟨hne, hkeep⟩ := List.of_mem_takeRows h
    exact ⟨hne, fun idx hidx => of_decide_eq_true (hkeep idx hidx)⟩
  · rename_i hleft
    split at h
    · rw [List.mem_singleton.mp h]
      exact ⟨hleft, fun idx hidx => (List.mem_filter.mp hidx).1⟩
    · obtain ⟨row, hrow, share, rfl, hshare⟩ := List.exists_of_mem_deal h
      obtain ⟨hne, hkeep⟩ := List.of_mem_takeRows hrow
      refine ⟨fun hnil => hne (List.append_eq_nil_iff.mp hnil).1, fun idx hidx => ?_⟩
      rcases List.mem_append.mp hidx with hmem | hmem
      · exact of_decide_eq_true (hkeep idx hmem)
      · exact (List.mem_filter.mp (hshare idx hmem)).1

/-- No active branch is empty, and it consists of relays in service. -/
theorem of_mem_activeBranches {chain : RelayChain} {branch : List ℤ}
    (h : branch ∈ chain.activeBranches) :
    branch ≠ [] ∧ ∀ idx ∈ branch, idx ∈ chain.activeChain := by
  rw [activeBranches] at h
  split at h
  · cases h
  · rename_i hactive
    split at h
    · exact of_mem_manualLayout h
    · split at h
      · rw [List.mem_singleton.mp h]
        exact ⟨hactive, fun _ => id⟩
      · obtain ⟨hdealt, hne⟩ := List.mem_filter.mp h
        obtain ⟨row, hrow, share, rfl, hshare⟩ := List.exists_of_mem_deal hdealt
        rw [List.eq_of_mem_replicate hrow] at hne ⊢
        exact ⟨of_decide_eq_true hne, hshare⟩

/-- The nodes of a branch in the forward phase (`_branch_nodes`). -/
def branchNodes (branch : List ℤ) : List String := "station" :: branch.map droneNode

/-- The hops of the forward phase, over all branches. -/
def executedHops (chain : RelayChain) : List (String × String) :=
  chain.activeBranches.flatMap fun branch => (branchNodes branch).hops

/-- The executed hops are those of the paths from the station along the active branches. -/
theorem executedHops_eq (chain : RelayChain) :
    chain.executedHops =
      List.rootedHops "station" (chain.activeBranches.map fun branch => branch.map droneNode) := by
  rw [executedHops, List.rootedHops, List.flatMap_map]
  rfl

/-! ## Chains that run the same branches -/

/-- The chains agree in everything that decides about the branches. They may list their drones and
the failed ones in another order, and may count other drones as failed that are not of the
mission. -/
structure Alike (chain chain' : RelayChain) : Prop where
  droneCount : chain'.droneCount = chain.droneCount
  branchCount : chain'.branchCount = chain.branchCount
  transmissionMode : chain'.transmissionMode = chain.transmissionMode
  manualBranches : chain'.manualBranches = chain.manualBranches
  drones : ∀ idx, chain'.drones.get? idx = chain.drones.get? idx
  failed : ∀ idx, 1 ≤ idx → idx ≤ chain.droneCount →
    (idx ∈ chain'.failedIndices ↔ idx ∈ chain.failedIndices)

namespace Alike

variable {chain chain' : RelayChain}

theorem sortedIndices (h : chain.Alike chain') : chain'.sortedIndices = chain.sortedIndices := by
  have hperm : chain'.drones.keys.Perm chain.drones.keys :=
    (List.perm_ext_iff_of_nodup chain'.drones.nodup chain.drones.nodup).mpr fun idx => by
      rw [← Dict.keys, ← Dict.keys, Dict.mem_keys_iff, Dict.mem_keys_iff, h.drones idx]
  exact List.Perm.eq_of_pairwise (fun _ _ _ _ hab hba => le_antisymm hab hba)
    (List.pairwise_insertionSort _ _) (List.pairwise_insertionSort _ _)
    ((List.perm_insertionSort _ _).trans (hperm.trans (List.perm_insertionSort _ _).symm))

theorem isRelay (h : chain.Alike chain') (idx : ℤ) : chain'.isRelay idx = chain.isRelay idx := by
  rw [RelayChain.isRelay, h.drones idx, RelayChain.isRelay]

theorem available (h : chain.Alike chain') (idx : ℤ) :
    chain'.available idx = chain.available idx := by
  rw [RelayChain.available, RelayChain.available, h.droneCount, decide_eq_decide]
  refine and_congr_right fun hlow => and_congr_right fun hhigh => ?_
  rw [h.failed idx hlow hhigh]

theorem activeChain (h : chain.Alike chain') : chain'.activeChain = chain.activeChain := by
  rw [RelayChain.activeChain, RelayChain.activeChain, h.sortedIndices]
  exact List.filter_congr fun idx _ => by rw [h.available, h.isRelay]

theorem standbyIndices (h : chain.Alike chain') :
    chain'.standbyIndices = chain.standbyIndices := by
  rw [RelayChain.standbyIndices, RelayChain.standbyIndices, h.sortedIndices]
  exact List.filter_congr fun idx _ => by rw [h.available, h.isRelay]

theorem manualLayout (h : chain.Alike chain') (active : List ℤ) :
    chain'.manualLayout active = chain.manualLayout active := by
  -- of the excluded drones only those of the mission count
  have hkeep : sanitizeRows chain'.droneCount (chain'.failedIndices ++ chain'.standbyIndices)
      chain'.manualBranches = sanitizeRows chain.droneCount
        (chain.failedIndices ++ chain.standbyIndices) chain.manualBranches := by
    rw [sanitizeRows, sanitizeRows, h.manualBranches, h.standbyIndices, h.droneCount]
    congr 1
    funext idx
    rw [decide_eq_decide]
    refine and_congr_right fun hlow => and_congr_right fun hhigh => ?_
    rw [List.mem_append, List.mem_append, h.failed idx hlow hhigh]
  rw [RelayChain.manualLayout, RelayChain.manualLayout, hkeep]

theorem activeBranches (h : chain.Alike chain') :
    chain'.activeBranches = chain.activeBranches := by
  rw [RelayChain.activeBranches, RelayChain.activeBranches, h.activeChain, h.manualLayout,
    h.transmissionMode, h.manualBranches, h.branchCount]

end Alike

/-! ## The layout of a configuration -/

/-- The branches that stored ones stand for in manual mode: of each stored branch the relays in
their first occurrence, and the other relays dealt out to these rows. -/
def dealtManual (stored : List (List ℤ)) (relays : List ℤ) : List (List ℤ) :=
  let kept := List.firstRows (fun idx => idx ∈ relays) [] stored
  if kept = [] then [relays]
  else kept.deal (relays.filter fun idx => idx ∉ kept.flatten)

/-- The branches that are run in a mode: all relays on one branch, the relays by their rank modulo
the number of branches, or the manual layout, provided a stored branch names a drone at all. -/
def relayLayout (mode : String) (branchCount : ℕ) (droneCount : ℤ) (stored : List (List ℤ))
    (relays : List ℤ) : List (List ℤ) :=
  if relays = [] then []
  else if mode = "manual" ∧ sanitizeRows droneCount [] stored ≠ [] then dealtManual stored relays
  else if mode = "chain" then [relays]
  else
    let k := min (max 1 branchCount) relays.length
    (List.range k).map fun i => List.stride k i relays

/-- Dealing relays to at most as many branches leaves no branch empty. -/
theorem deal_relays {relays : List ℤ} (h : relays ≠ []) {branchCount : ℕ} :
    ((List.replicate (max 1 (min (max 1 (branchCount : ℤ)) relays.length)).toNat []).deal
        relays).filter (fun branch => branch ≠ []) =
      (List.range (min (max 1 branchCount) relays.length)).map fun i =>
        List.stride (min (max 1 branchCount) relays.length) i relays := by
  have hlen : 0 < relays.length := List.length_pos_iff.mpr h
  have hk : (max 1 (min (max 1 (branchCount : ℤ)) relays.length)).toNat =
      min (max 1 branchCount) relays.length := by omega
  rw [hk, List.deal_replicate]
  refine List.filter_eq_self.mpr fun branch hbranch => ?_
  obtain ⟨i, hi, rfl⟩ := List.mem_map.mp hbranch
  rw [List.mem_range] at hi
  simpa using List.stride_ne_nil hi (Nat.min_le_right _ _)

/-- The relays dealt out to a number of rows. -/
def dealt (rows : ℕ) (relays : List ℤ) : List (List ℤ) :=
  (List.range rows).map fun i => List.stride rows i relays

/-- The manual branches of a chain whose active relays are `relays`. -/
theorem manualLayout_eq {chain : RelayChain} {stored : List (List ℤ)}
    (hstored : chain.manualBranches = sanitizeRows chain.droneCount [] stored)
    (hne : chain.activeChain ≠ []) :
    chain.manualLayout chain.activeChain = dealtManual stored chain.activeChain := by
  have hactive : ∀ idx ∈ chain.activeChain, 1 ≤ idx ∧ idx ≤ chain.droneCount ∧
      idx ∉ chain.failedIndices ∧ idx ∉ chain.standbyIndices := by
    intro idx hidx
    obtain ⟨hmem, hkeep⟩ := List.mem_filter.mp hidx
    rw [Bool.and_eq_true] at hkeep
    obtain ⟨h1, h2, h3⟩ := of_decide_eq_true hkeep.1
    refine ⟨h1, h2, h3, fun hstandby => ?_⟩
    have hnot := (List.mem_filter.mp hstandby).2
    rw [Bool.and_eq_true, hkeep.2] at hnot
    exact absurd hnot.2 (by simp)
  -- the three passes over the stored branches keep the active relays
  have hkept : List.takeRows (fun idx => idx ∈ chain.activeChain) []
      (sanitizeRows chain.droneCount (chain.failedIndices ++ chain.standbyIndices)
        chain.manualBranches) =
      List.firstRows (fun idx => idx ∈ chain.activeChain) [] stored := by
    rw [hstored, sanitizeRows, sanitizeRows, List.firstRows_firstRows,
      List.takeRows_firstRows fun _ _ => Iff.rfl]
    congr 1
    funext idx
    by_cases hidx : idx ∈ chain.activeChain
    · obtain ⟨h1, h2, h3, h4⟩ := hactive idx hidx
      simp [hidx, h1, h2, h3, h4]
    · simp [hidx]
  rw [manualLayout, dealtManual]
  simp only [hkept]
  by_cases hnil : List.firstRows (fun idx => idx ∈ chain.activeChain) [] stored = []
  · simp [hnil, hne]
  · simp only [if_neg hnil]
    split
    · rename_i hleft
      rw [hleft, List.deal_nil]
    · rfl

/-- The active branches of a chain whose manual branches are read from stored ones. -/
theorem activeBranches_eq {chain : RelayChain} {stored : List (List ℤ)} {branchCount : ℕ}
    (hstored : chain.manualBranches = sanitizeRows chain.droneCount [] stored)
    (hcount : chain.branchCount = max 1 (branchCount : ℤ)) :
    chain.activeBranches = relayLayout chain.transmissionMode branchCount chain.droneCount stored
      chain.activeChain := by
  rw [activeBranches, relayLayout]
  by_cases hnil : chain.activeChain = []
  · simp only [if_pos hnil]
  · simp only [if_neg hnil]
    rw [manualLayout_eq hstored hnil, hstored, hcount, deal_relays hnil]

/-! ## The branches after the start -/

section Started

variable {F : Type} [PyText F] [PyFloat F]

theorem start_settings (legacy : LegacyConfig F) :
    (start legacy).droneCount = (settings legacy).droneCount ∧
      (start legacy).branchCount = (settings legacy).branchCount ∧
      (start legacy).transmissionMode = (settings legacy).transmissionMode ∧
      (start legacy).manualBranches = (settings legacy).manualBranches := by
  rw [start_eq, applyRoleCounts]
  dsimp only
  split
  · exact ⟨rfl, rfl, rfl, rfl⟩
  · split <;> exact ⟨rfl, rfl, rfl, rfl⟩

/-- The relays of a legacy configuration. -/
def configuredRelays (legacy : LegacyConfig F) : List ℤ :=
  relayIndices legacy.drones (settings legacy).droneCount (settings legacy).relayCount

/-- The branches after the start. -/
theorem activeBranches_start (legacy : LegacyConfig F) :
    (start legacy).activeBranches =
      relayLayout (settings legacy).transmissionMode legacy.branchCount (settings legacy).droneCount
        (rawBranches legacy.manualBranches) (configuredRelays legacy) := by
  obtain ⟨hdrones, hbranches, hmode, hmanual⟩ := start_settings legacy
  have hactive : (start legacy).activeChain = configuredRelays legacy := activeChain_start legacy
  have hstored : (start legacy).manualBranches =
      sanitizeRows (start legacy).droneCount [] (rawBranches legacy.manualBranches) := by
    rw [hmanual, hdrones]
    rfl
  rw [activeBranches_eq hstored (hbranches.trans rfl), hmode, hdrones, hactive]

end Started

end RelayChain

end Netlab
