import Netlab.Relay.Inventory

/-!
# The active branches share the relays out

Whatever branches are stored for manual mode, the branches that packets run on are a partition of
the relays in service (`activeBranches_partition`): no branch is empty, no two have a relay in
common, and every relay is on one. Drones that have failed, are on standby or were removed are on
none.
-/

namespace Netlab

variable {F : Type}

namespace RelayChain

/-- The relays in service are drones of the mission that are not failed and not on standby. -/
theorem of_mem_activeChain {chain : RelayChain} {idx : ℤ} (h : idx ∈ chain.activeChain) :
    (chain.drones.get? idx).isSome = true ∧ (1 ≤ idx ∧ idx ≤ chain.droneCount) ∧
      idx ∉ chain.failedIndices ∧ idx ∉ chain.standbyIndices := by
  obtain ⟨hmem, hkeep⟩ := List.mem_filter.mp h
  rw [Bool.and_eq_true] at hkeep
  obtain ⟨hlow, hhigh, hfailed⟩ := of_decide_eq_true hkeep.1
  refine ⟨?_, ⟨hlow, hhigh⟩, hfailed, fun hstandby => ?_⟩
  · rw [Option.isSome_iff_exists, ← Dict.mem_keys_iff]
    exact (List.mem_insertionSort (· ≤ ·)).mp hmem
  · have hnot := (List.mem_filter.mp hstandby).2
    simp [hkeep.2] at hnot

/-- The manual layout keeps every relay in service, and no other drone, once. -/
theorem manualLayout_flatten_perm (chain : RelayChain) :
    (chain.manualLayout chain.activeChain).flatten.Perm chain.activeChain := by
  have hnodup := nodup_activeChain chain
  rw [manualLayout]
  -- the stored rows, restricted to relays in service in their first occurrence
  have hmanual : List.takeRows (fun idx => idx ∈ chain.activeChain) [] (sanitizeRows chain.droneCount
      (chain.failedIndices ++ chain.standbyIndices) chain.manualBranches) = List.firstRows (fun idx =>
        decide (1 ≤ idx ∧ idx ≤ chain.droneCount ∧ idx ∉ chain.failedIndices ++ chain.standbyIndices)
          && decide (idx ∈ chain.activeChain)) [] chain.manualBranches :=
    List.takeRows_firstRows fun _ _ => Iff.rfl
  rw [hmanual]
  generalize hrows : List.firstRows _ [] chain.manualBranches = rows
  have hrowsNodup : rows.flatten.Nodup := hrows ▸ List.nodup_flatten_firstRows _ _ _
  have hrowsActive : ∀ idx ∈ rows.flatten, idx ∈ chain.activeChain := by
    intro idx hidx
    obtain ⟨hkeep, -⟩ := List.of_mem_flatten_firstRows (hrows ▸ hidx)
    rw [Bool.and_eq_true] at hkeep
    exact of_decide_eq_true hkeep.2
  -- together with the leftovers these are all relays
  have hperm : (rows.flatten ++ chain.activeChain.filter fun idx => idx ∉ rows.flatten).Perm
      chain.activeChain := by
    refine (List.perm_ext_iff_of_nodup ?_ hnodup).mpr fun idx => ?_
    · refine List.nodup_append.mpr ⟨hrowsNodup, hnodup.filter _, fun x hx y hy heq => ?_⟩
      exact of_decide_eq_true (List.mem_filter.mp hy).2 (heq ▸ hx)
    · rw [List.mem_append, List.mem_filter, decide_eq_true_eq]
      constructor
      · rintro (hidx | hidx)
        · exact hrowsActive idx hidx
        · exact hidx.1
      · intro hidx
        by_cases hrow : idx ∈ rows.flatten
        · exact Or.inl hrow
        · exact Or.inr ⟨hidx, hrow⟩
  split
  · rename_i hnone
    rwa [hnone, List.append_nil] at hperm
  · split
    · rename_i hempty
      simp [hempty]
    · rename_i hrow
      exact (List.deal_flatten_perm hrow _).trans hperm

/-- The active branches keep every relay in service, and no other drone, once. -/
theorem activeBranches_flatten_perm (chain : RelayChain) :
    chain.activeBranches.flatten.Perm chain.activeChain := by
  rw [activeBranches]
  split
  · rename_i hnone
    rw [hnone, List.flatten_nil]
  · split
    · exact manualLayout_flatten_perm chain
    · split
      · simp
      · -- dealing to empty rows deals out everything
        have hrows : List.replicate (max 1 (min chain.branchCount chain.activeChain.length)).toNat
            ([] : List ℤ) ≠ [] := by
          rw [Ne, List.replicate_eq_nil_iff]
          omega
        rw [List.flatten_filter_ne_nil]
        simpa using List.deal_flatten_perm hrows chain.activeChain

end RelayChain

/-- The active branches are a partition of the active chain, in every state and every mode, and
whatever is stored as manual branches. -/
theorem Fleet.activeBranches_partition (fleet : Fleet F) :
    (∀ branch ∈ fleet.activeBranches, branch ≠ []) ∧
      fleet.activeBranches.Pairwise List.Disjoint ∧
      fleet.activeBranches.flatten.Perm fleet.activeChain ∧
      fleet.activeBranches.flatten.Nodup ∧
      ∀ branch ∈ fleet.activeBranches, ∀ idx ∈ branch,
        fleet.known idx = true ∧ (1 ≤ idx ∧ idx ≤ fleet.droneCount) ∧
          idx ∉ fleet.failedIndices ∧ idx ∉ fleet.standbyIndices := by
  have hperm := fleet.chain.activeBranches_flatten_perm
  have hnodup : fleet.activeBranches.flatten.Nodup :=
    hperm.nodup_iff.mpr fleet.chain.nodup_activeChain
  refine ⟨fun branch hbranch => (RelayChain.of_mem_activeBranches hbranch).1,
    (List.nodup_flatten.mp hnodup).2, hperm, hnodup, fun branch hbranch idx hidx => ?_⟩
  have hactive := (RelayChain.of_mem_activeBranches hbranch).2 idx hidx
  obtain ⟨hknown, hmission, hfailed, hstandby⟩ := RelayChain.of_mem_activeChain hactive
  exact ⟨(fleet.known_chain idx).symm.trans hknown, hmission, hfailed, hstandby⟩

end Netlab
