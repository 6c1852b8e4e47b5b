import Netlab.Config.ValidatedEdges
import Netlab.Relay.Branches

/-!
# Executed and validated edges

The packet controller executes the hops of the branches that it derives itself, while the validator
and the previews look at the branches, or in manual mode at the edges, that the configuration
stores. For a chain that has just started from a valid configuration, the two edge sets coincide
exactly when the stored topology is the one that the controller derives (`executed_eq_validated_iff`
with `ExperimentConfig.Faithful`).
-/

namespace Netlab

variable {F : Type} [PyText F] [PyFloat F]

/-- The branches that the relays of a configuration are laid out to. -/
def configuredLayout (config : ExperimentConfig F) (legacy : LegacyConfig F) : List (List ℤ) :=
  RelayChain.relayLayout (topologyMode config.topology) legacy.branchCount
    (RelayChain.settings legacy).droneCount (RelayChain.rawBranches legacy.manualBranches)
    (RelayChain.configuredRelays legacy)

/-- The stored topology is the one that is laid out: in manual mode the edges are the hops of the
layout; otherwise the branches start at the station, each is an initial part of a branch of the
layout, and each branch of the layout is stored. -/
def ExperimentConfig.Faithful (config : ExperimentConfig F) (legacy : LegacyConfig F) : Prop :=
  if topologyMode config.topology = "manual" then
    ∀ e, e ∈ branchesToEdges (configuredLayout config legacy) "station" ↔
      e ∈ manualEdges config.topology
  else
    topologySource config.topology = "station" ∧
      (∀ branch ∈ storedBranches config,
        ∃ row ∈ configuredLayout config legacy, branch <+: row) ∧
      ∀ row ∈ configuredLayout config legacy, row ∈ storedBranches config

/-! ## The executed hops -/

theorem emitted_mode {config : ExperimentConfig F} {legacy : LegacyConfig F}
    (hvalid : config.Valid) (hemit : emitLegacyConfig config = some legacy) :
    (RelayChain.settings legacy).transmissionMode = topologyMode config.topology := by
  obtain ⟨-, -, -, -, hmode, -⟩ := emitLegacyConfig_spec hemit
  have htext : PyText.lower F legacy.transmissionMode.toText = topologyMode config.topology := by
    rw [topologyMode, Dict.getText, Dict.getD, hmode, Option.getD_some]
  show RelayChain.startMode legacy (max 1 (legacy.branchCount : ℤ)) = _
  rw [RelayChain.startMode]
  simp only [htext, RelayChain.transmissionModes]
  rw [if_pos (valid_mode hvalid)]

/-- The executed hops are the edges of the layout. -/
theorem executedHops_start {config : ExperimentConfig F} {legacy : LegacyConfig F}
    (hvalid : config.Valid) (hemit : emitLegacyConfig config = some legacy) :
    (RelayChain.start legacy).executedHops =
      branchesToEdges (configuredLayout config legacy) "station" := by
  rw [RelayChain.executedHops_eq, RelayChain.activeBranches_start, emitted_mode hvalid hemit,
    branchesToEdges_eq]
  rfl

/-! ## The layout outside manual mode -/

namespace RelayChain

theorem relayIndices_nodup (drones : List (LegacyDrone F)) (droneCount relayCount : ℤ) :
    (relayIndices drones droneCount relayCount).Nodup :=
  ((pairwise_missionIndices droneCount).imp fun h => h.ne).filter _

/-- Outside manual mode the branches of a layout are not empty and share no relay. -/
theorem relayLayout_disjoint {mode : String} (hmode : mode ≠ "manual") (branchCount : ℕ)
    (droneCount : ℤ) (stored : List (List ℤ)) {relays : List ℤ} (hrelays : relays.Nodup) :
    (relayLayout mode branchCount droneCount stored relays).flatten.Nodup ∧
      ∀ row ∈ relayLayout mode branchCount droneCount stored relays, row ≠ [] := by
  unfold relayLayout
  by_cases hnil : relays = []
  · simp [hnil]
  · rw [if_neg hnil, if_neg fun h => hmode h.1]
    split
    · simpa [hnil] using hrelays
    · have hlen : 0 < relays.length := List.length_pos_iff.mpr hnil
      have hk : 0 < min (max 1 branchCount) relays.length := by omega
      constructor
      · rw [← List.deal_replicate]
        refine (List.deal_flatten_perm ?_ relays).nodup_iff.mpr (by simpa using hrelays)
        exact List.ne_nil_of_length_pos (by simpa using hk)
      · intro row hrow
        obtain ⟨i, hi, rfl⟩ := List.mem_map.mp hrow
        exact List.stride_ne_nil (List.mem_range.mp hi) (Nat.min_le_right _ _)

end RelayChain

/-! ## Comparison -/

/-- An edge of branches leaves the source or a drone. -/
private theorem edge_source {branches : List (List ℤ)} {source a b : String}
    (h : (a, b) ∈ branchesToEdges branches source) : a = source ∨ ∃ idx, droneNode idx = a := by
  rw [branchesToEdges_eq] at h
  obtain ⟨row, hrow, hhop⟩ := List.mem_rootedHops.mp h
  obtain ⟨ids, -, rfl⟩ := List.mem_map.mp hrow
  rcases List.hop_source hhop with hroot | hnode
  · exact Or.inl hroot
  · obtain ⟨idx, -, hidx⟩ := List.mem_map.mp hnode
    exact Or.inr ⟨idx, hidx⟩

/-- Branches one of which is not empty have an edge that leaves the source. -/
private theorem exists_source_edge {branches : List (List ℤ)} (source : String) {branch : List ℤ}
    (hbranch : branch ∈ branches) (hne : branch ≠ []) :
    ∃ b, (source, b) ∈ branchesToEdges branches source := by
  obtain ⟨b, hb⟩ :=
    List.exists_root_hop source (mt List.map_eq_nil_iff.mp hne)
  rw [branchesToEdges_eq]
  exact ⟨b, List.mem_rootedHops.mpr ⟨_, List.mem_map.mpr ⟨branch, hbranch, rfl⟩, hb⟩⟩

/-- Branches that share no relay have the edges of other branches exactly when these start at the
station, are initial parts of the former, and include all of them. -/
theorem edges_eq_iff {layout stored : List (List ℤ)} {source : String}
    (hnodup : layout.flatten.Nodup) (hne : ∀ row ∈ layout, row ≠ [])
    (hstored : ∀ branch ∈ stored, branch ≠ []) (hsome : stored ≠ []) :
    (∀ e, e ∈ branchesToEdges layout "station" ↔ e ∈ branchesToEdges stored source) ↔
      source = "station" ∧ (∀ branch ∈ stored, ∃ row ∈ layout, branch <+: row) ∧
        ∀ row ∈ layout, row ∈ stored := by
  by_cases hsource : source = "station"
  · subst hsource
    have hroot : "station" ∉ (layout.map fun row => row.map droneNode).flatten := by
      rw [← List.map_flatten]
      intro hmem
      obtain ⟨idx, -, hidx⟩ := List.mem_map.mp hmem
      exact droneNode_ne_station idx hidx
    have hdisjoint : (layout.map fun row => row.map droneNode).flatten.Nodup := by
      rw [← List.map_flatten]
      exact hnodup.map droneNode_injective
    have hmap : Function.Injective (List.map droneNode) :=
      List.map_injective_iff.mpr droneNode_injective
    rw [branchesToEdges_eq, branchesToEdges_eq,
      List.rootedHops_eq_iff hdisjoint hroot (by simpa using hne) (by simpa using hstored)]
    -- what holds of the rows of names holds of the rows of indices
    simp only [true_and, List.forall_mem_map, List.mem_map_of_injective hmap]
    refine and_congr_left fun _ => forall₂_congr fun branch _ => ?_
    simp [List.prefix_map_iff_of_injective droneNode_injective]
  · -- an edge that leaves another source than the station is on one side only
    refine iff_of_false (fun h => ?_) fun h => hsource h.1
    obtain ⟨branch, hbranch⟩ := List.exists_mem_of_ne_nil stored hsome
    obtain ⟨b, hb⟩ := exists_source_edge source hbranch (hstored branch hbranch)
    have hlayout : layout ≠ [] := by
      rintro rfl
      exact absurd ((h _).mpr hb) List.not_mem_nil
    obtain ⟨row, hrow⟩ := List.exists_mem_of_ne_nil layout hlayout
    obtain ⟨c, hc⟩ := exists_source_edge "station" hrow (hne row hrow)
    rcases edge_source ((h _).mp hc) with heq | ⟨idx, hidx⟩
    · exact hsource heq.symm
    · exact droneNode_ne_station idx hidx

/-- For a packet controller started from a valid configuration, the executed hops are the validated
edges exactly when the stored topology is the one that the controller lays out. -/
theorem executed_eq_validated_iff {config : ExperimentConfig F} {legacy : LegacyConfig F}
    (hvalid : config.Valid) (hemit : emitLegacyConfig config = some legacy) :
    (∀ e, e ∈ (RelayChain.start legacy).executedHops ↔ e ∈ validatedEdges config) ↔
      config.Faithful legacy := by
  rw [executedHops_start hvalid hemit, ExperimentConfig.Faithful, validatedEdges]
  by_cases hmode : topologyMode config.topology = "manual"
  · rw [if_pos hmode, if_pos ⟨hmode, valid_manualEdges hvalid hmode⟩]
  · obtain ⟨hnodup, hne⟩ := RelayChain.relayLayout_disjoint hmode legacy.branchCount
      (RelayChain.settings legacy).droneCount (RelayChain.rawBranches legacy.manualBranches)
      (RelayChain.relayIndices_nodup legacy.drones _ _)
    rw [if_neg hmode, if_neg fun h => hmode h.1]
    exact edges_eq_iff hnodup hne (fun _ => ne_nil_of_mem_sanitizeBranches)
      (storedBranches_ne_nil hvalid hmode)

/-! ## Two configurations -/

section FourRelays

attribute [local instance] PyText.exact

/-- A drone record of a configuration. -/
def relayRecord (index : ℤ) : Json ℝ :=
  .obj [("id", .str (droneNode index)), ("index", .int index), ("role", .str "relay"),
    ("active", .bool true), ("failed", .bool false)]

/-- A configuration of four relays. -/
def fourRelays (mode : String) (branches : List (List ℤ)) : ExperimentConfig ℝ where
  swarm := .ofList [("drone_count", .int 4), ("relay_count", .int 4), ("standby_count", .int 0),
    ("drones", .arr ([1, 2, 3, 4].map relayRecord))]
  topology := .ofList [("mode", .str mode), ("source", .str "station"),
    ("branches", .arr (branches.map fun branch => .arr (branch.map .int))),
    ("manual_edges", .arr [])]

/-- The chain of four relays is executed as it is validated. -/
theorem executed_eq_validated_fourRelays :
    ∃ legacy, emitLegacyConfig (fourRelays "chain" [[1, 2, 3, 4]]) = some legacy ∧
      ((∀ e, e ∈ (RelayChain.start legacy).executedHops ↔
          e ∈ validatedEdges (fourRelays "chain" [[1, 2, 3, 4]])) ↔
        (fourRelays "chain" [[1, 2, 3, 4]]).Faithful legacy) :=
  ⟨_, rfl, executed_eq_validated_iff (by decide) rfl⟩

/-- Two parallel branches of neighbouring relays are not executed as stored: the relays are dealt to
the branches in turn, so that the first relay forwards to the third. -/
theorem executed_dealt_in_turn :
    (fourRelays "parallel" [[1, 2], [3, 4]]).Valid ∧
      ∃ legacy, emitLegacyConfig (fourRelays "parallel" [[1, 2], [3, 4]]) = some legacy ∧
        ¬∀ e, e ∈ (RelayChain.start legacy).executedHops ↔
          e ∈ validatedEdges (fourRelays "parallel" [[1, 2], [3, 4]]) := by
  refine ⟨by decide, _, rfl, fun h => ?_⟩
  have hexecuted := (h ("drone_1", "drone_3")).mp (by decide)
  exact absurd hexecuted (by decide)

end FourRelays

end Netlab
