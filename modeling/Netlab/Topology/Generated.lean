import Netlab.Config.ValidatedEdges
import Netlab.Prelude.Dealing
import Netlab.Topology.Validate

/-!
# Generated topologies

`generate_branches` arranges the relays in a chain, deals them to parallel branches, or gives each
branch of a forest a root and deals the other relays. What it generates lists every relay, and is
structurally valid unless two branches of a forest share a root: then the edge to the root occurs
twice (`generatedTopology_valid_iff`).
-/

namespace Netlab

variable (F : Type) [PyText F]

/-- The number of roots in a forest. -/
def forestRoots (relayCount branchCount : ℤ) : ℤ := min branchCount (max 1 (relayCount / 3))

/-- The roots at which the branches of a forest start. -/
def forestHeads (relayCount branchCount : ℤ) : List ℤ :=
  (Int.range 0 branchCount).map fun i => 1 + i % forestRoots relayCount branchCount

/-- The relays that are no roots, dealt to the branches of a forest. -/
def forestBuckets (relayCount branchCount : ℤ) : List (List ℤ) :=
  List.deal (.replicate branchCount.toNat [])
    (Int.range (forestRoots relayCount branchCount + 1) (relayCount + 1))

/-- The branches of a forest. -/
def forestBranches (relayCount branchCount : ℤ) : List (List ℤ) :=
  List.zipWith List.cons (forestHeads relayCount branchCount) (forestBuckets relayCount branchCount)

/-- Arrange relays in branches (`generate_branches`). -/
def generateBranches (relayCount branchCount : ℤ) (mode : String) : List (List ℤ) :=
  let relayCount := max 1 relayCount
  let branchCount := max 1 (min branchCount relayCount)
  let relays := Int.range 1 (relayCount + 1)
  match TopologyMode.ofValue? (PyText.lower F mode) with
  | some .parallel => (List.deal (.replicate branchCount.toNat []) relays).filter (· ≠ [])
  | some .forest =>
      if relayCount = 1 then [[1]] else (forestBranches relayCount branchCount).filter (· ≠ [])
  | _ => [relays]

variable {F} [PyPoints F]

/-- Generated branches as the validator is given them. -/
def generatedQuery (relayCount branchCount : ℤ) (mode : String) : TopologyQuery F where
  mode
  relayCount
  branches := .arr ((generateBranches F relayCount branchCount mode).map fun branch =>
    .arr (branch.map .int))

/-! ## Disjoint branches -/

/-- Branches without a common relay are sound. -/
theorem TopologyQuery.sound_of_disjoint {query : TopologyQuery F}
    (hmode : ∃ mode, query.mode? = some mode) (hbranches : query.normalizedBranches ≠ [])
    (hdisjoint : query.normalizedBranches.flatten.Nodup)
    (hedges : query.edges = branchesToEdges query.normalizedBranches query.source)
    (hsource : ∀ idx, query.source ≠ droneNode idx) (hsinks : query.sinks = [])
    (hfailed : query.failedNodes = []) : query.Sound := by
  have hrooted : query.edges = List.rootedHops query.source
      (query.normalizedBranches.map fun branch => branch.map droneNode) := by
    rw [hedges, branchesToEdges_eq]
  have hflatten : (query.normalizedBranches.map fun branch => branch.map droneNode).flatten =
      query.normalizedBranches.flatten.map droneNode := List.map_flatten.symm
  have hnodup : (query.source ::
      (query.normalizedBranches.map fun branch => branch.map droneNode).flatten).Nodup := by
    rw [hflatten, List.nodup_cons]
    refine ⟨fun hmem => ?_, hdisjoint.map droneNode_injective⟩
    obtain ⟨idx, -, heq⟩ := List.mem_map.mp hmem
    exact hsource idx heq.symm
  have hedge : query.Edge = fun u v => (u, v) ∈ List.rootedHops query.source
      (query.normalizedBranches.map fun branch => branch.map droneNode) := by
    ext u v
    rw [Edge, hrooted]
  -- all ends of edges are the source or relays that are read
  have hnodes : ∀ x, x ∈ query.source ::
      (query.normalizedBranches.map fun branch => branch.map droneNode).flatten → x ∈ query.nodes := by
    intro x hx
    rw [hflatten, List.mem_cons, List.mem_map] at hx
    rw [nodes, List.mem_cons, List.mem_map]
    refine hx.imp_right fun hrelay => ?_
    obtain ⟨idx, hidx, heq⟩ := hrelay
    refine ⟨idx, ?_, heq⟩
    obtain ⟨branch, hbranch, hmem⟩ := List.mem_flatten.mp hidx
    obtain ⟨hlow, hhigh⟩ := range_of_mem_sanitizeBranches hbranch idx hmem
    exact Int.mem_range_iff.mpr ⟨hlow, by omega⟩
  have hsublist : ∀ {u v}, query.Edge u v → [u, v].Sublist (query.source ::
      (query.normalizedBranches.map fun branch => branch.map droneNode).flatten) := fun huv =>
    List.hop_sublist (by rw [← hrooted]; exact huv)
  obtain ⟨first, rest, hfirst⟩ := List.exists_cons_of_ne_nil hbranches
  exact {
    mode := hmode
    branch := fun _ => ⟨first, by rw [hfirst]; exact List.mem_cons_self,
      ne_nil_of_mem_sanitizeBranches (hfirst ▸ List.mem_cons_self)⟩
    nodup := hrooted ▸ List.nodup_rootedHops _ (List.nodup_cons.mp hnodup).2
    loopless := fun u v huv heq => by
      have hpair := hnodup.sublist (hsublist huv)
      simp [heq] at hpair
    endpoint := fun u v huv => ⟨hnodes u ((hsublist huv).subset (by simp)),
      hnodes v ((hsublist huv).subset (by simp))⟩
    acyclic := fun _ hcycle => by
      obtain ⟨a, ha⟩ := hcycle
      exact List.rootedHops_acyclic hnodup a (hedge ▸ ha)
    reached := fun sink hsink => by
      rw [resolvedSinks, hsinks, if_neg (not_not.mpr rfl), hfirst, List.head?_cons,
        Option.bind_some, List.mem_map] at hsink
      obtain ⟨idx, hidx, rfl⟩ := hsink
      have hlast : idx ∈ first := List.mem_of_getLast? (Option.mem_toList.mp hidx)
      rw [hedge]
      refine @List.reflTransGen_rootedHops _ _ _ (first.map droneNode) ?_ _ (List.mem_map_of_mem hlast)
      rw [hfirst]
      exact List.mem_cons_self
    working := fun u v _ => by simp [hfailed] }

/-! ## Arrangements -/

/-- A range has no repetitions. -/
theorem nodup_range (m n : ℤ) : (Int.range m n).Nodup :=
  List.nodup_range.map fun _ _ h => by simpa using h

/-- Branches that together list every relay. -/
structure Arranges (relayCount : ℤ) (rows : List (List ℤ)) : Prop where
  nonempty : ∀ row ∈ rows, row ≠ []
  nodup : ∀ row ∈ rows, row.Nodup
  mem_flatten : ∀ idx, idx ∈ rows.flatten ↔ 1 ≤ idx ∧ idx ≤ relayCount

/-- Branches that list every relay once. -/
theorem Arranges.of_perm {relayCount : ℤ} {rows : List (List ℤ)} (hne : ∀ row ∈ rows, row ≠ [])
    (h : rows.flatten.Perm (Int.range 1 (relayCount + 1))) :
    Arranges relayCount rows ∧ rows.flatten.Nodup := by
  have hnodup : rows.flatten.Nodup := h.nodup_iff.mpr (nodup_range _ _)
  refine ⟨⟨hne, (List.nodup_flatten.mp hnodup).1, fun idx => ?_⟩, hnodup⟩
  rw [h.mem_iff, Int.mem_range_iff]
  omega

section Forest

variable {relayCount branchCount : ℤ} (hbranch : 1 ≤ branchCount) (hle : branchCount ≤ relayCount)

include hbranch in
theorem one_le_forestRoots : 1 ≤ forestRoots relayCount branchCount := by
  rw [forestRoots]
  omega

theorem forestRoots_le : forestRoots relayCount branchCount ≤ branchCount := min_le_left _ _

theorem length_forestHeads :
    (forestHeads relayCount branchCount).length = (forestBuckets relayCount branchCount).length := by
  simp [forestHeads, forestBuckets, Int.range]

include hbranch in
/-- The relays that are no roots are dealt without loss. -/
theorem forestBuckets_flatten_perm : (forestBuckets relayCount branchCount).flatten.Perm
    (Int.range (forestRoots relayCount branchCount + 1) (relayCount + 1)) := by
  have hrows : List.replicate branchCount.toNat ([] : List ℤ) ≠ [] := by
    rw [Ne, List.replicate_eq_nil_iff]
    omega
  simpa [forestBuckets] using List.deal_flatten_perm hrows
    (Int.range (forestRoots relayCount branchCount + 1) (relayCount + 1))

include hbranch in
/-- The branches start at all roots. -/
theorem mem_forestHeads {idx : ℤ} : idx ∈ forestHeads relayCount branchCount ↔
    1 ≤ idx ∧ idx ≤ forestRoots relayCount branchCount := by
  have hroots := @one_le_forestRoots relayCount branchCount hbranch
  have hbound := @forestRoots_le relayCount branchCount
  rw [forestHeads, List.mem_map]
  constructor
  · rintro ⟨i, -, rfl⟩
    have hnonneg := Int.emod_nonneg i (show forestRoots relayCount branchCount ≠ 0 by omega)
    have hlt := Int.emod_lt_of_pos i (show 0 < forestRoots relayCount branchCount by omega)
    omega
  · rintro ⟨hlow, hhigh⟩
    refine ⟨idx - 1, Int.mem_range_iff.mpr (by omega), ?_⟩
    rw [Int.emod_eq_of_lt (by omega) (by omega)]
    omega

include hbranch in
/-- No two branches share a root exactly if there are as many roots as branches. -/
theorem nodup_forestHeads_iff : (forestHeads relayCount branchCount).Nodup ↔
    branchCount ≤ max 1 (relayCount / 3) := by
  have hroots := @one_le_forestRoots relayCount branchCount hbranch
  constructor
  · intro hnodup
    by_contra hmore
    -- the branch behind the last root starts at the first one again
    have hlt : forestRoots relayCount branchCount < branchCount := by
      rw [forestRoots]
      omega
    have heq := List.inj_on_of_nodup_map hnodup (Int.mem_range_iff.mpr ⟨le_refl 0, by omega⟩)
      (Int.mem_range_iff.mpr ⟨by omega, hlt⟩) (by rw [Int.emod_self, Int.zero_emod])
    omega
  · intro hle
    have hall : forestRoots relayCount branchCount = branchCount := min_eq_left hle
    refine (nodup_range 0 branchCount).map_on fun i hi j hj h => ?_
    rw [Int.mem_range_iff] at hi hj
    rw [hall, Int.emod_eq_of_lt hi.1 hi.2, Int.emod_eq_of_lt hj.1 hj.2] at h
    omega

/-- All relays of a forest. -/
theorem forestBranches_flatten_perm (hbranch : 1 ≤ branchCount) :
    (forestBranches relayCount branchCount).flatten.Perm (forestHeads relayCount branchCount ++
      Int.range (forestRoots relayCount branchCount + 1) (relayCount + 1)) :=
  (List.flatten_zipWith_cons_perm length_forestHeads).trans
    ((forestBuckets_flatten_perm hbranch).append_left _)

include hbranch hle in
/-- A forest lists every relay. -/
theorem arranges_forestBranches : Arranges relayCount (forestBranches relayCount branchCount) := by
  -- a branch is a root with the relays of its bucket
  have hrow : ∀ row ∈ forestBranches relayCount branchCount,
      ∃ head ∈ forestHeads relayCount branchCount, ∃ bucket ∈ forestBuckets relayCount branchCount,
        row = head :: bucket := by
    intro row hrow
    rw [forestBranches, ← List.map_uncurry_zip_eq_zipWith] at hrow
    obtain ⟨⟨head, bucket⟩, hpair, rfl⟩ := List.mem_map.mp hrow
    exact ⟨head, (List.of_mem_zip hpair).1, bucket, (List.of_mem_zip hpair).2, rfl⟩
  have hbuckets := @forestBuckets_flatten_perm relayCount branchCount hbranch
  refine ⟨fun row hmem => ?_, fun row hmem => ?_, fun idx => ?_⟩
  · obtain ⟨head, -, bucket, -, rfl⟩ := hrow row hmem
    exact List.cons_ne_nil head bucket
  · obtain ⟨head, hhead, bucket, hbucket, rfl⟩ := hrow row hmem
    have hnodup := hbuckets.nodup_iff.mpr (nodup_range _ _)
    refine List.nodup_cons.mpr ⟨fun hin => ?_, (List.nodup_flatten.mp hnodup).1 bucket hbucket⟩
    have hrest := Int.mem_range_iff.mp
      (hbuckets.mem_iff.mp (List.mem_flatten.mpr ⟨bucket, hbucket, hin⟩))
    have hroot := (mem_forestHeads hbranch).mp hhead
    omega
  · have hroots := @one_le_forestRoots relayCount branchCount hbranch
    have hbound := @forestRoots_le relayCount branchCount
    rw [(forestBranches_flatten_perm hbranch).mem_iff, List.mem_append, mem_forestHeads hbranch,
      Int.mem_range_iff]
    omega

include hbranch in
/-- A forest with as many roots as branches lists no relay twice. -/
theorem nodup_forestBranches_flatten (h : branchCount ≤ max 1 (relayCount / 3)) :
    (forestBranches relayCount branchCount).flatten.Nodup := by
  rw [(forestBranches_flatten_perm hbranch).nodup_iff]
  refine List.Nodup.append ((nodup_forestHeads_iff hbranch).mpr h) (nodup_range _ _) ?_
  intro idx hhead hrest
  have hroot := (mem_forestHeads hbranch).mp hhead
  have hbehind := Int.mem_range_iff.mp hrest
  omega

/-- Each branch of a forest has an edge from the source to its root. -/
theorem sublist_forestEdges (source : String) :
    ((forestHeads relayCount branchCount).map fun head => (source, droneNode head)).Sublist
      (branchesToEdges (forestBranches relayCount branchCount) source) := by
  have hlength := @length_forestHeads relayCount branchCount
  rw [forestBranches]
  generalize forestHeads relayCount branchCount = heads at hlength
  generalize forestBuckets relayCount branchCount = buckets at hlength
  induction heads generalizing buckets with
  | nil => exact List.nil_sublist _
  | cons head heads ih =>
      obtain ⟨bucket, buckets, rfl⟩ := List.exists_cons_of_length_eq_add_one hlength.symm
      rw [List.length_cons, List.length_cons, Nat.add_right_cancel_iff] at hlength
      rw [List.zipWith_cons_cons, branchesToEdges, List.flatMap_cons, branchEdges, List.map_cons,
        List.cons_append]
      exact ((ih buckets hlength).trans (List.sublist_append_right _ _)).cons_cons _

end Forest

/-! ## Which generated topologies are valid -/

section

variable {relayCount branchCount : ℤ} {mode : String} {topologyMode : TopologyMode}

omit [PyPoints F]

/-- Every branch of a forest is kept. -/
theorem generateBranches_forest (hmode : TopologyMode.ofValue? (PyText.lower F mode) = some .forest)
    (hrelay : 1 < relayCount) (hbranch : 1 ≤ branchCount) :
    generateBranches F relayCount branchCount mode =
      forestBranches relayCount (min branchCount relayCount) := by
  have hall := arranges_forestBranches (show 1 ≤ min branchCount relayCount by omega)
    (min_le_right branchCount relayCount)
  rw [generateBranches, hmode, max_eq_right hrelay.le,
    max_eq_right (show 1 ≤ min branchCount relayCount by omega)]
  dsimp only
  rw [if_neg (by omega)]
  exact List.filter_eq_self.mpr fun row hrow => decide_eq_true (hall.nonempty row hrow)

/-- Outside forests, and in a forest of one relay, the branches list every relay once. -/
theorem generateBranches_flatten_perm (hrelay : 1 ≤ relayCount)
    (hmode : TopologyMode.ofValue? (PyText.lower F mode) ≠ some .forest ∨ relayCount = 1) :
    (∀ row ∈ generateBranches F relayCount branchCount mode, row ≠ []) ∧
      (generateBranches F relayCount branchCount mode).flatten.Perm
        (Int.range 1 (relayCount + 1)) := by
  have hrelays : Int.range 1 (relayCount + 1) ≠ [] :=
    List.ne_nil_of_mem (Int.mem_range_iff.mpr ⟨le_refl 1, by omega⟩)
  rw [generateBranches, max_eq_right hrelay]
  split
  · refine ⟨fun row hrow => of_decide_eq_true (List.mem_filter.mp hrow).2, ?_⟩
    rw [List.flatten_filter_ne_nil]
    have hrows : List.replicate (max 1 (min branchCount relayCount)).toNat ([] : List ℤ) ≠ [] := by
      rw [Ne, List.replicate_eq_nil_iff]
      omega
    simpa using List.deal_flatten_perm hrows (Int.range 1 (relayCount + 1))
  · rename_i hforest
    obtain rfl := hmode.resolve_left (not_not.mpr hforest)
    rw [if_pos rfl]
    exact ⟨by simp, by decide⟩
  · exact ⟨by simpa using hrelays, by simp⟩

/-- What is generated lists every relay. -/
theorem arranges_generateBranches (hrelay : 1 ≤ relayCount) (hbranch : 1 ≤ branchCount) :
    Arranges relayCount (generateBranches F relayCount branchCount mode) := by
  by_cases hforest : TopologyMode.ofValue? (PyText.lower F mode) = some .forest ∧ 1 < relayCount
  · rw [generateBranches_forest hforest.1 hforest.2 hbranch]
    exact arranges_forestBranches (by omega) (min_le_right branchCount relayCount)
  · obtain ⟨hne, hperm⟩ := @generateBranches_flatten_perm F _ relayCount branchCount mode hrelay
      ((not_and_or.mp hforest).imp_right fun h => by omega)
    exact (Arranges.of_perm hne hperm).1

/-- It lists a relay twice only if branches of a forest share a root. -/
theorem nodup_generateBranches_flatten (hrelay : 1 ≤ relayCount) (hbranch : 1 ≤ branchCount)
    (h : TopologyMode.ofValue? (PyText.lower F mode) ≠ some .forest ∨
      min branchCount relayCount ≤ max 1 (relayCount / 3)) :
    (generateBranches F relayCount branchCount mode).flatten.Nodup := by
  by_cases hforest : TopologyMode.ofValue? (PyText.lower F mode) = some .forest ∧ 1 < relayCount
  · rw [generateBranches_forest hforest.1 hforest.2 hbranch]
    exact nodup_forestBranches_flatten (by omega) (h.resolve_left (not_not.mpr hforest.1))
  · obtain ⟨hne, hperm⟩ := @generateBranches_flatten_perm F _ relayCount branchCount mode hrelay
      ((not_and_or.mp hforest).imp_right fun h => by omega)
    exact (Arranges.of_perm hne hperm).2

end

section

variable {relayCount branchCount : ℤ} {mode : String} {topologyMode : TopologyMode}

/-- The validator reads the branches as they were generated. -/
theorem normalizedBranches_generatedQuery (hrelay : 1 ≤ relayCount) (hbranch : 1 ≤ branchCount) :
    (generatedQuery relayCount branchCount mode : TopologyQuery F).normalizedBranches =
      generateBranches F relayCount branchCount mode := by
  have hall := @arranges_generateBranches F _ relayCount branchCount mode hrelay hbranch
  rw [TopologyQuery.normalizedBranches, generatedQuery, max_eq_right (by omega : 0 ≤ relayCount)]
  refine sanitizeBranches_eq (List.forall₂_map_left_iff.mpr (List.forall₂_same.mpr
    fun row hrow => ⟨⟨_, rfl, ?_⟩, hall.nonempty row hrow, hall.nodup row hrow, fun idx hidx => ?_⟩))
  · rw [List.map_map]
    rfl
  · exact (hall.mem_flatten idx).mp (List.mem_flatten.mpr ⟨row, hrow, hidx⟩)

/-- The edges are those of the branches. -/
theorem edges_generatedQuery (query : TopologyQuery F) (h : query.manualEdges = .null) :
    query.edges = branchesToEdges query.normalizedBranches query.source := by
  rw [TopologyQuery.edges, h, if_neg (by simp [Json.truthy])]

/-- A generated topology is sound unless branches of a forest share a root. -/
theorem sound_generatedQuery_iff
    (hmode : TopologyMode.ofValue? (PyText.lower F mode) = some topologyMode)
    (hrelay : 1 ≤ relayCount) (hbranch : 1 ≤ branchCount) :
    (generatedQuery relayCount branchCount mode : TopologyQuery F).Sound ↔
      topologyMode ≠ .forest ∨ min branchCount relayCount ≤ max 1 (relayCount / 3) := by
  have hread := @normalizedBranches_generatedQuery F _ _ relayCount branchCount mode hrelay hbranch
  have hall := @arranges_generateBranches F _ relayCount branchCount mode hrelay hbranch
  have hedges := edges_generatedQuery (generatedQuery relayCount branchCount mode : TopologyQuery F) rfl
  constructor
  · intro hsound
    by_contra hshared
    rw [not_or, not_not] at hshared
    obtain ⟨rfl, hmore⟩ := hshared
    have hnodup := hsound.nodup
    rw [hedges, hread, generateBranches_forest hmode (by omega) hbranch] at hnodup
    -- the edges to the roots are distinct, so the roots are
    have hheads := (hnodup.sublist (sublist_forestEdges _)).of_map
    exact hmore ((nodup_forestHeads_iff (by omega)).mp hheads)
  · intro h
    refine TopologyQuery.sound_of_disjoint ⟨topologyMode, hmode⟩ ?_ ?_ hedges
      (fun idx => (droneNode_ne_station idx).symm) rfl rfl
    · rw [hread]
      rintro hnil
      have hfirst := (hall.mem_flatten 1).mpr ⟨le_refl 1, hrelay⟩
      rw [hnil] at hfirst
      exact absurd hfirst List.not_mem_nil
    · rw [hread]
      exact nodup_generateBranches_flatten hrelay hbranch
        (h.imp_left fun hne heq => hne (Option.some.inj (hmode.symm.trans heq)))

/-- A generated topology is found valid exactly if it is sound. -/
theorem generatedQuery_valid_iff_sound (orders : String → SetOrder String)
    (eigenvalue : SecondEigenvalue F) (relayCount branchCount : ℤ) (mode : String) :
    (∀ᶠ fuel in Filter.atTop, ∃ report, validateTopology orders eigenvalue fuel
      (generatedQuery relayCount branchCount mode) = some report ∧ report.structurallyValid = true) ↔
      (generatedQuery relayCount branchCount mode : TopologyQuery F).Sound := by
  have hsinks : (generatedQuery relayCount branchCount mode : TopologyQuery F).source ∉
      (generatedQuery relayCount branchCount mode : TopologyQuery F).resolvedSinks := by
    rw [TopologyQuery.resolvedSinks, if_neg (by simp [generatedQuery])]
    intro hmem
    obtain ⟨idx, -, heq⟩ := List.mem_map.mp hmem
    exact droneNode_ne_station idx heq
  have hreport := validateTopology_report orders eigenvalue hsinks
  constructor
  · intro hvalid
    obtain ⟨fuel, ⟨report, hsome, htrue⟩, ⟨report', hsome', hiff⟩⟩ := (hvalid.and hreport).exists
    obtain rfl := Option.some.inj (hsome.symm.trans hsome')
    exact hiff.mp htrue
  · intro hsound
    refine hreport.mono fun fuel hfound => ?_
    obtain ⟨report, hsome, hiff⟩ := hfound
    exact ⟨report, hsome, hiff.mpr hsound⟩

end

/-- For every mode that the validator supports and all counts from one on, a generated topology is
structurally valid and lists every relay if and only if it is no forest in which branches share a
root. -/
theorem generatedTopology_valid_iff (orders : String → SetOrder String)
    (eigenvalue : SecondEigenvalue F) {mode : String} {topologyMode : TopologyMode}
    (hmode : TopologyMode.ofValue? (PyText.lower F mode) = some topologyMode)
    {relayCount branchCount : ℤ} (hrelay : 1 ≤ relayCount) (hbranch : 1 ≤ branchCount) :
    ((∀ᶠ fuel in Filter.atTop, ∃ report, validateTopology orders eigenvalue fuel
      (generatedQuery relayCount branchCount mode) = some report ∧ report.structurallyValid = true) ∧
      ∀ idx, 1 ≤ idx → idx ≤ relayCount →
        ∃ branch ∈ generateBranches F relayCount branchCount mode, idx ∈ branch) ↔
      topologyMode ≠ .forest ∨ min branchCount relayCount ≤ max 1 (relayCount / 3) := by
  rw [generatedQuery_valid_iff_sound, sound_generatedQuery_iff hmode hrelay hbranch,
    and_iff_left_iff_imp]
  intro _ idx hlow hhigh
  have hall := @arranges_generateBranches F _ relayCount branchCount mode hrelay hbranch
  exact List.mem_flatten.mp ((hall.mem_flatten idx).mpr ⟨hlow, hhigh⟩)

/-- Six relays on three parallel branches. -/
theorem generatedTopology_valid_iff_parallel :
    ((∀ᶠ fuel in Filter.atTop, ∃ report, validateTopology (fun _ => .sorted) (fun _ _ _ => some 0) fuel
      (generatedQuery 6 3 "parallel" : TopologyQuery ℚ) = some report ∧
        report.structurallyValid = true) ∧
      ∀ idx, 1 ≤ idx → idx ≤ 6 → ∃ branch ∈ generateBranches ℚ 6 3 "parallel", idx ∈ branch) ↔
      TopologyMode.parallel ≠ .forest ∨ min (3 : ℤ) 6 ≤ max 1 (6 / 3) :=
  generatedTopology_valid_iff _ _ (by decide) (by decide) (by decide)

/-- A forest of eight relays has two roots for three branches, so its topology is not valid. -/
theorem generatedTopology_forest_invalid : ¬∀ᶠ fuel in Filter.atTop, ∃ report,
    validateTopology (fun _ => .sorted) (fun _ _ _ => some 0) fuel
      (generatedQuery 8 3 "forest" : TopologyQuery ℚ) = some report ∧
        report.structurallyValid = true := by
  have hmode : TopologyMode.ofValue? (PyText.lower ℚ "forest") = some .forest := by decide
  rw [generatedQuery_valid_iff_sound, sound_generatedQuery_iff hmode (by decide) (by decide)]
  decide

end Netlab
