import Mathlib.Data.Int.Range
import Netlab.Topology.Edges
import Netlab.Topology.Metrics

/-!
# Validation of a topology

`validate_topology` collects errors and warnings about the arrangement of the relays and about the
positions of the nodes, and attaches the metrics. The structural verdict is exact: a topology is
structurally valid if and only if it is sound as a graph (`validateTopology_exact`).
-/

/-- A type of floats with `math.dist` of points with any number of coordinates. -/
class PyPoints (F : Type) extends PyFloat F where
  /-- `math.dist(p, q)` of two points with the same number of coordinates. -/
  distance : List F → List F → F

attribute [instance (100)] PyPoints.toPyFloat

/-- Exact fractions as floats, for evaluations on points along an axis. -/
instance : PyPoints ℚ where
  distance p q := (List.zipWith (fun x y => |x - y|) p q).sum

namespace Netlab

variable {F : Type}

/-- An edge in a report. -/
def edgeItem (edge : String × String) : Json F := .arr [.str edge.1, .str edge.2]

/-! ## Errors and warnings -/

/-- An error that the validator finds. -/
inductive TopologyError (F : Type)
  | invalidMode (mode : String)
  | noBranches
  | duplicateNodeInBranch (branch : ℕ)
  | duplicateEdges (edges : List (String × String))
  | missingEndpoint (edge : String × String)
  | selfLoop (edge : String × String)
  | cycleNotAllowed (mode : TopologyMode)
  | unreachableSink (sink : String)
  | failedNodeInActiveRoute (edge : String × String)
  | invalidCoordinate (node : String)
  | altitudeViolation (node : String) (z : F) (bounds : F × F)
  | minimumSeparationViolation (nodes : String × String) (distance threshold : F)

namespace TopologyError

/-- The code of an error. -/
def code : TopologyError F → String
  | invalidMode _ => "INVALID_MODE"
  | noBranches => "NO_BRANCHES"
  | duplicateNodeInBranch _ => "DUPLICATE_NODE_IN_BRANCH"
  | duplicateEdges _ => "DUPLICATE_EDGES"
  | missingEndpoint _ => "MISSING_ENDPOINT"
  | selfLoop _ => "SELF_LOOP"
  | cycleNotAllowed _ => "CYCLE_NOT_ALLOWED"
  | unreachableSink _ => "UNREACHABLE_SINK"
  | failedNodeInActiveRoute _ => "FAILED_NODE_IN_ACTIVE_ROUTE"
  | invalidCoordinate _ => "INVALID_COORDINATE"
  | altitudeViolation .. => "ALTITUDE_VIOLATION"
  | minimumSeparationViolation .. => "MINIMUM_SEPARATION_VIOLATION"

/-- What else the record of an error says. -/
def details : TopologyError F → List (String × Json F)
  | invalidMode mode => [("message", .str ("Unsupported topology mode " ++ mode ++ "."))]
  | noBranches => [("message", .str "At least one non-empty branch is required.")]
  | duplicateNodeInBranch branch => [("branch", .int branch)]
  | duplicateEdges edges => [("edges", .arr (edges.map edgeItem))]
  | missingEndpoint edge => [("edge", edgeItem edge)]
  | selfLoop edge => [("edge", edgeItem edge)]
  | cycleNotAllowed mode =>
      [("message", .str ("Cycles are not allowed in " ++ mode.value ++ " mode."))]
  | unreachableSink sink => [("sink", .str sink)]
  | failedNodeInActiveRoute edge => [("edge", edgeItem edge)]
  | invalidCoordinate node => [("node", .str node)]
  | altitudeViolation node z bounds => [("node", .str node), ("z_m", .float z),
      ("bounds_m", .arr [.float bounds.1, .float bounds.2])]
  | minimumSeparationViolation nodes distance threshold => [("nodes", edgeItem nodes),
      ("distance_m", .float distance), ("threshold_m", .float threshold)]

/-- The record of an error. -/
def toJson (error : TopologyError F) : Json F :=
  .obj (("code", .str error.code) :: error.details)

/-- Whether an error is about the graph and not about the positions of its nodes. -/
def IsStructural (error : TopologyError F) : Prop :=
  error.code ∉ ["INVALID_COORDINATE", "ALTITUDE_VIOLATION", "MINIMUM_SEPARATION_VIOLATION"]

instance (error : TopologyError F) : Decidable error.IsStructural :=
  inferInstanceAs (Decidable (_ ∉ _))

end TopologyError

/-- A warning of the validator. -/
inductive TopologyWarning
  | unassignedRelays (missing : List ℤ)
  | sharedParallelRelays (shared : List ℤ)
  | infeasibleEdges (edges : List (String × String))

/-- The record of a warning. -/
def TopologyWarning.toJson [PyText F] : TopologyWarning → Json F
  | unassignedRelays missing => .obj [("code", .str "UNASSIGNED_RELAYS"), ("message", .str
      ("Relays not assigned to a path: " ++ (Json.arr (missing.map .int) : Json F).toText ++ "."))]
  | sharedParallelRelays shared => .obj [("code", .str "SHARED_PARALLEL_RELAYS"), ("message", .str
      ("Parallel branches share relays " ++ (Json.arr (shared.map .int) : Json F).toText ++
        "; failure independence is reduced."))]
  | infeasibleEdges edges => .obj [("code", .str "INFEASIBLE_EDGES"),
      ("edges", .arr (edges.map edgeItem))]

/-! ## The topology to validate -/

variable [PyText F] [PyPoints F]

/-- What `validate_topology` is given. No sinks stand for the end of the first branch. -/
structure TopologyQuery (F : Type) [PyPoints F] where
  mode : String
  relayCount : ℤ
  branches : Json F
  manualEdges : Json F := .null
  positions : Dict String (Json F) := .empty
  source : String := "station"
  sinks : List String := []
  failedNodes : List String := []
  minimumSeparationM : F := 0.0
  altitudeBoundsM : Option (F × F) := none
  linkFeasibility : Option (Dict (String × String) Bool) := none

namespace TopologyQuery

/-- The mode that is asked for, if there is such a mode. -/
def mode? (query : TopologyQuery F) : Option TopologyMode :=
  TopologyMode.ofValue? (PyText.lower F query.mode)

/-- The mode in which the topology is read. -/
def normalizedMode (query : TopologyQuery F) : TopologyMode := query.mode?.getD .manual

/-- The branches that are read. -/
def normalizedBranches (query : TopologyQuery F) : List (List ℤ) :=
  sanitizeBranches (max 0 query.relayCount) true query.branches

/-- The relays of the inventory. -/
def relays (query : TopologyQuery F) : List ℤ :=
  Int.range 1 (max 0 query.relayCount + 1)

/-- The nodes of the topology. -/
def nodes (query : TopologyQuery F) : List String := query.source :: query.relays.map droneNode

/-- The edges of the topology. -/
def edges (query : TopologyQuery F) : List (String × String) :=
  if query.normalizedMode = .manual ∧ query.manualEdges.truthy then
    normalizeManualEdges query.manualEdges
  else branchesToEdges query.normalizedBranches query.source

/-- The sinks, where none are given the end of the first branch. -/
def resolvedSinks (query : TopologyQuery F) : List String :=
  if query.sinks ≠ [] then query.sinks
  else (query.normalizedBranches.head?.bind List.getLast?).toList.map droneNode

/-- The graph of the topology. -/
def graph (query : TopologyQuery F) : Graph String := adjacency query.nodes query.edges true

/-! ## Checks -/

/-- The errors about the mode and the branches. -/
def branchErrors (query : TopologyQuery F) : List (TopologyError F) :=
  (if query.mode? = none then [.invalidMode query.mode] else []) ++
  (if query.normalizedBranches = [] ∧ query.normalizedMode ≠ .manual then [.noBranches] else []) ++
  query.normalizedBranches.zipIdx.flatMap fun entry =>
    if entry.1.length ≠ entry.1.toFinset.card then [.duplicateNodeInBranch entry.2] else []

/-- The errors about single edges. -/
def edgeErrors (query : TopologyQuery F) : List (TopologyError F) :=
  let duplicates := query.edges.eraseDups.filter fun edge => 1 < query.edges.count edge
  (if duplicates ≠ [] then [.duplicateEdges duplicates] else []) ++
  query.edges.flatMap fun edge =>
    (if edge.1 ∉ query.nodes ∨ edge.2 ∉ query.nodes then [.missingEndpoint edge] else []) ++
    (if edge.1 = edge.2 then [.selfLoop edge] else [])

/-- Whether there is a cycle, in the modes in which there must not be one. -/
def cyclic? (order : SetOrder String) (fuel : ℕ) (query : TopologyQuery F) : Option Bool :=
  if query.normalizedMode ∈ [.chain, .parallel, .forest] then hasCycle order fuel query.graph
  else some false

/-- The error about cycles. -/
def cycleErrors (query : TopologyQuery F) (cyclic : Bool) : List (TopologyError F) :=
  if cyclic then [.cycleNotAllowed query.normalizedMode] else []

/-- The errors about sinks that are not reached. -/
def sinkErrors (query : TopologyQuery F) (reached : Finset String) : List (TopologyError F) :=
  (query.resolvedSinks.filter (· ∉ reached)).map .unreachableSink

/-- The errors about failed nodes. -/
def failureErrors (query : TopologyQuery F) : List (TopologyError F) :=
  (query.edges.filter fun edge => edge.1 ∈ query.failedNodes ∨ edge.2 ∈ query.failedNodes).map
    .failedNodeInActiveRoute

/-- The coordinates of a position. -/
def coordinates? (value : Json F) : Option (List F) := do
  (← value.elements?).mapM Json.toFloat?

/-- Whether a node is a vehicle; stations and users are below the corridor. -/
def isDrone (node : String) : Bool := "drone_".toList.isPrefixOf node.toList

/-- The error about the position of a node. -/
def positionErrors (query : TopologyQuery F) (item : String × Json F) : List (TopologyError F) :=
  match coordinates? item.2 with
  | some [x, y, z] =>
      if [x, y, z].all PyFloat.isFinite then
        match query.altitudeBoundsM with
        -- the altitude is a matter of the drones, and not of the station
        | some bounds =>
            if isDrone item.1 ∧ !(PyFloat.le bounds.1 z && PyFloat.le z bounds.2) then
              [.altitudeViolation item.1 z bounds]
            else []
        | none => []
      else [.invalidCoordinate item.1]
  | _ => [.invalidCoordinate item.1]

/-- The error about two nodes that are too close; positions that are no points of one space have no
distance. -/
def separationError? (query : TopologyQuery F) (item other : String × Json F) :
    Option (TopologyError F) := do
  let p ← coordinates? item.2
  let q ← coordinates? other.2
  -- points of different dimensions are not compared
  if p.length ≠ q.length then none
  else
    let distance := PyPoints.distance p q
    if isDrone item.1 ∧ isDrone other.1 ∧ PyFloat.lt distance query.minimumSeparationM then
      some (.minimumSeparationViolation (item.1, other.1) distance query.minimumSeparationM)
    else none

/-- The errors about pairs of nodes. -/
def separationErrors (query : TopologyQuery F) : List (String × Json F) → List (TopologyError F)
  | [] => []
  | item :: rest => rest.filterMap (query.separationError? item) ++ query.separationErrors rest

/-- The errors about the positions. -/
def physicalErrors (query : TopologyQuery F) : List (TopologyError F) :=
  query.positions.entries.flatMap query.positionErrors ++
    query.separationErrors query.positions.entries

/-- The edges that are not feasible, where that is known. -/
def blockedEdges (query : TopologyQuery F) : Option (List (String × String)) :=
  query.linkFeasibility.map fun feasibility =>
    query.edges.filter fun edge => !(feasibility.get? edge).getD false

/-- The warnings. -/
def warnings (query : TopologyQuery F) : List TopologyWarning :=
  let observed := query.normalizedBranches.flatten
  let missing := query.relays.filter (· ∉ observed)
  let shared := (observed.toFinset.filter fun idx => 1 < observed.count idx).sort (· ≤ ·)
  let blocked := query.blockedEdges.getD []
  (if missing ≠ [] then [.unassignedRelays missing] else []) ++
  (if shared ≠ [] ∧ query.normalizedMode = .parallel then [.sharedParallelRelays shared] else []) ++
  (if blocked ≠ [] then [.infeasibleEdges blocked] else [])

end TopologyQuery

/-! ## The verdict -/

/-- The metrics in a report, with the topology that they are about. -/
structure ReportedMetrics (F : Type) extends TopologyMetrics F where
  mode : TopologyMode
  branches : List (List ℤ)
  edges : List (String × String)

/-- A report (`TopologyValidation`). -/
structure TopologyValidation (F : Type) where
  structurallyValid : Bool
  physicallyValid : Bool
  communicationFeasible : Option Bool
  operational : Bool
  errors : List (TopologyError F)
  warnings : List TopologyWarning
  metrics : ReportedMetrics F

/-- Validate a topology (`validate_topology`). -/
def validateTopology (orders : String → SetOrder String) (eigenvalue : SecondEigenvalue F)
    (fuel : ℕ) (query : TopologyQuery F) : Option (TopologyValidation F) := do
  let cyclic ← query.cyclic? (orders "has_cycle") fuel
  let reached ← reachable (orders "reachable") fuel query.graph query.source
  let errors := query.branchErrors ++ query.edgeErrors ++ query.cycleErrors cyclic ++
    query.sinkErrors reached ++ query.failureErrors ++ query.physicalErrors
  let structurallyValid := (errors.filter fun error => error.IsStructural).isEmpty
  let physicallyValid := query.physicalErrors.isEmpty
  let communicationFeasible := query.blockedEdges.map List.isEmpty
  let metrics ← topologyMetrics orders eigenvalue fuel query.nodes query.edges query.source
    query.resolvedSinks
  return {
    structurallyValid
    physicallyValid
    communicationFeasible
    -- no statement about the links counts as feasible here
    operational := structurallyValid && physicallyValid && communicationFeasible != some false
    errors
    warnings := query.warnings
    metrics := { metrics with
      mode := query.normalizedMode, branches := query.normalizedBranches, edges := query.edges } }

/-! ## Exactness -/

open Relation

namespace TopologyQuery

/-- An edge of the topology leads from one node to another. -/
def Edge (query : TopologyQuery F) (u v : String) : Prop := (u, v) ∈ query.edges

/-- A topology that is sound as a graph. A topology of an unsupported mode is read as a
manual one. -/
structure Sound (query : TopologyQuery F) : Prop where
  mode : ∃ mode, query.mode? = some mode
  branch : query.normalizedMode ≠ .manual → ∃ branch ∈ query.normalizedBranches, branch ≠ []
  nodup : query.edges.Nodup
  loopless : ∀ u v, query.Edge u v → u ≠ v
  endpoint : ∀ u v, query.Edge u v → u ∈ query.nodes ∧ v ∈ query.nodes
  acyclic : query.normalizedMode ≠ .manual → ¬∃ a, TransGen query.Edge a a
  reached : ∀ sink ∈ query.resolvedSinks, ReflTransGen query.Edge query.source sink
  working : ∀ u v, query.Edge u v → u ∉ query.failedNodes ∧ v ∉ query.failedNodes

variable (query : TopologyQuery F)

/-- No error about the branches is found. -/
theorem branchErrors_eq_nil : query.branchErrors = [] ↔ (∃ mode, query.mode? = some mode) ∧
    (query.normalizedMode ≠ .manual → ∃ branch ∈ query.normalizedBranches, branch ≠ []) := by
  -- the branches have been sanitized, so none repeats a node
  have hnodup : (query.normalizedBranches.zipIdx.flatMap fun entry =>
      if entry.1.length ≠ entry.1.toFinset.card then
        [TopologyError.duplicateNodeInBranch (F := F) entry.2] else []) = [] := by
    rw [List.flatMap_eq_nil_iff]
    intro entry hentry
    have hbranch := nodup_of_mem_sanitizeBranches (List.fst_mem_of_mem_zipIdx hentry)
    rw [List.toFinset_card_of_nodup hbranch, if_neg (not_not.mpr rfl)]
  have hbranch : (∃ branch ∈ query.normalizedBranches, branch ≠ []) ↔
      query.normalizedBranches ≠ [] := by
    constructor
    · rintro ⟨branch, hmem, -⟩
      exact List.ne_nil_of_mem hmem
    · intro hne
      obtain ⟨branch, hmem⟩ := List.exists_mem_of_ne_nil _ hne
      exact ⟨branch, hmem, ne_nil_of_mem_sanitizeBranches hmem⟩
  rw [branchErrors, hnodup, List.append_nil, List.append_eq_nil_iff, hbranch,
    ← Option.ne_none_iff_exists']
  refine and_congr ?_ ?_
  · split <;> simp_all
  · rw [ite_eq_right_iff]
    simp only [List.cons_ne_nil, imp_false, not_and, not_not, ne_eq]
    tauto

/-- No error about single edges is found. -/
theorem edgeErrors_eq_nil : query.edgeErrors = [] ↔ query.edges.Nodup ∧
    ∀ u v, query.Edge u v → u ≠ v ∧ u ∈ query.nodes ∧ v ∈ query.nodes := by
  -- an edge is reported once, however often it is repeated
  have hduplicates : query.edges.eraseDups.filter (fun edge => 1 < query.edges.count edge) = [] ↔
      query.edges.Nodup := by
    rw [List.filter_eq_nil_iff, List.nodup_iff_count_le_one]
    constructor
    · intro h edge
      by_cases hmem : edge ∈ query.edges
      · have hle := h edge (List.mem_eraseDups.mpr hmem)
        simpa using hle
      · rw [List.count_eq_zero.mpr hmem]
        exact Nat.zero_le 1
    · intro h edge _
      simpa using h edge
  rw [edgeErrors, List.append_eq_nil_iff]
  refine and_congr ?_ ?_
  · rw [← hduplicates]
    split <;> simp_all
  · rw [List.flatMap_eq_nil_iff]
    constructor
    · intro h u v huv
      have hnil := h (u, v) huv
      rw [List.append_eq_nil_iff] at hnil
      obtain ⟨hmissing, hloop⟩ := hnil
      split at hmissing
      · cases hmissing
      · rename_i hends
        split at hloop
        · cases hloop
        · rename_i hne
          rw [not_or, not_not, not_not] at hends
          exact ⟨hne, hends⟩
    · intro h edge hedge
      obtain ⟨hne, hends⟩ := h edge.1 edge.2 hedge
      rw [if_neg hne, if_neg (by rw [not_or, not_not, not_not]; exact hends)]
      rfl

/-- No error about cycles is found. -/
theorem cycleErrors_eq_nil (cyclic : Bool) : query.cycleErrors cyclic = [] ↔ cyclic = false := by
  cases cyclic <;> simp [cycleErrors]

/-- No error about sinks is found. -/
theorem sinkErrors_eq_nil (reached : Finset String) :
    query.sinkErrors reached = [] ↔ ∀ sink ∈ query.resolvedSinks, sink ∈ reached := by
  rw [sinkErrors, List.map_eq_nil_iff, List.filter_eq_nil_iff]
  simp

/-- No error about failed nodes is found. -/
theorem failureErrors_eq_nil : query.failureErrors = [] ↔
    ∀ u v, query.Edge u v → u ∉ query.failedNodes ∧ v ∉ query.failedNodes := by
  rw [failureErrors, List.map_eq_nil_iff, List.filter_eq_nil_iff]
  simp only [Prod.forall, decide_eq_true_eq, not_or]
  rfl

/-! ### Which errors are structural -/

theorem isStructural_of_mem_branchErrors : ∀ error ∈ query.branchErrors, error.IsStructural := by
  intro error herror
  rw [branchErrors, List.mem_append, List.mem_append, List.mem_flatMap] at herror
  rcases herror with (hmode | hempty) | ⟨entry, -, hduplicate⟩
  · split at hmode <;> simp_all [TopologyError.IsStructural, TopologyError.code]
  · split at hempty <;> simp_all [TopologyError.IsStructural, TopologyError.code]
  · split at hduplicate <;> simp_all [TopologyError.IsStructural, TopologyError.code]

theorem isStructural_of_mem_edgeErrors : ∀ error ∈ query.edgeErrors, error.IsStructural := by
  intro error herror
  rw [edgeErrors, List.mem_append, List.mem_flatMap] at herror
  rcases herror with hduplicate | ⟨edge, -, hedge⟩
  · split at hduplicate <;> simp_all [TopologyError.IsStructural, TopologyError.code]
  · rw [List.mem_append] at hedge
    rcases hedge with hmissing | hloop
    · split at hmissing <;> simp_all [TopologyError.IsStructural, TopologyError.code]
    · split at hloop <;> simp_all [TopologyError.IsStructural, TopologyError.code]

theorem isStructural_of_mem_cycleErrors (cyclic : Bool) :
    ∀ error ∈ query.cycleErrors cyclic, error.IsStructural := by
  cases cyclic <;> simp [cycleErrors, TopologyError.IsStructural, TopologyError.code]

theorem isStructural_of_mem_sinkErrors (reached : Finset String) :
    ∀ error ∈ query.sinkErrors reached, error.IsStructural := by
  intro error herror
  obtain ⟨sink, -, rfl⟩ := List.mem_map.mp herror
  simp [TopologyError.IsStructural, TopologyError.code]

theorem isStructural_of_mem_failureErrors : ∀ error ∈ query.failureErrors, error.IsStructural := by
  intro error herror
  obtain ⟨edge, -, rfl⟩ := List.mem_map.mp herror
  simp [TopologyError.IsStructural, TopologyError.code]

/-- An error about a position is not structural. -/
theorem not_isStructural_of_mem_positionErrors {query : TopologyQuery F} {item : String × Json F}
    {error : TopologyError F} (h : error ∈ query.positionErrors item) : ¬error.IsStructural := by
  have hcoordinate : ∀ node, ¬(TopologyError.invalidCoordinate node : TopologyError F).IsStructural :=
    fun _ => by simp [TopologyError.IsStructural, TopologyError.code]
  unfold positionErrors at h
  split at h
  · split at h
    · split at h
      · split at h
        · rw [List.mem_singleton.mp h]
          simp [TopologyError.IsStructural, TopologyError.code]
        · cases h
      · cases h
    · rw [List.mem_singleton.mp h]
      exact hcoordinate _
  · rw [List.mem_singleton.mp h]
    exact hcoordinate _

/-- An error about a distance is not structural. -/
theorem not_isStructural_of_separationError? {query : TopologyQuery F} {item other : String × Json F}
    {error : TopologyError F} (h : query.separationError? item other = some error) :
    ¬error.IsStructural := by
  simp only [separationError?, Option.bind_eq_bind, Option.bind_eq_some_iff] at h
  obtain ⟨p, -, q, -, h⟩ := h
  split at h
  · cases h
  · split at h
    · rw [← Option.some.inj h]
      simp [TopologyError.IsStructural, TopologyError.code]
    · cases h

theorem not_isStructural_of_mem_physicalErrors :
    ∀ error ∈ query.physicalErrors, ¬error.IsStructural := by
  have hseparation : ∀ items, ∀ error ∈ query.separationErrors items, ¬error.IsStructural := by
    intro items
    induction items with
    | nil => exact fun error herror => absurd herror List.not_mem_nil
    | cons item rest ih =>
        intro error herror
        rw [separationErrors, List.mem_append] at herror
        rcases herror with hfirst | hrest
        · obtain ⟨other, -, hother⟩ := List.mem_filterMap.mp hfirst
          exact not_isStructural_of_separationError? hother
        · exact ih error hrest
  intro error herror
  rw [physicalErrors, List.mem_append, List.mem_flatMap] at herror
  rcases herror with ⟨item, -, hitem⟩ | hpair
  · exact not_isStructural_of_mem_positionErrors hitem
  · exact hseparation _ _ hpair

/-- No structural error is found exactly if none of the checks of the graph finds one. -/
theorem filter_isStructural_eq_nil (cyclic : Bool) (reached : Finset String) :
    ((query.branchErrors ++ query.edgeErrors ++ query.cycleErrors cyclic ++
      query.sinkErrors reached ++ query.failureErrors ++ query.physicalErrors).filter fun error =>
        error.IsStructural) = [] ↔
      query.branchErrors = [] ∧ query.edgeErrors = [] ∧ query.cycleErrors cyclic = [] ∧
        query.sinkErrors reached = [] ∧ query.failureErrors = [] := by
  have hkeep : ∀ {errors : List (TopologyError F)}, (∀ error ∈ errors, error.IsStructural) →
      (errors.filter fun error => error.IsStructural) = errors := fun h =>
    List.filter_eq_self.mpr fun error herror => decide_eq_true (h error herror)
  have hphysical : (query.physicalErrors.filter fun error => error.IsStructural) = [] :=
    List.filter_eq_nil_iff.mpr fun error herror hdecide =>
      not_isStructural_of_mem_physicalErrors query error herror (of_decide_eq_true hdecide)
  simp only [List.filter_append, hkeep (isStructural_of_mem_branchErrors query),
    hkeep (isStructural_of_mem_edgeErrors query), hkeep (isStructural_of_mem_cycleErrors query cyclic),
    hkeep (isStructural_of_mem_sinkErrors query reached),
    hkeep (isStructural_of_mem_failureErrors query), hphysical, List.append_eq_nil_iff, and_assoc,
    and_true]

/-- The graph of a topology has the edges of the topology. -/
theorem adj_graph : query.graph.Adj = query.Edge := by
  ext u v
  rw [graph, adj_adjacency]
  simp [Edge]

/-- The validator finds out about forbidden cycles. -/
theorem cyclic?_spec (order : SetOrder String) : ∀ᶠ fuel in Filter.atTop, ∃ cyclic,
    query.cyclic? order fuel = some cyclic ∧
      (cyclic = false ↔ (query.normalizedMode ≠ .manual → ¬∃ a, TransGen query.Edge a a)) := by
  refine (hasCycle_spec order query.graph).mono fun fuel ⟨found, hfound, hcycle⟩ => ?_
  rw [HasCycle, adj_graph] at hcycle
  rw [cyclic?]
  by_cases hmanual : query.normalizedMode = .manual
  · rw [if_neg (by rw [hmanual]; decide)]
    exact ⟨false, rfl, fun _ h => absurd hmanual h, fun _ => rfl⟩
  · have hmode : query.normalizedMode ∈ [.chain, .parallel, .forest] := by
      cases hnormalized : query.normalizedMode <;> simp_all
    rw [if_pos hmode, hfound]
    refine ⟨found, rfl, ?_⟩
    rw [← hcycle]
    cases found <;> simp [hmanual]

end TopologyQuery

/-- For sinks other than the source the validator ends, and finds a topology structurally valid if
and only if it is sound as a graph. -/
theorem validateTopology_report (orders : String → SetOrder String)
    (eigenvalue : SecondEigenvalue F) {query : TopologyQuery F}
    (hsinks : query.source ∉ query.resolvedSinks) : ∀ᶠ fuel in Filter.atTop, ∃ report,
      validateTopology orders eigenvalue fuel query = some report ∧
        (report.structurallyValid = true ↔ query.Sound) := by
  filter_upwards [query.cyclic?_spec (orders "has_cycle"),
    reachable_spec (orders "reachable") query.graph query.source,
    topologyMetrics_isSome orders eigenvalue query.nodes query.edges hsinks]
    with fuel ⟨cyclic, hcyclic, hacyclic⟩ ⟨seen, hseen, hreached⟩ ⟨metrics, hmetrics⟩
  refine ⟨_, by rw [validateTopology, hcyclic, hseen, hmetrics]; rfl, ?_⟩
  rw [TopologyQuery.adj_graph] at hreached
  rw [List.isEmpty_iff, TopologyQuery.filter_isStructural_eq_nil, query.branchErrors_eq_nil,
    query.edgeErrors_eq_nil, query.cycleErrors_eq_nil, query.sinkErrors_eq_nil,
    query.failureErrors_eq_nil]
  simp only [hacyclic, hreached]
  constructor
  · rintro ⟨⟨hsupported, hbranch⟩, ⟨hnodup, hedge⟩, hacyclic, hsink, hworking⟩
    exact ⟨hsupported, hbranch, hnodup, fun u v huv => (hedge u v huv).1,
      fun u v huv => (hedge u v huv).2, hacyclic, hsink, hworking⟩
  · intro h
    exact ⟨⟨h.mode, h.branch⟩, ⟨h.nodup, fun u v huv => ⟨h.loopless u v huv, h.endpoint u v huv⟩⟩,
      h.acyclic, h.reached, h.working⟩

/-- Whatever the order of sets and the eigenvalues, for sinks other than the source
`validate_topology` ends, and finds a topology structurally valid if and only if it is sound as a
graph. In particular `has_cycle` decides whether there is a directed cycle, and `reachable` returns
the nodes that can be reached. -/
theorem validateTopology_exact (orders : String → SetOrder String) (eigenvalue : SecondEigenvalue F)
    {query : TopologyQuery F} (hsinks : query.source ∉ query.resolvedSinks) :
    (∀ᶠ fuel in Filter.atTop, ∃ report,
      validateTopology orders eigenvalue fuel query = some report ∧
        (report.structurallyValid = true ↔ query.Sound)) ∧
    (∀ (order : SetOrder String) (graph : Graph String), ∀ᶠ fuel in Filter.atTop, ∃ found,
      hasCycle order fuel graph = some found ∧ (found = true ↔ ∃ a, TransGen graph.Adj a a)) ∧
    ∀ (order : SetOrder String) (graph : Graph String) (source : String), ∀ᶠ fuel in Filter.atTop,
      ∃ seen, reachable order fuel graph source = some seen ∧
        ∀ a, a ∈ seen ↔ ReflTransGen graph.Adj source a :=
  ⟨validateTopology_report orders eigenvalue hsinks, hasCycle_spec, reachable_spec⟩

/-- A chain of two relays. -/
def chainOfTwo : TopologyQuery ℚ :=
  { mode := "chain", relayCount := 2, branches := .arr [.arr [.int 1, .int 2]] }

/-- The validator is exact about a chain of two relays. -/
theorem validateTopology_exact_chainOfTwo :
    (∀ᶠ fuel in Filter.atTop, ∃ report,
      validateTopology (fun _ => .sorted) (fun _ _ _ => some 0) fuel chainOfTwo = some report ∧
        (report.structurallyValid = true ↔ chainOfTwo.Sound)) ∧
    (∀ (order : SetOrder String) (graph : Graph String), ∀ᶠ fuel in Filter.atTop, ∃ found,
      hasCycle order fuel graph = some found ∧ (found = true ↔ ∃ a, TransGen graph.Adj a a)) ∧
    ∀ (order : SetOrder String) (graph : Graph String) (source : String), ∀ᶠ fuel in Filter.atTop,
      ∃ seen, reachable order fuel graph source = some seen ∧
        ∀ a, a ∈ seen ↔ ReflTransGen graph.Adj source a :=
  validateTopology_exact _ _ (by decide +kernel)

end Netlab
