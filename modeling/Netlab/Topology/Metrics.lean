import Mathlib.Data.Prod.Lex
import Mathlib.Data.String.Basic
import Netlab.Topology.Centrality
import Netlab.Topology.DisjointPaths
import Netlab.Topology.Search

/-!
# Metrics of a topology

`topology_metrics` runs all searches on a list of nodes and edges. Each of them ends, for every list
of nodes and edges and whatever the order of sets, apart from the flow to a sink that is the source
itself: there the search for an augmenting path is at its end from the start, nothing lowers a
residual capacity, and the loop goes on for ever (`topologyMetrics_terminates_iff`). The eigenvalues
come from a numerical library and are a parameter.
-/

namespace Netlab

variable {F : Type} [PyFloat F]

/-- The metrics of a topology. -/
structure TopologyMetrics (F : Type) where
  nodeCount : ℕ
  edgeCount : ℕ
  connectedComponents : ℕ
  componentSizes : List ℕ
  averageDegree : F
  maxDegree : ℕ
  networkDiameterHops : Option ℕ
  averageSourceSinkHops : Option F
  sourceSinkPaths : Dict String (Option (List String))
  articulationPoints : List String
  bridgeEdges : List (String × String)
  edgeDensity : F
  nodeBetweenness : Dict String F
  nodeBetweennessMethod : String
  nodeBetweennessSourceSamples : ℕ
  algebraicConnectivity : Option F
  algebraicConnectivityMethod : String
  edgeDisjointPaths : Dict String ℤ
  nodeDisjointPaths : Dict String ℤ
  pathDiversity : Dict String ℕ
  kConnectivityEstimate : ℤ
  redundancyLevel : ℕ
  resilienceScore : F
  resilienceScoreDefinition : String

/-- The second eigenvalue of the Laplacian of a graph on the nodes `0, .., size - 1`, from a solver
for sparse or for dense matrices; none if the solver fails. -/
abbrev SecondEigenvalue (F : Type) := Bool → ℕ → Finset (ℕ × ℕ) → Option F

/-- How well connected the undirected graph is (`_algebraic_connectivity`). -/
def algebraicConnectivity (eigenvalue : SecondEigenvalue F) (nodes : List String)
    (edges : List (String × String)) : Option F :=
  if nodes.length < 2 then some 0.0
  else
    let index := Dict.ofList nodes.zipIdx
    let uniqueEdges := (edges.filterMap fun edge => do
      let pair := sortedPair edge.1 edge.2
      if edge.1 ≠ edge.2 then return (← index.get? pair.1, ← index.get? pair.2) else none).toFinset
    (eigenvalue (64 ≤ nodes.length) nodes.length uniqueEdges).map (PyFloat.max 0.0)

/-- How the connectivity was computed. -/
def algebraicConnectivityMethod (nodes : List String) (algebraic : Option F) : String :=
  if 64 ≤ nodes.length ∧ algebraic.isSome then "sparse_eigsh"
  else if algebraic.isSome then "dense_eigvalsh"
  else "unavailable"

/-- Count both ends of an edge. -/
def countDegrees (degrees : Dict String ℕ) (edge : String × String) : Dict String ℕ :=
  let degrees := degrees.set edge.1 ((degrees.get? edge.1).getD 0 + 1)
  degrees.set edge.2 ((degrees.get? edge.2).getD 0 + 1)

/-- A table over the sinks. -/
def forSinks {β : Type} (sinks : List String) (f : String → Option β) : Option (Dict String β) :=
  (sinks.mapM fun sink => (f sink).map fun value => (sink, value)).map Dict.ofList

/-- A part of the resilience score: the more spots there are where one failure disconnects the
graph, the less. -/
def withoutSpots (spots : ℕ) : F :=
  if spots = 0 then 1.0 else PyFloat.quotient 1.0 (1.0 + PyFloat.ofCount spots)

/-- The heuristic resilience score. The counts are not negative. -/
def resilienceScore (kConnectivity : ℤ) (redundancy articulation bridges : ℕ) : F :=
  PyFloat.max 0.0 (PyFloat.min 100.0 (100.0 * (
    0.35 * PyFloat.min 1.0 (PyFloat.quotient (PyFloat.ofCount kConnectivity.toNat) 2.0)
    + 0.25 * PyFloat.min 1.0 (PyFloat.quotient (PyFloat.ofCount redundancy) 2.0)
    + 0.20 * withoutSpots articulation
    + 0.20 * withoutSpots bridges)))

/-- The edges between nodes of the list. -/
def validEdges (nodes : List String) (edges : List (String × String)) : List (String × String) :=
  edges.filter fun edge => edge.1 ∈ nodes ∧ edge.2 ∈ nodes

/-- The metrics of nodes and edges, from a source to sinks (`topology_metrics`). `orders` gives for
each search the order of sets. -/
def topologyMetrics (orders : String → SetOrder String) (eigenvalue : SecondEigenvalue F)
    (fuel : ℕ) (nodes : List String) (edges : List (String × String)) (source : String)
    (sinks : List String) : Option (TopologyMetrics F) := do
  let edges := validEdges nodes edges
  let graph := adjacency nodes edges true
  let degrees := edges.foldl countDegrees .empty
  let paths ← forSinks sinks (shortestPath (orders "shortest_path") fuel graph source)
  let pathLengths := paths.values.filterMap fun path => path.map fun path => path.length - 1
  -- paths follow the direction of the edges, and the rest ignores it
  let components ← connectedComponents (orders "connected_components") fuel nodes edges
  let articulation ← articulationPoints (orders "articulation_points") fuel nodes edges
  let bridges ← bridgeEdges (orders "bridge_edges") fuel nodes edges
  let edgeDisjoint ← forSinks sinks (edgeDisjointCount fuel edges source)
  let nodeDisjoint ← forSinks sinks (nodeDisjointCount fuel nodes edges source)
  let pathDiversity ← forSinks sinks fun sink =>
    simplePathCount (orders "simple_path_count") fuel graph source sink 1000
  let betweenness ← brandesBetweenness (orders "brandes_betweenness") fuel nodes edges 256 128
  let algebraic := algebraicConnectivity eigenvalue nodes edges
  -- over all sinks together, and zero without any
  let kConnectivity := (edgeDisjoint.values ++ nodeDisjoint.values).min?.getD 0
  let redundancy := pathDiversity.values.min?.getD 0
  let diameter ← allPairsDiameter (orders "all_pairs_diameter") fuel nodes edges
  return {
    nodeCount := nodes.length
    edgeCount := edges.length
    connectedComponents := components.length
    componentSizes := (components.map Finset.card).mergeSort (fun m n => n ≤ m)
    averageDegree := if nodes = [] then 0.0
      else PyFloat.quotient (PyFloat.ofCount degrees.values.sum) (PyFloat.ofCount nodes.length)
    maxDegree := degrees.values.max?.getD 0
    networkDiameterHops := diameter
    averageSourceSinkHops := if pathLengths = [] then none
      else some (PyFloat.quotient (PyFloat.ofCount pathLengths.sum)
        (PyFloat.ofCount pathLengths.length))
    sourceSinkPaths := paths
    articulationPoints := articulation.sort (· ≤ ·)
    bridgeEdges := ((bridges.image toLex).sort (· ≤ ·)).map ofLex
    edgeDensity := PyFloat.quotient (PyFloat.ofCount edges.length)
      (PyFloat.ofCount (max 1 (nodes.length * max 1 (nodes.length - 1))))
    nodeBetweenness := betweenness.1
    nodeBetweennessMethod := betweenness.2.1
    nodeBetweennessSourceSamples := betweenness.2.2
    algebraicConnectivity := algebraic
    algebraicConnectivityMethod := algebraicConnectivityMethod nodes algebraic
    edgeDisjointPaths := edgeDisjoint
    nodeDisjointPaths := nodeDisjoint
    pathDiversity
    kConnectivityEstimate := kConnectivity
    redundancyLevel := redundancy
    resilienceScore := resilienceScore kConnectivity redundancy articulation.card bridges.card
    resilienceScoreDefinition :=
      "Transparent heuristic; use raw graph metrics for publication-grade analysis." }

/-! ## Which runs end -/

/-- The edges that count join nodes of the list. -/
theorem mem_nodes_of_mem_validEdges {nodes : List String} {edges : List (String × String)} :
    ∀ edge ∈ validEdges nodes edges, edge.1 ∈ nodes ∧ edge.2 ∈ nodes := by
  intro edge hedge
  simpa using (List.mem_filter.mp hedge).2

/-- A table over the sinks is complete if there is a value for each of them. -/
theorem exists_forSinks_eq_some {β : Type} {sinks : List String} {f : String → Option β}
    (h : ∀ sink ∈ sinks, ∃ value, f sink = some value) : ∃ table, forSinks sinks f = some table := by
  obtain ⟨entries, hentries⟩ := List.exists_mapM_eq_some_iff.mpr
    (show ∀ sink ∈ sinks, ∃ entry, (f sink).map (fun value => (sink, value)) = some entry from
      fun sink hsink => (h sink hsink).imp' (fun value => (sink, value)) fun _ hf => by rw [hf]; rfl)
  exact ⟨.ofList entries, by rw [forSinks, hentries]; rfl⟩

/-- There is no table over the sinks if there is no value for one of them. -/
theorem forSinks_eq_none {β : Type} {sinks : List String} {f : String → Option β} {sink : String}
    (hsink : sink ∈ sinks) (h : f sink = none) : forSinks sinks f = none := by
  rw [forSinks, Option.map_eq_none_iff, ← Option.not_isSome_iff_eq_none, Option.isSome_iff_exists,
    List.exists_mapM_eq_some_iff]
  intro hall
  obtain ⟨entry, hentry⟩ := hall sink hsink
  rw [h] at hentry
  cases hentry

/-- Searches that end for every sink end for all of them. -/
theorem eventually_forSinks {β : Type} {f : ℕ → String → Option β} {sinks : List String}
    (h : ∀ sink ∈ sinks, ∀ᶠ fuel in Filter.atTop, ∃ value, f fuel sink = some value) :
    ∀ᶠ fuel in Filter.atTop, ∃ table, forSinks sinks (f fuel) = some table :=
  ((Filter.eventually_all_finite sinks.finite_toSet).mpr h).mono fun _ hall =>
    exists_forSinks_eq_some hall

/-- Without the source among the sinks, `topology_metrics` ends. -/
theorem topologyMetrics_isSome (orders : String → SetOrder String)
    (eigenvalue : SecondEigenvalue F) (nodes : List String) (edges : List (String × String))
    {source : String} {sinks : List String} (hsinks : source ∉ sinks) :
    ∀ᶠ fuel in Filter.atTop, ∃ metrics,
      topologyMetrics orders eigenvalue fuel nodes edges source sinks = some metrics := by
  have hne : ∀ sink ∈ sinks, source ≠ sink := fun sink hsink heq => hsinks (heq ▸ hsink)
  have hvalid := @mem_nodes_of_mem_validEdges nodes edges
  have hpaths := eventually_forSinks fun sink (_ : sink ∈ sinks) => shortestPath_isSome
    (orders "shortest_path") (adjacency nodes (validEdges nodes edges) true) source sink
  have hedge := eventually_forSinks fun sink (hsink : sink ∈ sinks) =>
    (edgeDisjointCount_spec (validEdges nodes edges) (hne sink hsink)).mono
      fun _ h => h.imp' Int.ofNat fun _ h => h.1
  have hnode := eventually_forSinks fun sink (hsink : sink ∈ sinks) =>
    (nodeDisjointCount_spec (hne sink hsink) hvalid).mono fun _ h => h.imp' Int.ofNat fun _ h => h.1
  have hdiversity := eventually_forSinks fun sink (_ : sink ∈ sinks) => simplePathCount_isSome
    (orders "simple_path_count") (adjacency nodes (validEdges nodes edges) true) source sink 1000
  -- with enough fuel for the longest of the nine loops
  filter_upwards [hpaths, hedge, hnode, hdiversity,
    connectedComponents_isSome (orders "connected_components") nodes (validEdges nodes edges),
    articulationPoints_isSome (orders "articulation_points") nodes (validEdges nodes edges),
    bridgeEdges_isSome (orders "bridge_edges") nodes (validEdges nodes edges),
    @brandesBetweenness_isSome _ _ F _ (orders "brandes_betweenness") _ _ hvalid 256 128,
    allPairsDiameter_isSome (orders "all_pairs_diameter") nodes (validEdges nodes edges)]
    with fuel ⟨paths, hpaths⟩ ⟨edgeDisjoint, hedge⟩ ⟨nodeDisjoint, hnode⟩ ⟨diversity, hdiversity⟩
      ⟨components, hcomponents⟩ ⟨points, hpoints⟩ ⟨bridges, hbridges⟩ ⟨betweenness, hbetweenness⟩
      ⟨diameter, hdiameter⟩
  simp only [topologyMetrics, hpaths, hedge, hnode, hdiversity, hcomponents, hpoints, hbridges,
    hbetweenness, hdiameter, Option.bind_eq_bind, Option.bind_some, Option.pure_def,
    Option.some.injEq, exists_eq']

/-- With the source among the sinks, it does not end. -/
theorem topologyMetrics_eq_none (orders : String → SetOrder String)
    (eigenvalue : SecondEigenvalue F) (nodes : List String) (edges : List (String × String))
    {source : String} {sinks : List String} (hsink : source ∈ sinks) (fuel : ℕ) :
    topologyMetrics orders eigenvalue fuel nodes edges source sinks = none := by
  have hedge : forSinks sinks (edgeDisjointCount fuel (validEdges nodes edges) source) = none :=
    forSinks_eq_none hsink (maxFlow_self fuel _ source)
  simp only [topologyMetrics, hedge, Option.bind_eq_bind, Option.bind_none, Option.bind_fun_none]

/-- `topology_metrics`, and the two counts of disjoint paths in it, end exactly if the source is
none of the sinks; otherwise no number of passes is enough. -/
theorem topologyMetrics_terminates_iff (orders : String → SetOrder String)
    (eigenvalue : SecondEigenvalue F) (nodes : List String) (edges : List (String × String))
    (source : String) (sinks : List String) :
    ((∀ᶠ fuel in Filter.atTop, ∃ metrics,
      topologyMetrics orders eigenvalue fuel nodes edges source sinks = some metrics) ↔
        source ∉ sinks) ∧
    ((∃ fuel metrics,
      topologyMetrics orders eigenvalue fuel nodes edges source sinks = some metrics) ↔
        source ∉ sinks) ∧
    ((∀ sink ∈ sinks,
      (∀ᶠ fuel in Filter.atTop, ∃ count,
        edgeDisjointCount fuel (validEdges nodes edges) source sink = some count) ∧
      ∀ᶠ fuel in Filter.atTop, ∃ count,
        nodeDisjointCount fuel nodes (validEdges nodes edges) source sink = some count) ↔
        source ∉ sinks) := by
  have hends := @topologyMetrics_isSome F _ orders eigenvalue nodes edges source sinks
  have hnever : ∀ fuel metrics, topologyMetrics orders eigenvalue fuel nodes edges source sinks =
      some metrics → source ∉ sinks := by
    intro fuel metrics hsome hsink
    rw [topologyMetrics_eq_none orders eigenvalue nodes edges hsink fuel] at hsome
    cases hsome
  refine ⟨⟨fun hall => ?_, hends⟩, ⟨fun ⟨fuel, metrics, h⟩ => hnever fuel metrics h, fun h => ?_⟩,
    fun hall hsink => ?_, fun h sink hsink => ?_⟩
  · obtain ⟨fuel, metrics, h⟩ := hall.exists
    exact hnever fuel metrics h
  · exact (hends h).exists
  · -- the flow from a node to itself never gets to its end
    obtain ⟨fuel, count, hcount⟩ := (hall source hsink).1.exists
    rw [edgeDisjointCount, maxFlow_self] at hcount
    cases hcount
  · have hne : source ≠ sink := fun heq => h (heq ▸ hsink)
    exact ⟨(edgeDisjointCount_spec (validEdges nodes edges) hne).mono
        fun _ h => h.imp' Int.ofNat fun _ h => h.1,
      (nodeDisjointCount_spec hne mem_nodes_of_mem_validEdges).mono
        fun _ h => h.imp' Int.ofNat fun _ h => h.1⟩

/-- One relay, and the station as its own sink. -/
theorem topologyMetrics_station_loops : ¬∃ fuel metrics, @topologyMetrics ℚ _ (fun _ => .sorted)
    (fun _ _ _ => some 0) fuel ["station", "drone_1"] [("station", "drone_1")] "station" ["station"] =
      some metrics := by
  rintro ⟨fuel, metrics, h⟩
  rw [topologyMetrics_eq_none _ _ _ _ (by simp) fuel] at h
  cases h

end Netlab
