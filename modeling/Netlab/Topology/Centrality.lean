import Netlab.Prelude.Builtins
import Netlab.Prelude.Traverse
import Netlab.Topology.Lowpoint

/-!
# Distances and betweenness

`_all_pairs_diameter` and `_brandes_betweenness` search the undirected graph breadth first, from
every node or, for betweenness in large graphs, from a sample of them. What they look up in their
tables is there as long as the edges join nodes of the list.
-/

namespace PyFloat

/-- `x / y` of a divisor that is not zero, which does not raise. -/
def quotient {F : Type} [PyFloat F] (x y : F) : F := (div x y).getD 0.0

end PyFloat

namespace Netlab

variable {α : Type} [DecidableEq α]

/-! ## Diameter -/

/-- The state of a search for the farthest node: the queue, in which each node comes with its
distance, the nodes seen, and the farthest node so far. -/
structure FarthestSearch (α : Type) where
  queue : List (α × ℕ)
  seen : Finset α
  farNode : α
  farDistance : ℕ

/-- Queue a node that has not been seen. -/
def FarthestSearch.reach (distance : ℕ) (state : FarthestSearch α) (nxt : α) : FarthestSearch α :=
  if nxt ∈ state.seen then state
  else { state with
    queue := state.queue ++ [(nxt, distance + 1)], seen := insert nxt state.seen }

/-- One node of the search. -/
def farthestStep (order : SetOrder α) (graph : Graph α) (state : FarthestSearch α) :
    FarthestSearch α ⊕ (α × ℕ × ℕ) :=
  match state.queue with
  | [] => .inr (state.farNode, state.farDistance, state.seen.card)
  | (node, distance) :: queue =>
      let state := if state.farDistance < distance then
          { state with queue, farNode := node, farDistance := distance }
        else { state with queue }
      .inl ((order.list [node] (graph.successors node)).foldl (FarthestSearch.reach distance) state)

/-- The farthest node from `start`, its distance, and how many nodes are reached (`farthest`). -/
def farthest (order : SetOrder α) (fuel : ℕ) (graph : Graph α) (start : α) :
    Option (α × ℕ × ℕ) :=
  Loop.run (fun state => some (farthestStep order graph state)) fuel
    { queue := [(start, 0)], seen := {start}, farNode := start, farDistance := 0 }

/-- The largest distance from the given sources; none if one of them does not reach every node. -/
def largestDistance (order : SetOrder α) (fuel : ℕ) (graph : Graph α) (size : ℕ) :
    List α → ℕ → Option (Option ℕ)
  | [], diameter => some (some diameter)
  | source :: rest, diameter => do
      let (_, distance, reached) ← farthest (order.within source) fuel graph source
      if reached ≠ size then return none
      else largestDistance order fuel graph size rest (max diameter distance)

/-- The diameter of the undirected graph; none if it is not connected (`_all_pairs_diameter`). -/
def allPairsDiameter [LE α] [DecidableLE α] (order : SetOrder α) (fuel : ℕ) (nodes : List α)
    (edges : List (α × α)) : Option (Option ℕ) :=
  let graph := adjacency nodes edges false
  match nodes with
  | [] => some (some 0)
  | start :: _ => do
      let undirectedEdges := ((edges.filter fun edge => edge.1 ≠ edge.2).map fun edge =>
        sortedPair edge.1 edge.2).toFinset
      let (first, _, reached) ← farthest (order.within start) fuel graph start
      -- without connection there is no diameter, and on a tree a second sweep finds it
      if reached ≠ nodes.length then return none
      else if undirectedEdges.card = nodes.length - 1 then do
        let (_, diameter, _) ← farthest (order.within first) fuel graph first
        return some diameter
      else largestDistance order fuel graph nodes.length nodes 0

/-! ## Betweenness -/

/-- `round(a / b)` of two counts, with ties to the even neighbour. -/
def roundedQuotient (a b : ℕ) : ℕ :=
  if 2 * (a % b) < b then a / b
  else if b < 2 * (a % b) then a / b + 1
  else a / b + a / b % 2

/-- The sources from which betweenness is computed, and the name of the method. -/
def brandesSources (nodes : List α) (maxExactNodes sampleSources : ℕ) :
    Option (List α × String) :=
  if maxExactNodes < nodes.length ∧ sampleSources < nodes.length then do
    let count := max 2 (min sampleSources nodes.length)
    let indices := ((List.range count).map fun i =>
      roundedQuotient (i * (nodes.length - 1)) (count - 1)).toFinset
    let sources ← (indices.sort (· ≤ ·)).mapM fun index => nodes[index]?
    return (sources, "deterministic_sampled_brandes")
  else some (nodes, "exact_brandes")

variable {F : Type} [PyFloat F]

/-- The state of a search from one source: the nodes in the order in which they were taken from the
queue, and for each node the nodes before it on shortest paths, the number of these paths, and its
distance, which is negative until it is reached. -/
structure BrandesSearch (α F : Type) where
  stack : List α
  predecessors : Dict α (List α)
  sigma : Dict α F
  distance : Dict α ℤ
  queue : List α

/-- Look from a node at a node next to it. -/
def BrandesSearch.relax (node : α) (state : BrandesSearch α F) (nxt : α) :
    Option (BrandesSearch α F) := do
  let ahead := (← state.distance.get? node) + 1
  let state := if (← state.distance.get? nxt) < 0 then
      { state with queue := state.queue ++ [nxt], distance := state.distance.set nxt ahead }
    else state
  -- read again: the node may have got its distance just now
  if (← state.distance.get? nxt) = ahead then
    return { state with
      sigma := state.sigma.set nxt ((← state.sigma.get? nxt) + (← state.sigma.get? node))
      predecessors := state.predecessors.set nxt ((← state.predecessors.get? nxt) ++ [node]) }
  else return state

/-- One node of the search. -/
def brandesStep (order : SetOrder α) (graph : Graph α) (state : BrandesSearch α F) :
    Option (BrandesSearch α F ⊕ BrandesSearch α F) :=
  match state.queue with
  | [] => some (.inr state)
  | node :: queue => do
      let state ← (order.list [node] (graph.successors node)).foldlM (BrandesSearch.relax node)
        { state with stack := state.stack ++ [node], queue }
      return .inl state

/-- A table with one value for all nodes. -/
def tableOf {β : Type} (nodes : List α) (value : β) : Dict α β :=
  .ofList (nodes.map fun node => (node, value))

/-- Search from one source. -/
def brandesSearch (order : SetOrder α) (fuel : ℕ) (graph : Graph α) (nodes : List α)
    (source : α) : Option (BrandesSearch α F) :=
  Loop.run (brandesStep order graph) fuel {
    stack := []
    predecessors := tableOf nodes []
    sigma := (tableOf nodes 0.0).set source 1.0
    distance := (tableOf nodes (-1)).set source 0
    queue := [source] }

/-- Pass the dependency of a node on to a node before it. -/
def passDependency (search : BrandesSearch α F) (node : α) (dependency : Dict α F)
    (previous : α) : Option (Dict α F) := do
  let sigma ← search.sigma.get? node
  if PyFloat.lt 0.0 sigma then
    let share := PyFloat.quotient (← search.sigma.get? previous) sigma
    return dependency.set previous
      ((← dependency.get? previous) + share * (1.0 + (← dependency.get? node)))
  else return dependency

/-- Take a node off the stack: the state holds the dependencies and the centrality. -/
def accumulate (search : BrandesSearch α F) (source : α) (state : Dict α F × Dict α F)
    (node : α) : Option (Dict α F × Dict α F) := do
  let dependency ← (← search.predecessors.get? node).foldlM (passDependency search node) state.1
  if node ≠ source then
    return (dependency, state.2.set node ((← state.2.get? node) + (← dependency.get? node)))
  else return (dependency, state.2)

/-- Add to the centrality what the shortest paths from one source contribute. -/
def addSource (order : SetOrder α) (fuel : ℕ) (graph : Graph α) (nodes : List α)
    (centrality : Dict α F) (source : α) : Option (Dict α F) := do
  let search ← brandesSearch (order.within source) fuel graph nodes source
  let (_, centrality) ← search.stack.reverse.foldlM (accumulate search source)
    (tableOf nodes 0.0, centrality)
  return centrality

/-- What betweenness is scaled with. -/
def brandesScale (size samples : ℕ) : F :=
  let sampleCorrection : F :=
    if samples = 0 then 1.0 else PyFloat.quotient (PyFloat.ofCount size) (PyFloat.ofCount samples)
  let scale := 0.5 * sampleCorrection
  if 2 < size then
    PyFloat.quotient scale (PyFloat.quotient (PyFloat.ofCount ((size - 1) * (size - 2))) 2.0)
  else scale

/-- The betweenness of the nodes, how it was computed, and from how many sources
(`_brandes_betweenness`). -/
def brandesBetweenness (order : SetOrder α) (fuel : ℕ) (nodes : List α) (edges : List (α × α))
    (maxExactNodes sampleSources : ℕ) : Option (Dict α F × String × ℕ) := do
  let graph := adjacency nodes edges false
  let (sources, method) ← brandesSources nodes maxExactNodes sampleSources
  let centrality ← sources.foldlM (addSource order fuel graph nodes) (tableOf nodes 0.0)
  let scale := brandesScale nodes.length sources.length
  return (centrality.map fun _ value => value * scale, method, sources.length)

/-! ## The searches end -/

section

omit [PyFloat F]

/-- Queueing nodes takes as many off the nodes that have not been seen. -/
theorem card_add_length_reach {nodes : Finset α} {distance : ℕ} {successors : List α}
    (hsuccessors : ∀ a ∈ successors, a ∈ nodes) (state : FarthestSearch α) :
    let state' := successors.foldl (FarthestSearch.reach distance) state
    (nodes \ state'.seen).card + state'.queue.length =
      (nodes \ state.seen).card + state.queue.length := by
  induction successors generalizing state with
  | nil => rfl
  | cons nxt rest ih =>
      dsimp only
      rw [List.foldl_cons]
      refine (ih (fun a ha => hsuccessors a (List.mem_cons_of_mem _ ha)) _).trans ?_
      rw [FarthestSearch.reach]
      by_cases hseen : nxt ∈ state.seen
      · rw [if_pos hseen]
      · rw [if_neg hseen]
        have hcard := Finset.card_erase_add_one
          (Finset.mem_sdiff.mpr ⟨hsuccessors nxt List.mem_cons_self, hseen⟩)
        simp only [List.length_append, Finset.sdiff_insert, List.length_singleton]
        omega

/-- `farthest` ends, from wherever it starts. -/
theorem farthest_isSome (graph : Graph α) : ∀ᶠ fuel in Filter.atTop,
    ∀ (order : SetOrder α) (start : α), ∃ far, farthest order fuel graph start = some far := by
  refine (Filter.eventually_gt_atTop (graph.nodes.card + 1)).mono fun fuel hfuel order start => ?_
  let measure (state : FarthestSearch α) : ℕ :=
    (graph.nodes \ state.seen).card + state.queue.length
  have hfuel : measure ⟨[(start, 0)], {start}, start, 0⟩ < fuel :=
    lt_of_le_of_lt (Nat.add_le_add_right (Finset.card_le_card Finset.sdiff_subset) 1) hfuel
  refine Loop.exists_run_eq_some (fun _ => True) measure ?_ trivial hfuel
  rintro ⟨queue, seen, farNode, farDistance⟩ -
  cases queue with
  | nil => exact Or.inl ⟨_, rfl⟩
  | cons entry queue =>
      obtain ⟨node, distance⟩ := entry
      refine Or.inr ⟨_, rfl, trivial, ?_⟩
      have hbehind : ∀ a ∈ order.list [node] (graph.successors node), a ∈ graph.nodes := fun a ha =>
        Dict.successors_subset_nodes graph node ((order.mem_list _ _ _).mp ha)
      refine lt_of_eq_of_lt (card_add_length_reach hbehind _) ?_
      dsimp only [measure]
      split <;> simp

/-- The loop over the sources ends. -/
theorem largestDistance_isSome {fuel : ℕ} {graph : Graph α}
    (h : ∀ (order : SetOrder α) (start : α), ∃ far, farthest order fuel graph start = some far)
    (order : SetOrder α) (size : ℕ) (sources : List α) (diameter : ℕ) :
    ∃ largest, largestDistance order fuel graph size sources diameter = some largest := by
  induction sources generalizing diameter with
  | nil => exact ⟨some diameter, rfl⟩
  | cons source rest ih =>
      obtain ⟨⟨farNode, distance, reached⟩, hfar⟩ := h (order.within source) source
      rw [largestDistance, hfar]
      simp only [Option.bind_eq_bind, Option.bind_some]
      split
      · exact ⟨none, rfl⟩
      · exact ih _

/-- `_all_pairs_diameter` ends. -/
theorem allPairsDiameter_isSome [LE α] [DecidableLE α] (order : SetOrder α) (nodes : List α)
    (edges : List (α × α)) : ∀ᶠ fuel in Filter.atTop, ∃ diameter,
      allPairsDiameter order fuel nodes edges = some diameter := by
  refine (farthest_isSome (adjacency nodes edges false)).mono fun fuel hfarthest => ?_
  cases nodes with
  | nil => exact ⟨some 0, rfl⟩
  | cons start rest =>
      obtain ⟨⟨first, d, reached⟩, hfirst⟩ := hfarthest (order.within start) start
      obtain ⟨⟨last, diameter, reached'⟩, hlast⟩ := hfarthest (order.within first) first
      obtain ⟨largest, hlargest⟩ := largestDistance_isSome hfarthest order (start :: rest).length
        (start :: rest) 0
      rw [allPairsDiameter]
      simp only [hfirst, hlast, hlargest, Option.bind_eq_bind, Option.bind_some]
      split
      · exact ⟨none, rfl⟩
      · split
        · exact ⟨some diameter, rfl⟩
        · exact ⟨largest, rfl⟩

/-- A rounded quotient does not leave the bounds of what is divided. -/
theorem roundedQuotient_le {a b c : ℕ} (hb : 0 < b) (h : a ≤ b * c) : roundedQuotient a b ≤ c := by
  have hdiv := Nat.div_add_mod a b
  have hmod := Nat.mod_lt a hb
  have hle : a / b ≤ c := Nat.div_le_of_le_mul h
  rw [roundedQuotient]
  rcases Nat.lt_or_ge (a / b) c with hlt | hge
  · have hparity := Nat.mod_lt (a / b) (by decide : 0 < 2)
    split_ifs <;> omega
  · -- nothing is left to round
    have heq : a / b = c := Nat.le_antisymm hle hge
    rw [heq] at hdiv
    have hzero : a % b = 0 := by omega
    rw [hzero, if_pos (by omega)]
    exact hle

omit [DecidableEq α] in
/-- The sources can be read off the list, and are nodes of it. -/
theorem brandesSources_isSome (nodes : List α) (maxExactNodes sampleSources : ℕ) :
    ∃ sources method, brandesSources nodes maxExactNodes sampleSources = some (sources, method) ∧
      ∀ a ∈ sources, a ∈ nodes := by
  rw [brandesSources]
  split
  · rename_i hsampled
    let count := max 2 (min sampleSources nodes.length)
    let indices := ((List.range count).map fun i =>
      roundedQuotient (i * (nodes.length - 1)) (count - 1)).toFinset
    -- rounding a quotient of at most n - 1 stays below n
    have hindex : ∀ index ∈ indices.sort (· ≤ ·), ∃ a, nodes[index]? = some a ∧ a ∈ nodes := by
      intro index hindex
      obtain ⟨i, hi, rfl⟩ := List.mem_map.mp (List.mem_toFinset.mp ((Finset.mem_sort _).mp hindex))
      have hi : i < count := List.mem_range.mp hi
      have hle : roundedQuotient (i * (nodes.length - 1)) (count - 1) ≤ nodes.length - 1 :=
        roundedQuotient_le (by omega) (Nat.mul_le_mul_right _ (by omega))
      have hlt : roundedQuotient (i * (nodes.length - 1)) (count - 1) < nodes.length := by omega
      exact ⟨_, List.getElem?_eq_getElem hlt, List.getElem_mem hlt⟩
    obtain ⟨sources, hsources⟩ := List.exists_mapM_eq_some_iff.mpr fun index hmem =>
      (hindex index hmem).imp fun _ ha => ha.1
    refine ⟨sources, "deterministic_sampled_brandes", ?_, fun a ha => ?_⟩
    · show (do
        let sources ← (indices.sort (· ≤ ·)).mapM fun index => nodes[index]?
        return (sources, "deterministic_sampled_brandes")) = _
      rw [hsources]
      rfl
    · obtain ⟨index, -, hget⟩ := (List.mem_mapM_iff hsources).mp ha
      exact List.mem_of_getElem? hget
  · exact ⟨nodes, "exact_brandes", rfl, fun _ ha => ha⟩

end

/-- What the search from one source looks up is there, and the queue holds nodes that it has
reached. -/
structure BrandesSearch.Ready (nodes : List α) (state : BrandesSearch α F) : Prop where
  predecessors : ∀ a ∈ nodes, ∃ before, state.predecessors.get? a = some before ∧
    ∀ b ∈ before, b ∈ nodes
  sigma : ∀ a ∈ nodes, a ∈ state.sigma.keys
  distance : ∀ a ∈ nodes, a ∈ state.distance.keys
  queue : ∀ a ∈ state.queue, a ∈ nodes ∧ ∃ d, state.distance.get? a = some d ∧ 0 ≤ d
  stack : ∀ a ∈ state.stack, a ∈ nodes

/-- The nodes that have not been reached, and the length of the queue. -/
def BrandesSearch.measure (nodes : List α) (state : BrandesSearch α F) : ℕ :=
  (nodes.toFinset.filter fun a => (state.distance.get? a).any (· < 0)).card + state.queue.length

omit [PyFloat F] in
/-- A node that is reached is taken off those that have not been. -/
theorem BrandesSearch.measure_reach {nodes : List α} {state : BrandesSearch α F} {nxt : α}
    {d ahead : ℤ} (hnxt : nxt ∈ nodes) (hd : state.distance.get? nxt = some d) (hneg : d < 0)
    (hahead : 0 ≤ ahead) :
    ({ state with
        queue := state.queue ++ [nxt]
        distance := state.distance.set nxt ahead } : BrandesSearch α F).measure nodes =
      state.measure nodes := by
  have herase : (nodes.toFinset.filter fun a =>
        ((state.distance.set nxt ahead).get? a).any (· < 0)) =
      (nodes.toFinset.filter fun a => (state.distance.get? a).any (· < 0)).erase nxt := by
    ext a
    rw [Finset.mem_erase, Finset.mem_filter, Finset.mem_filter, Dict.get?_set]
    by_cases ha : a = nxt <;> simp [ha, hahead]
  have hmem : nxt ∈ nodes.toFinset.filter fun a => (state.distance.get? a).any (· < 0) := by
    simp [hnxt, hd, hneg]
  have hcard := Finset.card_erase_add_one hmem
  rw [measure, measure, herase, List.length_append, List.length_singleton]
  omega

/-- Looking at a node next to one that has been reached. -/
theorem BrandesSearch.exists_relax_eq_some {nodes : List α} {state : BrandesSearch α F}
    {node nxt : α} (hstate : state.Ready nodes) (hnode : node ∈ nodes) (hnxt : nxt ∈ nodes)
    (hreached : ∃ d, state.distance.get? node = some d ∧ 0 ≤ d) :
    ∃ state', state.relax node nxt = some state' ∧ state'.Ready nodes ∧
      (∃ d, state'.distance.get? node = some d ∧ 0 ≤ d) ∧
      state'.measure nodes = state.measure nodes := by
  obtain ⟨here, hhere, hnonneg⟩ := hreached
  obtain ⟨there, hthere⟩ := Dict.mem_keys_iff.mp (hstate.distance nxt hnxt)
  -- the node is reached, if it has not been before
  let reached : BrandesSearch α F :=
    if there < 0 then { state with
      queue := state.queue ++ [nxt], distance := state.distance.set nxt (here + 1) }
    else state
  have hget : ∀ a d, state.distance.get? a = some d → 0 ≤ d →
      ∃ d', reached.distance.get? a = some d' ∧ 0 ≤ d' := by
    intro a d hd hdpos
    dsimp only [reached]
    split
    · rw [Dict.get?_set]
      split
      · exact ⟨here + 1, rfl, by omega⟩
      · exact ⟨d, hd, hdpos⟩
    · exact ⟨d, hd, hdpos⟩
  have hready : reached.Ready nodes ∧ reached.measure nodes = state.measure nodes ∧
      ∃ d, reached.distance.get? nxt = some d := by
    by_cases hneg : there < 0
    · have hreached : reached = { state with
          queue := state.queue ++ [nxt], distance := state.distance.set nxt (here + 1) } := if_pos hneg
      rw [hreached] at hget ⊢
      refine ⟨⟨hstate.predecessors, hstate.sigma, fun a ha => ?_, fun a ha => ?_, hstate.stack⟩,
        measure_reach hnxt hthere hneg (by omega), ⟨here + 1, Dict.get?_set_self ..⟩⟩
      · exact Dict.mem_keys_set.mpr (Or.inl (hstate.distance a ha))
      · rcases List.mem_append.mp ha with ha | ha
        · obtain ⟨hmem, d, hd, hdpos⟩ := hstate.queue a ha
          exact ⟨hmem, hget a d hd hdpos⟩
        · rw [List.mem_singleton.mp ha]
          exact ⟨hnxt, here + 1, Dict.get?_set_self .., by omega⟩
    · have hreached : reached = state := if_neg hneg
      rw [hreached]
      exact ⟨hstate, rfl, there, hthere⟩
  obtain ⟨hready, hmeasure, d, hd⟩ := hready
  obtain ⟨before, hbefore, hbeforeNodes⟩ := hready.predecessors nxt hnxt
  obtain ⟨sigmaNxt, hsigmaNxt⟩ := Dict.mem_keys_iff.mp (hready.sigma nxt hnxt)
  obtain ⟨sigmaNode, hsigmaNode⟩ := Dict.mem_keys_iff.mp (hready.sigma node hnode)
  have hrelax : state.relax node nxt = some (if d = here + 1 then { reached with
      sigma := reached.sigma.set nxt (sigmaNxt + sigmaNode)
      predecessors := reached.predecessors.set nxt (before ++ [node]) } else reached) := by
    rw [relax]
    simp only [hhere, hthere, Option.bind_eq_bind, Option.bind_some]
    show (reached.distance.get? nxt).bind _ = _
    rw [hd, Option.bind_some]
    split
    · show ((reached.sigma.get? nxt).bind fun _ => _) = _
      rw [hsigmaNxt, Option.bind_some]
      show ((reached.sigma.get? node).bind fun _ => _) = _
      rw [hsigmaNode, Option.bind_some]
      show ((reached.predecessors.get? nxt).bind fun _ => _) = _
      rw [hbefore]
      rfl
    · rfl
  refine ⟨_, hrelax, ?_⟩
  split
  · refine ⟨⟨fun a ha => ?_, fun a ha => ?_, hready.distance, hready.queue, hready.stack⟩,
      hget node here hhere hnonneg, hmeasure⟩
    · rw [Dict.get?_set]
      split
      · refine ⟨_, rfl, fun b hb => ?_⟩
        rcases List.mem_append.mp hb with hb | hb
        · exact hbeforeNodes b hb
        · rwa [List.mem_singleton.mp hb]
      · exact hready.predecessors a ha
    · exact Dict.mem_keys_set.mpr (Or.inl (hready.sigma a ha))
  · exact ⟨hready, hget node here hhere hnonneg, hmeasure⟩

omit [DecidableEq α] [PyFloat F] in
/-- A table has every node. -/
theorem get?_tableOf [DecidableEq α] {β : Type} {nodes : List α} {a : α} (ha : a ∈ nodes)
    (value : β) : (tableOf nodes value).get? a = some value := by
  have hkey : a ∈ (tableOf nodes value).keys := Dict.mem_keys_ofList.mpr (by simpa using ha)
  obtain ⟨v, hv⟩ := Dict.mem_keys_iff.mp hkey
  obtain ⟨node, -, heq⟩ := List.mem_map.mp (Dict.mem_of_get?_ofList hv)
  rw [hv, (Prod.mk.inj heq).2]

/-- The search from a node ends, and what it found can be read off its tables. -/
theorem brandesSearch_isSome {graph : Graph α} {nodes : List α}
    (hgraph : ∀ a b, graph.Adj a b → b ∈ nodes) : ∀ᶠ fuel in Filter.atTop,
    ∀ (order : SetOrder α), ∀ source ∈ nodes, ∃ search : BrandesSearch α F,
      brandesSearch order fuel graph nodes source = some search ∧ search.Ready nodes := by
  refine (Filter.eventually_gt_atTop (nodes.toFinset.card + 1)).mono
    fun fuel hfuel order source hsource => ?_
  refine Loop.run_of_measure (BrandesSearch.Ready nodes) _ (BrandesSearch.measure nodes) ?_ ?_ ?_
  · intro state hstate
    cases hqueue : state.queue with
    | nil => exact Or.inl ⟨state, by simp [brandesStep, hqueue], hstate⟩
    | cons node queue =>
        obtain ⟨hnode, hreached⟩ := hstate.queue node (by simp [hqueue])
        -- the node moves from the queue to the stack
        let taken : BrandesSearch α F := { state with stack := state.stack ++ [node], queue }
        have htaken : taken.Ready nodes := {
          hstate with
          queue := fun a ha => hstate.queue a (by rw [hqueue]; exact List.mem_cons_of_mem _ ha)
          stack := fun a ha => by
            rcases List.mem_append.mp ha with ha | ha
            · exact hstate.stack a ha
            · rwa [List.mem_singleton.mp ha] }
        obtain ⟨state', hstate', hready, -, hmeasure⟩ := List.exists_foldlM_eq_some
          (fun between : BrandesSearch α F => between.Ready nodes ∧
            (∃ d, between.distance.get? node = some d ∧ 0 ≤ d) ∧
            between.measure nodes = taken.measure nodes)
          (fun between nxt hnxt hbetween => by
            obtain ⟨hready, hreached, hmeasure⟩ := hbetween
            obtain ⟨state', hstate', hready', hreached', hmeasure'⟩ :=
              BrandesSearch.exists_relax_eq_some hready hnode
                (hgraph node nxt ((order.mem_list [node] _ nxt).mp hnxt)) hreached
            exact ⟨state', hstate', hready', hreached', hmeasure'.trans hmeasure⟩)
          (⟨htaken, hreached, rfl⟩ : taken.Ready nodes ∧
            (∃ d, taken.distance.get? node = some d ∧ 0 ≤ d) ∧
            taken.measure nodes = taken.measure nodes)
        refine Or.inr ⟨state', ?_, hready, ?_⟩
        · rw [brandesStep, hqueue]
          dsimp only
          rw [hstate']
          rfl
        · rw [hmeasure]
          simp [BrandesSearch.measure, taken, hqueue]
  · -- at the start only the source is reached
    refine ⟨fun a ha => ⟨[], get?_tableOf ha [], by simp⟩, fun a ha => ?_, fun a ha => ?_,
      fun a ha => ?_, by simp⟩
    · exact Dict.mem_keys_set.mpr (Or.inl (Dict.mem_keys_iff.mpr ⟨_, get?_tableOf ha _⟩))
    · exact Dict.mem_keys_set.mpr (Or.inl (Dict.mem_keys_iff.mpr ⟨_, get?_tableOf ha _⟩))
    · rw [List.mem_singleton.mp ha]
      exact ⟨hsource, 0, Dict.get?_set_self .., le_refl _⟩
  · refine lt_of_le_of_lt (Nat.add_le_add_right ?_ 1) hfuel
    exact Finset.card_le_card (Finset.filter_subset _ _)

/-- What the search found is added to the centrality. -/
theorem exists_accumulate_eq_some {nodes : List α} {search : BrandesSearch α F}
    (hsearch : search.Ready nodes) {source node : α} (hnode : node ∈ nodes)
    {state : Dict α F × Dict α F}
    (hstate : (∀ a ∈ nodes, a ∈ state.1.keys) ∧ ∀ a ∈ nodes, a ∈ state.2.keys) :
    ∃ state', accumulate search source state node = some state' ∧
      (∀ a ∈ nodes, a ∈ state'.1.keys) ∧ ∀ a ∈ nodes, a ∈ state'.2.keys := by
  obtain ⟨before, hbefore, hnodes⟩ := hsearch.predecessors node hnode
  obtain ⟨sigma, hsigma⟩ := Dict.mem_keys_iff.mp (hsearch.sigma node hnode)
  -- every table has an entry for every node, so no lookup raises
  obtain ⟨dependency, hdependency, hkeys⟩ := List.exists_foldlM_eq_some
    (fun dependency : Dict α F => ∀ a ∈ nodes, a ∈ dependency.keys)
    (f := passDependency search node) (l := before) (by
      intro dependency previous hprevious hkeys
      rw [passDependency, hsigma]
      obtain ⟨sigma', hsigma'⟩ :=
        Dict.mem_keys_iff.mp (hsearch.sigma previous (hnodes previous hprevious))
      obtain ⟨d, hd⟩ := Dict.mem_keys_iff.mp (hkeys previous (hnodes previous hprevious))
      obtain ⟨d', hd'⟩ := Dict.mem_keys_iff.mp (hkeys node hnode)
      simp only [hsigma', hd, hd', Option.bind_eq_bind, Option.bind_some]
      split
      · exact ⟨_, rfl, fun a ha => Dict.mem_keys_set.mpr (Or.inl (hkeys a ha))⟩
      · exact ⟨_, rfl, hkeys⟩) hstate.1
  obtain ⟨c, hc⟩ := Dict.mem_keys_iff.mp (hstate.2 node hnode)
  obtain ⟨d, hd⟩ := Dict.mem_keys_iff.mp (hkeys node hnode)
  rw [accumulate]
  simp only [hbefore, hdependency, hc, hd, Option.bind_eq_bind, Option.bind_some]
  split
  · exact ⟨_, rfl, hkeys, fun a ha => Dict.mem_keys_set.mpr (Or.inl (hstate.2 a ha))⟩
  · exact ⟨_, rfl, hkeys, hstate.2⟩

/-- `_brandes_betweenness` ends, and raises nowhere, if the edges join nodes of the list. -/
theorem brandesBetweenness_isSome (order : SetOrder α) {nodes : List α} {edges : List (α × α)}
    (hedges : ∀ edge ∈ edges, edge.1 ∈ nodes ∧ edge.2 ∈ nodes) (maxExactNodes sampleSources : ℕ) :
    ∀ᶠ fuel in Filter.atTop, ∃ betweenness : Dict α F × String × ℕ,
      brandesBetweenness order fuel nodes edges maxExactNodes sampleSources = some betweenness := by
  have hgraph : ∀ a b, (adjacency nodes edges false).Adj a b → b ∈ nodes := by
    intro a b hab
    rcases adj_adjacency.mp hab with hmem | ⟨-, hmem⟩
    · exact (hedges _ hmem).2
    · exact (hedges _ hmem).1
  -- the fuel is needed for the searches only
  refine (brandesSearch_isSome (F := F) hgraph).mono fun fuel hsearch => ?_
  obtain ⟨sources, method, hsources, hnodes⟩ :=
    brandesSources_isSome nodes maxExactNodes sampleSources
  obtain ⟨centrality, hcentrality, -⟩ := List.exists_foldlM_eq_some
    (fun centrality : Dict α F => ∀ a ∈ nodes, a ∈ centrality.keys)
    (f := addSource order fuel (adjacency nodes edges false) nodes) (l := sources) (by
      intro centrality source hsource hkeys
      obtain ⟨search, hsome, hready⟩ := hsearch (order.within source) source (hnodes source hsource)
      obtain ⟨state, hstate, -, hkeys'⟩ := List.exists_foldlM_eq_some
        (fun state : Dict α F × Dict α F =>
          (∀ a ∈ nodes, a ∈ state.1.keys) ∧ ∀ a ∈ nodes, a ∈ state.2.keys)
        (f := accumulate search source) (l := search.stack.reverse)
        (fun state node hnode hstate => exists_accumulate_eq_some hready
          (hready.stack node (List.mem_reverse.mp hnode)) hstate)
        (s := (tableOf nodes 0.0, centrality))
        ⟨fun a ha => Dict.mem_keys_iff.mpr ⟨_, get?_tableOf ha _⟩, hkeys⟩
      exact ⟨state.2, by rw [addSource, hsome, Option.bind_eq_bind, Option.bind_some, hstate]; rfl,
        hkeys'⟩)
    (s := tableOf nodes 0.0) (fun a ha => Dict.mem_keys_iff.mpr ⟨_, get?_tableOf ha _⟩)
  exact ⟨_, by rw [brandesBetweenness, hsources]; simp [hcentrality]; rfl⟩

end Netlab
