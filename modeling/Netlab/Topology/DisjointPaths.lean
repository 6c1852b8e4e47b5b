import Netlab.Prelude.DisjointPaths
import Netlab.Topology.Augmenting

/-!
# Disjoint paths

`_edge_disjoint_count` gives every edge its multiplicity as capacity, so it counts edge-disjoint
paths. `_node_disjoint_count` splits every node into an entry and an exit that are joined with
capacity one; a path of the split network is a path of the graph, and paths of the split network
respect the capacities exactly if the paths of the graph have no inner node in common. So both
counts are exact, and the second does not exceed the first (`disjointCounts_exact`).
-/

namespace Netlab

section

variable {α : Type} [DecidableEq α]

/-- Count one more edge. -/
def addMultiplicity (capacity : Network α) (edge : α × α) : Network α :=
  capacity.setEntry edge.1 edge.2 (capacity.amount edge.1 edge.2 + 1)

/-- How many paths without a common edge there are (`_edge_disjoint_count`). -/
def edgeDisjointCount (fuel : ℕ) (edges : List (α × α)) (source sink : α) : Option ℤ :=
  maxFlow fuel (edges.foldl addMultiplicity .empty) source sink

end

/-- The entry of a node in the split network. -/
def nodeEntry (node : String) : String := node ++ ":in"

/-- The exit of a node in the split network. -/
def nodeExit (node : String) : String := node ++ ":out"

/-- Join the entry of a node and its exit. -/
def splitNode (maximum : ℤ) (source sink : String) (capacity : Network String) (node : String) :
    Network String :=
  capacity.setEntry (nodeEntry node) (nodeExit node)
    (if node = source ∨ node = sink then maximum else 1)

/-- Join the exit of a node and the entry of the next. -/
def joinNodes (capacity : Network String) (edge : String × String) : Network String :=
  capacity.setEntry (nodeExit edge.1) (nodeEntry edge.2) 1

/-- The network in which every node is split. -/
def splitNetwork (nodes : List String) (edges : List (String × String)) (source sink : String) :
    Network String :=
  let maximum : ℤ := max 1 nodes.length
  edges.foldl joinNodes (nodes.foldl (splitNode maximum source sink) .empty)

/-- How many paths without a common inner node there are (`_node_disjoint_count`). -/
def nodeDisjointCount (fuel : ℕ) (nodes : List String) (edges : List (String × String))
    (source sink : String) : Option ℤ :=
  maxFlow fuel (splitNetwork nodes edges source sink) (nodeEntry source) (nodeExit sink)

/-! ## Edge-disjoint paths -/

section

variable {α : Type} [DecidableEq α]

/-- The capacity of an edge is its multiplicity. -/
theorem amount_multiplicities (edges : List (α × α)) (u v : α) :
    (edges.foldl addMultiplicity .empty).amount u v = edges.count (u, v) := by
  induction edges using List.reverseRecOn with
  | nil => simp [Dict.amount, Dict.cell?, Dict.row]
  | append_singleton edges edge ih =>
      obtain ⟨a, b⟩ := edge
      rw [List.foldl_concat, addMultiplicity, Dict.amount_setEntry, List.count_append]
      by_cases h : u = a ∧ v = b
      · obtain ⟨rfl, rfl⟩ := h
        simp [ih]
      · have hne : (a, b) ≠ (u, v) := fun heq => h ⟨(Prod.mk.inj heq).1.symm, (Prod.mk.inj heq).2.symm⟩
        simp [h, ih, hne]

/-- `_edge_disjoint_count` returns the largest number of edge-disjoint paths. -/
theorem edgeDisjointCount_spec (edges : List (α × α)) {source sink : α} (hne : source ≠ sink) :
    ∀ᶠ fuel in Filter.atTop, ∃ n : ℕ, edgeDisjointCount fuel edges source sink = some (n : ℤ) ∧
      IsGreatest {n : ℕ | ∃ paths, paths.length = n ∧ Flow.EdgeDisjoint edges source sink paths} n := by
  have hcapacity : ∀ u v, 0 ≤ (edges.foldl addMultiplicity .empty).amount u v := fun u v => by
    rw [amount_multiplicities]
    exact Int.natCast_nonneg _
  refine (maxFlow_spec hcapacity hne).mono fun fuel ⟨n, hn, hgreatest⟩ => ⟨n, hn, ?_⟩
  have hiff : ∀ paths, Flow.Respects (fun u v => (edges.foldl addMultiplicity .empty).amount u v)
      source sink paths ↔ Flow.EdgeDisjoint edges source sink paths := by
    intro paths
    constructor
    · intro h
      refine ⟨h.path, fun e => ?_⟩
      have hle := h.count_le e.1 e.2
      rw [amount_multiplicities] at hle
      exact_mod_cast hle
    · intro h
      refine ⟨h.path, fun u v => ?_⟩
      rw [amount_multiplicities]
      exact_mod_cast h.count_le (u, v)
  simpa only [hiff] using hgreatest

end

/-! ## The split network -/

theorem nodeEntry_injective : Function.Injective nodeEntry := by
  intro a b h
  have hlist := congrArg String.toList h
  rw [nodeEntry, nodeEntry, String.toList_append, String.toList_append,
    List.append_left_inj] at hlist
  exact String.toList_injective hlist

theorem nodeExit_injective : Function.Injective nodeExit := by
  intro a b h
  have hlist := congrArg String.toList h
  rw [nodeExit, nodeExit, String.toList_append, String.toList_append,
    List.append_left_inj] at hlist
  exact String.toList_injective hlist

/-- Entries and exits have different names. -/
theorem nodeEntry_ne_nodeExit (a b : String) : nodeEntry a ≠ nodeExit b := by
  intro h
  have hlast := congrArg (fun s : String => s.toList.getLast?) h
  simp [nodeEntry, nodeExit] at hlast

@[simp] theorem nodeEntry_inj {a b : String} : nodeEntry a = nodeEntry b ↔ a = b :=
  nodeEntry_injective.eq_iff

@[simp] theorem nodeExit_inj {a b : String} : nodeExit a = nodeExit b ↔ a = b :=
  nodeExit_injective.eq_iff

/-- How many paths may pass a node. -/
def nodeCapacity (nodes : List String) (source sink node : String) : ℤ :=
  if node ∈ nodes then if node = source ∨ node = sink then max 1 nodes.length else 1 else 0

/-- What joins two nodes of the split network: something only if they are the entry and the exit of
one node, or the exit and the entry of the ends of an edge. -/
theorem amount_splitNetwork (nodes : List String) (edges : List (String × String))
    (source sink x y : String) : (splitNetwork nodes edges source sink).amount x y ≠ 0 →
      (∃ a, x = nodeEntry a ∧ y = nodeExit a) ∨ ∃ a b, x = nodeExit a ∧ y = nodeEntry b := by
  rw [splitNetwork]
  induction edges using List.reverseRecOn with
  | nil =>
      rw [List.foldl_nil]
      generalize (max 1 nodes.length : ℤ) = maximum
      induction nodes using List.reverseRecOn with
      | nil => simp [Dict.amount, Dict.cell?, Dict.row]
      | append_singleton nodes node ih =>
          rw [List.foldl_concat, splitNode, Dict.amount_setEntry]
          split
          · rename_i h
            exact fun _ => Or.inl ⟨node, h.1, h.2⟩
          · exact ih
  | append_singleton edges edge ih =>
      rw [List.foldl_concat, joinNodes, Dict.amount_setEntry]
      split
      · rename_i h
        exact fun _ => Or.inr ⟨edge.1, edge.2, h.1, h.2⟩
      · exact ih

theorem amount_splitNetwork_node (nodes : List String) (edges : List (String × String))
    (source sink node : String) :
    (splitNetwork nodes edges source sink).amount (nodeEntry node) (nodeExit node) =
      nodeCapacity nodes source sink node := by
  rw [splitNetwork, nodeCapacity]
  induction edges using List.reverseRecOn with
  | nil =>
      rw [List.foldl_nil]
      generalize (max 1 nodes.length : ℤ) = maximum
      induction nodes using List.reverseRecOn with
      | nil => simp [Dict.amount, Dict.cell?, Dict.row]
      | append_singleton nodes other ih =>
          rw [List.foldl_concat, splitNode, Dict.amount_setEntry, ih]
          by_cases h : node = other
          · subst h
            simp
          · simp [h]
  | append_singleton edges edge ih =>
      rw [List.foldl_concat, joinNodes, Dict.amount_setEntry,
        if_neg fun h => nodeEntry_ne_nodeExit node edge.1 h.1]
      exact ih

theorem amount_splitNetwork_edge (nodes : List String) (edges : List (String × String))
    (source sink a b : String) :
    (splitNetwork nodes edges source sink).amount (nodeExit a) (nodeEntry b) =
      if (a, b) ∈ edges then 1 else 0 := by
  rw [splitNetwork]
  induction edges using List.reverseRecOn with
  | nil =>
      rw [List.foldl_nil]
      generalize (max 1 nodes.length : ℤ) = maximum
      induction nodes using List.reverseRecOn with
      | nil => simp [Dict.amount, Dict.cell?, Dict.row]
      | append_singleton nodes other ih =>
          rw [List.foldl_concat, splitNode, Dict.amount_setEntry,
            if_neg fun h => nodeEntry_ne_nodeExit other a h.1.symm]
          exact ih
  | append_singleton edges edge ih =>
      rw [List.foldl_concat, joinNodes, Dict.amount_setEntry, ih]
      obtain ⟨u, v⟩ := edge
      by_cases h : a = u ∧ b = v
      · simp [h]
      · have hne : (a, b) ≠ (u, v) := fun heq => h (Prod.mk.inj heq)
        simp [h, hne]

/-- No capacity is negative. -/
theorem amount_splitNetwork_nonneg (nodes : List String) (edges : List (String × String))
    (source sink x y : String) : 0 ≤ (splitNetwork nodes edges source sink).amount x y := by
  by_cases hzero : (splitNetwork nodes edges source sink).amount x y = 0
  · rw [hzero]
  · rcases amount_splitNetwork _ _ _ _ _ _ hzero with ⟨a, rfl, rfl⟩ | ⟨a, b, rfl, rfl⟩
    · rw [amount_splitNetwork_node, nodeCapacity]
      split
      · split <;> omega
      · exact le_refl _
    · rw [amount_splitNetwork_edge]
      split <;> omega

/-! ## Paths of the split network -/

/-- The path of the split network along a path of the graph. -/
def splitPath : List String → List String
  | [] => []
  | node :: rest => nodeEntry node :: nodeExit node :: splitPath rest

theorem hops_splitPath_cons_cons (a b : String) (p : List String) :
    (splitPath (a :: b :: p)).hops =
      (nodeEntry a, nodeExit a) :: (nodeExit a, nodeEntry b) :: (splitPath (b :: p)).hops := rfl

/-- A path of the split network passes every node of the path once. -/
theorem count_splitPath_node (p : List String) (node : String) :
    (splitPath p).hops.count (nodeEntry node, nodeExit node) = p.count node := by
  induction p with
  | nil => rfl
  | cons a p ih =>
      have hne : ∀ b, (nodeExit a, nodeEntry b) ≠ (nodeEntry node, nodeExit node) := fun b heq =>
        nodeEntry_ne_nodeExit node a (Prod.mk.inj heq).1.symm
      cases p with
      | nil => simp [splitPath, List.count_cons]
      | cons b p =>
          rw [hops_splitPath_cons_cons, List.count_cons, List.count_cons_of_ne (hne b), ih,
            @List.count_cons _ _ _ a]
          simp

/-- And it takes every hop of the path once. -/
theorem count_splitPath_edge (p : List String) (u v : String) :
    (splitPath p).hops.count (nodeExit u, nodeEntry v) = p.hops.count (u, v) := by
  induction p with
  | nil => rfl
  | cons a p ih =>
      have hne : (nodeEntry a, nodeExit a) ≠ (nodeExit u, nodeEntry v) := fun heq =>
        nodeEntry_ne_nodeExit a u (Prod.mk.inj heq).1
      cases p with
      | nil => simp [splitPath, List.count_cons_of_ne hne]
      | cons b p =>
          rw [hops_splitPath_cons_cons, List.count_cons_of_ne hne, List.count_cons, ih,
            List.hops_cons_cons, List.count_cons]
          simp

/-- Which hops it takes. -/
theorem mem_hops_splitPath {p : List String} {e : String × String} (h : e ∈ (splitPath p).hops) :
    (∃ a, e = (nodeEntry a, nodeExit a)) ∨ ∃ a b, e = (nodeExit a, nodeEntry b) := by
  induction p with
  | nil => simp [splitPath] at h
  | cons a p ih =>
      cases p with
      | nil =>
          rw [splitPath, splitPath, List.hops_cons_cons, List.hops_singleton,
            List.mem_singleton] at h
          exact Or.inl ⟨a, h⟩
      | cons b p =>
          rw [hops_splitPath_cons_cons, List.mem_cons, List.mem_cons] at h
          rcases h with h | h | h
          · exact Or.inl ⟨a, h⟩
          · exact Or.inr ⟨a, b, h⟩
          · exact ih h

theorem mem_splitPath {p : List String} {x : String} :
    x ∈ splitPath p ↔ ∃ a ∈ p, x = nodeEntry a ∨ x = nodeExit a := by
  induction p with
  | nil => simp [splitPath]
  | cons a p ih => simp [splitPath, ih, or_assoc]

/-- A path of the graph is split into a path of the split network. -/
theorem isPath_splitPath {source sink : String} {p : List String} :
    Flow.IsPath (nodeEntry source) (nodeExit sink) (splitPath p) ↔ Flow.IsPath source sink p := by
  have hhead : (splitPath p).head? = some (nodeEntry source) ↔ p.head? = some source := by
    cases p <;> simp [splitPath]
  have hlast : (splitPath p).getLast? = some (nodeExit sink) ↔ p.getLast? = some sink := by
    clear hhead
    induction p with
    | nil => simp [splitPath]
    | cons a p ih =>
        cases p with
        | nil => simp [splitPath]
        | cons b p =>
            rw [splitPath, List.getLast?_cons_cons, List.getLast?_cons_cons, ← ih, splitPath,
              List.getLast?_cons_cons]
  have hnodup : (splitPath p).Nodup ↔ p.Nodup := by
    clear hhead hlast
    induction p with
    | nil => simp [splitPath]
    | cons a p ih =>
        -- a node is entered once and left once
        have hentry : nodeEntry a ∉ nodeExit a :: splitPath p ↔ a ∉ p := by
          simp [mem_splitPath, nodeEntry_ne_nodeExit]
        have hexit : nodeExit a ∉ splitPath p ↔ a ∉ p := by
          simp [mem_splitPath, (nodeEntry_ne_nodeExit _ _).symm]
        rw [splitPath, List.nodup_cons, List.nodup_cons, List.nodup_cons, hentry, hexit, ih]
        tauto
  constructor
  · exact fun h => ⟨hhead.mp h.head, hlast.mp h.last, hnodup.mp h.nodup⟩
  · exact fun h => ⟨hhead.mpr h.head, hlast.mpr h.last, hnodup.mpr h.nodup⟩

/-- A path of the split network from an entry to an exit is the path along a path of the graph. -/
theorem exists_splitPath {nodes : List String} {edges : List (String × String)}
    {source sink : String} {q : List String} {a t : String} (hhead : q.head? = some (nodeEntry a))
    (hlast : q.getLast? = some (nodeExit t))
    (hhops : ∀ e ∈ q.hops, (splitNetwork nodes edges source sink).amount e.1 e.2 ≠ 0) :
    ∃ p, q = splitPath p := by
  induction hlength : q.length using Nat.strong_induction_on generalizing q a with
  | _ n ih =>
      obtain ⟨rest, rfl⟩ : ∃ rest, q = nodeEntry a :: rest := by
        cases q with
        | nil => exact absurd hhead (by simp)
        | cons x rest => exact ⟨rest, by rw [Option.some.inj hhead]⟩
      cases rest with
      | nil => exact absurd (Option.some.inj hlast) (nodeEntry_ne_nodeExit a t)
      | cons y rest =>
          -- behind the entry comes the exit
          obtain rfl : y = nodeExit a := by
            rcases amount_splitNetwork _ _ _ _ _ _ (hhops (nodeEntry a, y) List.mem_cons_self) with
              ⟨b, hb, hy⟩ | ⟨b, c, hb, hy⟩
            · rw [nodeEntry_inj.mp hb]
              exact hy
            · exact absurd hb (nodeEntry_ne_nodeExit a b)
          cases rest with
          | nil => exact ⟨[a], rfl⟩
          | cons z rest =>
              -- and behind the exit the entry of another node
              obtain ⟨b, rfl⟩ : ∃ b, z = nodeEntry b := by
                rcases amount_splitNetwork _ _ _ _ _ _ (hhops (nodeExit a, z) (by simp)) with
                  ⟨b, hb, hz⟩ | ⟨b, c, hb, hz⟩
                · exact absurd hb.symm (nodeEntry_ne_nodeExit b a)
                · exact ⟨c, hz⟩
              have hlt : (nodeEntry b :: rest).length < n := by
                rw [← hlength]
                simp
              have hlast' : (nodeEntry b :: rest).getLast? = some (nodeExit t) := by
                rwa [List.getLast?_cons_cons, List.getLast?_cons_cons] at hlast
              obtain ⟨p, hp⟩ := ih _ hlt rfl hlast' (fun e he => hhops e (by simp [he])) rfl
              exact ⟨a :: p, by rw [splitPath, ← hp]⟩

/-! ## Node-disjoint paths -/

section

variable {nodes : List String} {edges : List (String × String)} {source sink : String}
  {paths : List (List String)}

theorem count_flatMap_splitPath_node (paths : List (List String)) (node : String) :
    ((paths.map splitPath).flatMap List.hops).count (nodeEntry node, nodeExit node) =
      paths.flatten.count node := by
  induction paths with
  | nil => rfl
  | cons p paths ih =>
      rw [List.map_cons, List.flatMap_cons, List.count_append, ih, count_splitPath_node,
        List.flatten_cons, List.count_append]

theorem count_flatMap_splitPath_edge (paths : List (List String)) (u v : String) :
    ((paths.map splitPath).flatMap List.hops).count (nodeExit u, nodeEntry v) =
      (paths.flatMap List.hops).count (u, v) := by
  induction paths with
  | nil => rfl
  | cons p paths ih =>
      rw [List.map_cons, List.flatMap_cons, List.count_append, ih, count_splitPath_edge,
        List.flatMap_cons, List.count_append]

/-- Paths without a common inner node, split, respect the capacities of the split network. -/
theorem respects_of_nodeDisjoint (hne : source ≠ sink)
    (hedges : ∀ e ∈ edges, e.1 ∈ nodes ∧ e.2 ∈ nodes)
    (h : Flow.NodeDisjoint edges source sink paths) :
    Flow.Respects (fun x y => (splitNetwork nodes edges source sink).amount x y) (nodeEntry source)
      (nodeExit sink) (paths.map splitPath) := by
  refine ⟨fun q hq => ?_, fun x y => ?_⟩
  · obtain ⟨p, hp, rfl⟩ := List.mem_map.mp hq
    exact isPath_splitPath.mpr (h.path p hp)
  by_cases hcount : ((paths.map splitPath).flatMap List.hops).count (x, y) = 0
  · rw [hcount]
    exact amount_splitNetwork_nonneg ..
  have hmem := List.count_pos_iff.mp (Nat.pos_of_ne_zero hcount)
  obtain ⟨q, hq, hhop⟩ := List.mem_flatMap.mp hmem
  obtain ⟨p, hp, rfl⟩ := List.mem_map.mp hq
  rcases mem_hops_splitPath hhop with ⟨a, heq⟩ | ⟨a, b, heq⟩
  · obtain ⟨rfl, rfl⟩ := Prod.mk.inj heq
    have ha : a ∈ p := by
      rw [← List.count_pos_iff, ← count_splitPath_node]
      exact List.count_pos_iff.mpr hhop
    have hnode : a ∈ nodes := by
      obtain ⟨e, he, hend⟩ := (h.path p hp).exists_hop hne ha
      have hends := hedges e (h.edge p hp e he)
      rcases hend with rfl | rfl
      · exact hends.1
      · exact hends.2
    rw [count_flatMap_splitPath_node, amount_splitNetwork_node, nodeCapacity, if_pos hnode]
    split
    · -- at the ends there is room for as many paths as there are
      have hle := (h.count_node_le a).trans (h.length_le hne fun e he => (hedges e he).2)
      omega
    · rename_i hinner
      rw [not_or] at hinner
      exact_mod_cast h.count_node_le_one hinner.1 hinner.2
  · obtain ⟨rfl, rfl⟩ := Prod.mk.inj heq
    have hab : (a, b) ∈ p.hops := by
      rw [← List.count_pos_iff, ← count_splitPath_edge]
      exact List.count_pos_iff.mpr hhop
    rw [count_flatMap_splitPath_edge, amount_splitNetwork_edge, if_pos (h.edge p hp _ hab)]
    exact_mod_cast h.count_hops_le_one (a, b)

/-- Paths that respect the capacities of the split network are split, and have no inner node in
common. -/
theorem exists_nodeDisjoint_of_respects (hne : source ≠ sink) {qs : List (List String)}
    (h : Flow.Respects (fun x y => (splitNetwork nodes edges source sink).amount x y)
      (nodeEntry source) (nodeExit sink) qs) :
    ∃ paths, qs = paths.map splitPath ∧ Flow.NodeDisjoint edges source sink paths := by
  -- a path uses edges of the split network only
  have hpositive : ∀ q ∈ qs, ∀ e ∈ q.hops,
      (splitNetwork nodes edges source sink).amount e.1 e.2 ≠ 0 := by
    intro q hq e he hzero
    have hle := h.count_le e.1 e.2
    have hpos : 0 < (qs.flatMap List.hops).count e :=
      List.count_pos_iff.mpr (List.mem_flatMap.mpr ⟨q, hq, he⟩)
    have heta : (e.1, e.2) = e := rfl
    rw [heta, hzero] at hle
    omega
  obtain ⟨paths, rfl⟩ : qs ∈ Set.range (List.map splitPath) := by
    rw [Set.range_list_map]
    intro q hq
    obtain ⟨p, hp⟩ := exists_splitPath (h.path q hq).head (h.path q hq).last (hpositive q hq)
    exact ⟨p, hp.symm⟩
  refine ⟨paths, rfl, Flow.nodeDisjoint_of_count hne ?_ ?_ ?_ ?_⟩
  · exact fun p hp => isPath_splitPath.mp (h.path _ (List.mem_map_of_mem hp))
  · rintro p hp ⟨u, v⟩ huv
    by_contra hnot
    have hhop : (nodeExit u, nodeEntry v) ∈ (splitPath p).hops := by
      rw [← List.count_pos_iff, count_splitPath_edge]
      exact List.count_pos_iff.mpr huv
    refine hpositive _ (List.mem_map_of_mem hp) _ hhop ?_
    rw [amount_splitNetwork_edge, if_neg hnot]
  · rintro ⟨u, v⟩
    have hle := h.count_le (nodeExit u) (nodeEntry v)
    rw [count_flatMap_splitPath_edge, amount_splitNetwork_edge] at hle
    split at hle <;> omega
  · -- the edge through a node other than the ends has capacity one
    intro x hs ht
    have hle := h.count_le (nodeEntry x) (nodeExit x)
    rw [count_flatMap_splitPath_node, amount_splitNetwork_node, nodeCapacity] at hle
    simp only [hs, ht, or_self, if_false] at hle
    split at hle <;> omega

/-- `_node_disjoint_count` returns the largest number of node-disjoint paths. -/
theorem nodeDisjointCount_spec (hne : source ≠ sink)
    (hedges : ∀ e ∈ edges, e.1 ∈ nodes ∧ e.2 ∈ nodes) : ∀ᶠ fuel in Filter.atTop,
    ∃ n : ℕ, nodeDisjointCount fuel nodes edges source sink = some (n : ℤ) ∧
      IsGreatest {n : ℕ | ∃ paths, paths.length = n ∧
        Flow.NodeDisjoint edges source sink paths} n := by
  have hcapacity := amount_splitNetwork_nonneg nodes edges source sink
  have hends : nodeEntry source ≠ nodeExit sink := nodeEntry_ne_nodeExit source sink
  refine (maxFlow_spec hcapacity hends).mono fun fuel ⟨n, hn, hgreatest⟩ => ⟨n, hn, ?_, ?_⟩
  · obtain ⟨qs, rfl, hqs⟩ := hgreatest.1
    obtain ⟨paths, rfl, hpaths⟩ := exists_nodeDisjoint_of_respects hne hqs
    exact ⟨paths, by rw [List.length_map], hpaths⟩
  · rintro m ⟨paths, rfl, hpaths⟩
    exact hgreatest.2 ⟨paths.map splitPath, by rw [List.length_map],
      respects_of_nodeDisjoint hne hedges hpaths⟩

/-- For a source that is not the sink, `_edge_disjoint_count` returns the largest number of
edge-disjoint paths, `_node_disjoint_count` the largest number of node-disjoint paths, and the
second is not larger than the first. -/
theorem disjointCounts_exact (hne : source ≠ sink)
    (hedges : ∀ e ∈ edges, e.1 ∈ nodes ∧ e.2 ∈ nodes) : ∀ᶠ fuel in Filter.atTop, ∃ m n : ℕ,
      edgeDisjointCount fuel edges source sink = some (m : ℤ) ∧
      nodeDisjointCount fuel nodes edges source sink = some (n : ℤ) ∧
      IsGreatest {m : ℕ | ∃ paths, paths.length = m ∧
        Flow.EdgeDisjoint edges source sink paths} m ∧
      IsGreatest {n : ℕ | ∃ paths, paths.length = n ∧
        Flow.NodeDisjoint edges source sink paths} n ∧ n ≤ m := by
  refine ((edgeDisjointCount_spec edges hne).and (nodeDisjointCount_spec hne hedges)).mono
    fun fuel ⟨⟨m, hm, hedge⟩, ⟨n, hn, hnode⟩⟩ => ⟨m, n, hm, hn, hedge, hnode, ?_⟩
  obtain ⟨paths, hlength, hpaths⟩ := hnode.1
  exact hedge.2 ⟨paths, hlength, hpaths.edgeDisjoint⟩

/-- Two parallel edges to the sink, and a third one back. -/
theorem disjointCounts_exact_parallel : ∀ᶠ fuel in Filter.atTop, ∃ m n : ℕ,
    edgeDisjointCount fuel [("station", "drone_1"), ("station", "drone_1"), ("drone_1", "station")]
      "station" "drone_1" = some (m : ℤ) ∧
    nodeDisjointCount fuel ["station", "drone_1"]
      [("station", "drone_1"), ("station", "drone_1"), ("drone_1", "station")]
      "station" "drone_1" = some (n : ℤ) ∧
    IsGreatest {m : ℕ | ∃ paths, paths.length = m ∧ Flow.EdgeDisjoint
      [("station", "drone_1"), ("station", "drone_1"), ("drone_1", "station")]
      "station" "drone_1" paths} m ∧
    IsGreatest {n : ℕ | ∃ paths, paths.length = n ∧ Flow.NodeDisjoint
      [("station", "drone_1"), ("station", "drone_1"), ("drone_1", "station")]
      "station" "drone_1" paths} n ∧ n ≤ m :=
  disjointCounts_exact (by decide) (by decide)

end

end Netlab
