import Netlab.Prelude.TreeMetric
import Netlab.Topology.Centrality
import Netlab.Topology.Paths
import Netlab.Topology.Undirected
import Mathlib.Data.String.Basic

/-!
# The diameter

`farthest` finds a node that is as far from its start as any node, its distance, and how many nodes
can be reached (`farthest_spec`). In a graph of distinct nodes with one edge less than nodes, in
which every node can be reached, that is a tree, so the second of two sweeps has the diameter. In
all other graphs the diameter is the largest distance that `farthest` finds from some node.
-/

namespace Netlab

open Relation

section

variable {α : Type} [DecidableEq α] {order : SetOrder α} {graph : Graph α} {start node : α}

/-! ## One sweep -/

/-- Looking at the nodes behind a node, in a search for the farthest node. -/
theorem foldl_reach (distance : ℕ) {successors : List α} (hnodup : successors.Nodup)
    (state : FarthestSearch α) :
    successors.foldl (FarthestSearch.reach distance) state =
      { state with
        queue := state.queue ++
          (successors.filter (· ∉ state.seen)).map fun nxt => (nxt, distance + 1)
        seen := state.seen ∪ successors.toFinset } := by
  let withQueue (s : List (α × ℕ) × Finset α) : FarthestSearch α :=
    { state with queue := s.1, seen := s.2 }
  have hstep : ∀ s nxt, FarthestSearch.reach distance (withQueue s) nxt =
      withQueue (if nxt ∈ s.2 then s else (s.1 ++ [(nxt, distance + 1)], insert nxt s.2)) := by
    intro s nxt
    rw [FarthestSearch.reach]
    split_ifs <;> rfl
  show successors.foldl _ (withQueue (state.queue, state.seen)) = _
  rw [List.foldl_hom withQueue hstep, foldl_fresh (fun nxt => (nxt, distance + 1)) hnodup]

/-- A search that has taken `done` knows the farthest of these nodes. -/
structure Sweep (graph : Graph α) (start : α) (label : α → ℕ) (done : List α)
    (state : FarthestSearch α) : Prop where
  breadth : Breadth graph.Adj start label done (state.queue.map Prod.fst)
  seen : ∀ a, a ∈ state.seen ↔ a ∈ done ++ state.queue.map Prod.fst
  queue : ∀ entry ∈ state.queue, entry.2 = label entry.1
  far_mem : state.farNode ∈ state.seen
  far_label : label state.farNode = state.farDistance
  le_far : ∀ a ∈ done, label a ≤ state.farDistance

/-- What `farthest` should return: a node that is as far from the start as any, its distance, and
the number of the nodes that can be reached. -/
structure IsFarthest (graph : Graph α) (start : α) (far : α × ℕ × ℕ) : Prop where
  distance : Distance graph.Adj start far.1 far.2.1
  le_far : ∀ a n, Distance graph.Adj start a n → n ≤ far.2.1
  reached : ∃ seen : Finset α, seen.card = far.2.2 ∧
    ∀ a, a ∈ seen ↔ ReflTransGen graph.Adj start a

/-- The search before its first node. -/
theorem Sweep.initial (graph : Graph α) (start : α) :
    Sweep graph start (fun _ => 0) [] ⟨[(start, 0)], {start}, start, 0⟩ where
  breadth := .start _ _ rfl
  seen a := by simp
  queue entry hentry := by rw [List.mem_singleton.mp hentry]
  far_mem := Finset.mem_singleton_self start
  far_label := rfl
  le_far a ha := absurd ha List.not_mem_nil

/-- A node is taken from the queue, and the nodes behind it are put there. -/
theorem Sweep.visit {label : α → ℕ} {done : List α} {distance : ℕ} {queue : List (α × ℕ)}
    {seen : Finset α} {farNode : α} {farDistance : ℕ}
    (h : Sweep graph start label done ⟨(node, distance) :: queue, seen, farNode, farDistance⟩)
    {successors : List α} (hnodup : successors.Nodup)
    (hsuccessors : ∀ a, a ∈ successors ↔ graph.Adj node a) :
    ∃ label' done', Sweep graph start label' done' (successors.foldl
      (FarthestSearch.reach distance) (if farDistance < distance then
        ⟨queue, seen, node, distance⟩ else ⟨queue, seen, farNode, farDistance⟩)) := by
  have hdistance : distance = label node := h.queue (node, distance) List.mem_cons_self
  have hseen : ∀ a, a ∈ seen ↔ a ∈ done ++ node :: queue.map Prod.fst := h.seen
  have hnode : node ∈ seen := (hseen node).mpr (by simp)
  obtain ⟨hbreadth, hunion⟩ := h.breadth.visit_unseen hseen hnodup hsuccessors
  -- the farthest node among those taken and the one that is taken now
  obtain ⟨far, d, hstate, hfar, hlabel, hle, hnodeLe⟩ : ∃ far d,
      (if farDistance < distance then (⟨queue, seen, node, distance⟩ : FarthestSearch α)
        else ⟨queue, seen, farNode, farDistance⟩) = ⟨queue, seen, far, d⟩ ∧
      far ∈ seen ∧ label far = d ∧ (∀ a ∈ done, label a ≤ d) ∧ label node ≤ d := by
    by_cases hfarther : farDistance < distance
    · exact ⟨node, distance, if_pos hfarther, hnode, hdistance.symm,
        fun a ha => (h.le_far a ha).trans hfarther.le, hdistance.ge⟩
    · exact ⟨farNode, farDistance, if_neg hfarther, h.far_mem, h.far_label, h.le_far,
        hdistance ▸ not_lt.mp hfarther⟩
  have hqueue : (queue ++ (successors.filter (· ∉ seen)).map fun nxt => (nxt, distance + 1)).map
      Prod.fst = queue.map Prod.fst ++ successors.filter (· ∉ seen) := by
    simp [Function.comp_def]
  rw [hstate, foldl_reach distance hnodup]
  refine ⟨fun a => if a ∈ seen then label a else label node + 1, done ++ [node],
    ?_, ?_, ?_, ?_, ?_, ?_⟩
  · rwa [hqueue]
  · rwa [hqueue]
  · intro entry hentry
    rcases List.mem_append.mp hentry with hentry | hentry
    · have hmem : entry.1 ∈ seen := (hseen _).mpr (by
        simp only [List.mem_append, List.mem_cons]
        exact Or.inr (Or.inr (List.mem_map_of_mem hentry)))
      rw [if_pos hmem]
      exact h.queue entry (List.mem_cons_of_mem _ hentry)
    · obtain ⟨nxt, hnxt, rfl⟩ := List.mem_map.mp hentry
      rw [if_neg (by simpa using (List.mem_filter.mp hnxt).2), hdistance]
  · exact Finset.mem_union_left _ hfar
  · rw [if_pos hfar, hlabel]
  · intro a ha
    have hmem : a ∈ seen := (hseen a).mpr (by
      rcases List.mem_append.mp ha with ha | ha
      · exact List.mem_append_left _ ha
      · rw [List.mem_singleton.mp ha]
        simp)
    rw [if_pos hmem]
    rcases List.mem_append.mp ha with ha | ha
    · exact hle a ha
    · rw [List.mem_singleton.mp ha]
      exact hnodeLe

/-- `farthest` returns a node that is as far from its start as any. -/
theorem farthest_spec {fuel : ℕ} {far : α × ℕ × ℕ}
    (h : farthest order fuel graph start = some far) : IsFarthest graph start far := by
  refine Loop.post_of_run (fun state => ∃ label done, Sweep graph start label done state) _ ?_ ?_
    ⟨_, _, Sweep.initial graph start⟩ h
  · rintro ⟨queue, seen, farNode, farDistance⟩ state' ⟨label, done, hstate⟩ hstep
    cases queue with
    | nil => cases hstep
    | cons entry queue =>
        obtain rfl := Sum.inl.inj (Option.some.inj hstep)
        exact hstate.visit (order.nodup _ _) fun a => order.mem_list _ _ _
  · rintro ⟨queue, seen, farNode, farDistance⟩ far ⟨label, done, hstate⟩ hstep
    cases queue with
    | nil =>
        obtain rfl := Sum.inr.inj (Option.some.inj hstep)
        have hbreadth : Breadth graph.Adj start label done [] := hstate.breadth
        -- nothing is left in the queue, so all that has been seen is done
        have hseen : ∀ a, a ∈ seen ↔ a ∈ done := fun a => (hstate.seen a).trans (by simp)
        have hfar := hbreadth.distance ((hseen farNode).mp hstate.far_mem)
        rw [hstate.far_label] at hfar
        refine ⟨hfar, fun a n hn => ?_, seen, rfl, fun a => (hseen a).trans hbreadth.mem_done_iff⟩
        obtain ⟨⟨route, hroute, -⟩, -⟩ := id hn
        have ha : a ∈ done := hbreadth.mem_done_iff.mpr (exists_route_iff.mp ⟨route, hroute⟩)
        rw [hn.unique (hbreadth.distance ha)]
        exact hstate.le_far a ha
    | cons entry queue => cases hstep

/-! ## Sweeps of the graph of nodes and edges -/

/-- The undirected simple graph of nodes and edges. -/
abbrev nodeGraph {α : Type} (nodes : List α) (edges : List (α × α)) :
    SimpleGraph {a | a ∈ nodes} :=
  (edgeGraph edges).induce {a | a ∈ nodes}

variable {nodes : List α} {edges : List (α × α)} {fuel : ℕ} {far : α} {distance reached : ℕ}

/-- A sweep counts as many nodes as there are exactly if the graph is connected. -/
theorem reached_eq_length_iff (hnodup : nodes.Nodup)
    (hedges : ∀ edge ∈ edges, edge.1 ∈ nodes ∧ edge.2 ∈ nodes) (hstart : start ∈ nodes)
    (h : farthest order fuel (adjacency nodes edges false) start = some (far, distance, reached)) :
    reached = nodes.length ↔ (nodeGraph nodes edges).Preconnected := by
  obtain ⟨seen, hcard, hseen⟩ := (farthest_spec h).reached
  have hreach : ∀ b : {a | a ∈ nodes},
      (nodeGraph nodes edges).Reachable ⟨start, hstart⟩ b ↔ b.1 ∈ seen := fun b => by
    rw [hseen, reachable_iff_undirected nodes hedges]
  have hsubset : seen ⊆ nodes.toFinset := by
    intro a ha
    obtain ⟨route, hroute⟩ := exists_route_iff.mpr ((hseen a).mp ha)
    obtain ⟨hmem, -⟩ := exists_walk_of_route (a := (⟨start, hstart⟩ : {a | a ∈ nodes})) hedges hroute
    exact List.mem_toFinset.mpr hmem
  have hlength : nodes.toFinset.card = nodes.length := List.toFinset_card_of_nodup hnodup
  constructor
  · intro heq
    have hall : seen = nodes.toFinset := Finset.eq_of_subset_of_card_le hsubset (by
      rw [hlength, ← heq]
      exact hcard.ge)
    -- a graph in which one node reaches all others is connected
    have hfrom : ∀ b : {a | a ∈ nodes}, (nodeGraph nodes edges).Reachable ⟨start, hstart⟩ b :=
      fun b => (hreach b).mpr (hall ▸ List.mem_toFinset.mpr b.2)
    exact fun a b => (hfrom a).symm.trans (hfrom b)
  · intro hconnected
    have hall : seen = nodes.toFinset := Finset.Subset.antisymm hsubset fun a ha =>
      (hreach ⟨a, List.mem_toFinset.mp ha⟩).mp (hconnected _ _)
    rw [← hlength, ← hall]
    exact hcard.symm

/-- In a connected graph a sweep finds the largest distance from its start. -/
theorem farthest_of_preconnected
    (hedges : ∀ edge ∈ edges, edge.1 ∈ nodes ∧ edge.2 ∈ nodes) (hstart : start ∈ nodes)
    (hconnected : (nodeGraph nodes edges).Preconnected)
    (h : farthest order fuel (adjacency nodes edges false) start = some (far, distance, reached)) :
    ∃ hfar : far ∈ nodes, (nodeGraph nodes edges).dist ⟨start, hstart⟩ ⟨far, hfar⟩ = distance ∧
      ∀ b, (nodeGraph nodes edges).dist ⟨start, hstart⟩ b ≤ distance := by
  have hspec := farthest_spec h
  obtain ⟨⟨route, hroute, -⟩, -⟩ := id hspec.distance
  obtain ⟨hfar, -⟩ := exists_walk_of_route (a := (⟨start, hstart⟩ : {a | a ∈ nodes})) hedges hroute
  refine ⟨hfar, ?_, fun b => hspec.le_far b.1 _ ?_⟩
  · exact ((distance_iff_undirected (a := ⟨start, hstart⟩) (b := ⟨far, hfar⟩) hedges).mp
      hspec.distance).2
  · exact (distance_iff_undirected (a := ⟨start, hstart⟩) hedges).mpr ⟨hconnected _ _, rfl⟩

/-- In a connected graph the loop over the sources finds the largest distance from them. -/
theorem largestDistance_spec (hnodup : nodes.Nodup)
    (hedges : ∀ edge ∈ edges, edge.1 ∈ nodes ∧ edge.2 ∈ nodes)
    (hconnected : (nodeGraph nodes edges).Preconnected) {sources : List α}
    (hsources : ∀ a ∈ sources, a ∈ nodes) {diameter : ℕ} {largest : Option ℕ}
    (h : largestDistance order fuel (adjacency nodes edges false) nodes.length sources diameter =
      some largest) :
    ∃ d, largest = some d ∧ diameter ≤ d ∧
      (∀ a b, a.1 ∈ sources → (nodeGraph nodes edges).dist a b ≤ d) ∧
      (d = diameter ∨ ∃ a b, (nodeGraph nodes edges).dist a b = d) := by
  induction sources generalizing diameter with
  | nil =>
      obtain rfl := Option.some.inj h
      exact ⟨diameter, rfl, le_rfl, by simp, Or.inl rfl⟩
  | cons source rest ih =>
      have hsource := hsources source List.mem_cons_self
      rw [largestDistance] at h
      obtain ⟨⟨far, distance, reached⟩, hfar, h⟩ := Option.bind_eq_some_iff.mp h
      -- the graph is connected, so no source ends the search early
      have hreached := (reached_eq_length_iff hnodup hedges hsource hfar).mpr hconnected
      obtain ⟨hmem, hdist, hle⟩ := farthest_of_preconnected hedges hsource hconnected hfar
      dsimp only at h
      rw [if_neg (not_not.mpr hreached)] at h
      obtain ⟨d, hd, hmax, hrest, hattained⟩ :=
        ih (fun a ha => hsources a (List.mem_cons_of_mem _ ha)) h
      refine ⟨d, hd, (le_max_left _ _).trans hmax, fun a b ha => ?_, ?_⟩
      · rcases List.mem_cons.mp ha with heq | ha
        · obtain rfl : a = ⟨source, hsource⟩ := Subtype.ext heq
          exact (hle b).trans ((le_max_right _ _).trans hmax)
        · exact hrest a b ha
      · rcases hattained with heq | hattained
        · rcases max_choice diameter distance with hold | hnew
          · exact Or.inl (heq.trans hold)
          · exact Or.inr ⟨_, _, hdist.trans (heq.trans hnew).symm⟩
        · exact Or.inr hattained

end

/-! ## The diameter -/

variable {α : Type} [LinearOrder α] {order : SetOrder α} {nodes : List α} {edges : List (α × α)}
  {start : α}

theorem sortedPair_eq_iff {a b c d : α} :
    sortedPair a b = sortedPair c d ↔ (a = c ∧ b = d) ∨ (a = d ∧ b = c) := by
  rw [sortedPair, sortedPair]
  split_ifs <;> simp only [Prod.mk.injEq] <;> grind

/-- `_all_pairs_diameter` counts the edges of the simple graph. -/
theorem card_undirectedEdges (hedges : ∀ edge ∈ edges, edge.1 ∈ nodes ∧ edge.2 ∈ nodes) :
    ((edges.filter fun edge => edge.1 ≠ edge.2).map fun edge =>
      sortedPair edge.1 edge.2).toFinset.card = Nat.card (nodeGraph nodes edges).edgeSet := by
  let pair : Sym2 {a | a ∈ nodes} → α × α :=
    Sym2.lift ⟨fun a b => sortedPair a.1 b.1, fun a b => sortedPair_eq_iff.mpr (Or.inr ⟨rfl, rfl⟩)⟩
  -- a sorted pair determines the edge
  have hinjective : Function.Injective pair := by
    intro e f
    induction e using Sym2.ind with | _ a b =>
    induction f using Sym2.ind with | _ c d =>
    intro heq
    rcases sortedPair_eq_iff.mp heq with ⟨hac, hbd⟩ | ⟨had, hbc⟩
    · obtain rfl : a = c := Subtype.ext hac
      obtain rfl : b = d := Subtype.ext hbd
      rfl
    · obtain rfl : a = d := Subtype.ext had
      obtain rfl : b = c := Subtype.ext hbc
      exact Sym2.eq_swap
  have himage : pair '' (nodeGraph nodes edges).edgeSet =
      ((edges.filter fun edge => edge.1 ≠ edge.2).map fun edge =>
        sortedPair edge.1 edge.2).toFinset := by
    ext e
    rw [List.coe_toFinset, Set.mem_ofPred_eq, List.mem_map]
    constructor
    · rintro ⟨f, hf, rfl⟩
      induction f using Sym2.ind with | _ a b =>
      obtain ⟨hne, hedge⟩ := SimpleGraph.mem_edgeSet _ |>.mp hf
      rcases hedge with hedge | hedge
      · exact ⟨_, List.mem_filter.mpr ⟨hedge, decide_eq_true hne⟩, rfl⟩
      · exact ⟨_, List.mem_filter.mpr ⟨hedge, decide_eq_true hne.symm⟩,
          sortedPair_eq_iff.mpr (Or.inr ⟨rfl, rfl⟩)⟩
    · rintro ⟨⟨a, b⟩, hmem, rfl⟩
      obtain ⟨hedge, hne⟩ := List.mem_filter.mp hmem
      obtain ⟨ha, hb⟩ := hedges _ hedge
      refine ⟨s(⟨a, ha⟩, ⟨b, hb⟩), ?_, rfl⟩
      exact (SimpleGraph.mem_edgeSet _).mpr ⟨by simpa using hne, Or.inl hedge⟩
  rw [Nat.card_coe_set_eq, ← Set.ncard_image_of_injective _ hinjective, himage,
    Set.ncard_coe_finset]

/-- The diameter of a tree by two sweeps, the second of which starts where the first ended. -/
def doubleSweep {α : Type} [DecidableEq α] (order : SetOrder α) (fuel : ℕ) (graph : Graph α)
    (start : α) : Option ℕ := do
  let (first, _, _) ← farthest (order.within start) fuel graph start
  let (_, diameter, _) ← farthest (order.within first) fuel graph first
  return diameter

/-- The largest of the distances between two nodes, or none if some of them are not connected. -/
structure IsDiameter (nodes : List α) (edges : List (α × α)) (diameter : Option ℕ) : Prop where
  empty : nodes = [] → diameter = some 0
  none_iff : diameter = none ↔ ¬(nodeGraph nodes edges).Preconnected
  greatest : ∀ d ∈ diameter, nodes ≠ [] →
    IsGreatest {k | ∃ a b, (nodeGraph nodes edges).dist a b = k} d

/-- The second of two sweeps of a tree has the largest distance. -/
theorem doubleSweep_spec {fuel d : ℕ} (hedges : ∀ edge ∈ edges, edge.1 ∈ nodes ∧ edge.2 ∈ nodes)
    (htree : (nodeGraph nodes edges).IsTree) (hstart : start ∈ nodes)
    (h : doubleSweep order fuel (adjacency nodes edges false) start = some d) :
    IsGreatest {k | ∃ a b, (nodeGraph nodes edges).dist a b = k} d := by
  have hconnected := htree.connected.preconnected
  obtain ⟨⟨first, d', n⟩, hfirst, h⟩ := Option.bind_eq_some_iff.mp h
  obtain ⟨⟨last, d, n'⟩, hlast, h⟩ := Option.bind_eq_some_iff.mp h
  obtain rfl := Option.some.inj h
  obtain ⟨hmem, hdist, hle⟩ := farthest_of_preconnected hedges hstart hconnected hfirst
  obtain ⟨hmem', hdist', hle'⟩ := farthest_of_preconnected hedges hmem hconnected hlast
  refine ⟨⟨_, _, hdist'⟩, ?_⟩
  rintro k ⟨v, w, rfl⟩
  refine (htree.dist_le_of_farthest (fun a => (hle a).trans hdist.ge) v w).trans ?_
  exact max_le (hle' v) (hle' w)

/-- The loop over all nodes of a connected graph has the largest distance. -/
theorem largestDistance_isGreatest {fuel : ℕ} (hnodup : nodes.Nodup)
    (hedges : ∀ edge ∈ edges, edge.1 ∈ nodes ∧ edge.2 ∈ nodes)
    (hconnected : (nodeGraph nodes edges).Preconnected) (hstart : start ∈ nodes)
    {largest : Option ℕ}
    (h : largestDistance order fuel (adjacency nodes edges false) nodes.length nodes 0 =
      some largest) :
    ∃ d, largest = some d ∧ IsGreatest {k | ∃ a b, (nodeGraph nodes edges).dist a b = k} d := by
  obtain ⟨d, hd, -, hle, hattained⟩ :=
    largestDistance_spec hnodup hedges hconnected (fun _ ha => ha) h
  refine ⟨d, hd, ?_, ?_⟩
  · rcases hattained with rfl | hattained
    · exact ⟨⟨start, hstart⟩, ⟨start, hstart⟩, SimpleGraph.dist_self⟩
    · exact hattained
  · rintro k ⟨a, b, rfl⟩
    exact hle a b a.2

/-- A connected graph with one edge less than nodes is a tree. -/
theorem isTree_iff_card (hnodup : nodes.Nodup)
    (hedges : ∀ edge ∈ edges, edge.1 ∈ nodes ∧ edge.2 ∈ nodes)
    (hconnected : (nodeGraph nodes edges).Preconnected) (hstart : start ∈ nodes) :
    (nodeGraph nodes edges).IsTree ↔
      ((edges.filter fun edge => edge.1 ≠ edge.2).map fun edge =>
        sortedPair edge.1 edge.2).toFinset.card = nodes.length - 1 := by
  have hfinite : Finite {a | a ∈ nodes} := nodes.finite_toSet
  have hcard : Nat.card {a | a ∈ nodes} = nodes.length := by
    rw [Nat.card_coe_set_eq, ← List.coe_toFinset, Set.ncard_coe_finset,
      List.toFinset_card_of_nodup hnodup]
  have hpos := List.length_pos_of_mem hstart
  have hnonempty : Nonempty {a | a ∈ nodes} := ⟨⟨start, hstart⟩⟩
  rw [SimpleGraph.isTree_iff_connected_and_card, card_undirectedEdges hedges, hcard,
    and_iff_right (SimpleGraph.Connected.mk hconnected)]
  omega

/-- For distinct nodes and edges between them, `_all_pairs_diameter` returns the largest distance
between two nodes, or none exactly if they are not all connected. On a tree the two sweeps and the
loop over all nodes come to the same. -/
theorem allPairsDiameter_exact (order : SetOrder α) (hnodup : nodes.Nodup)
    (hedges : ∀ edge ∈ edges, edge.1 ∈ nodes ∧ edge.2 ∈ nodes) : ∀ᶠ fuel in Filter.atTop,
    (∃ diameter, allPairsDiameter order fuel nodes edges = some diameter ∧
      IsDiameter nodes edges diameter) ∧
    ((nodeGraph nodes edges).IsTree → ∀ start ∈ nodes, ∃ d,
      doubleSweep order fuel (adjacency nodes edges false) start = some d ∧
        largestDistance order fuel (adjacency nodes edges false) nodes.length nodes 0 =
          some (some d)) := by
  refine (farthest_isSome (adjacency nodes edges false)).mono fun fuel hfarthest => ?_
  have hdouble : ∀ start, ∃ d,
      doubleSweep order fuel (adjacency nodes edges false) start = some d := by
    intro start
    obtain ⟨⟨first, d, n⟩, hfirst⟩ := hfarthest (order.within start) start
    obtain ⟨⟨last, d', n'⟩, hlast⟩ := hfarthest (order.within first) first
    exact ⟨d', by rw [doubleSweep, hfirst]; simp [hlast]⟩
  obtain ⟨largest, hlargest⟩ := largestDistance_isSome hfarthest order nodes.length nodes 0
  constructor
  · cases nodes with
    | nil =>
        refine ⟨some 0, rfl, fun _ => rfl, ?_, fun d _ hne => absurd rfl hne⟩
        simp only [reduceCtorEq, false_iff, not_not]
        exact fun a => absurd a.2 List.not_mem_nil
    | cons start rest =>
        have hstart : start ∈ start :: rest := List.mem_cons_self
        obtain ⟨⟨first, d, n⟩, hfirst⟩ := hfarthest (order.within start) start
        obtain ⟨⟨last, d', n'⟩, hlast⟩ := hfarthest (order.within first) first
        have hsweep : doubleSweep order fuel (adjacency (start :: rest) edges false) start =
            some d' := by
          rw [doubleSweep, hfirst]
          simp [hlast]
        have hreached := reached_eq_length_iff hnodup hedges hstart hfirst
        rw [allPairsDiameter]
        simp only [hfirst, hlast, hlargest, Option.bind_eq_bind, Option.bind_some]
        by_cases hconnected : (nodeGraph (start :: rest) edges).Preconnected
        · -- the value is the largest distance, whichever way it is found
          rw [if_neg (not_not.mpr (hreached.mpr hconnected))]
          obtain ⟨diameter, hdiameter, hgreatest⟩ : ∃ diameter,
              (if ((edges.filter fun edge => edge.1 ≠ edge.2).map fun edge =>
                  sortedPair edge.1 edge.2).toFinset.card = (start :: rest).length - 1 then
                (some (some d') : Option (Option ℕ)) else some largest) = some (some diameter) ∧
              IsGreatest {k | ∃ a b, (nodeGraph (start :: rest) edges).dist a b = k} diameter := by
            by_cases htree : (nodeGraph (start :: rest) edges).IsTree
            · rw [if_pos ((isTree_iff_card hnodup hedges hconnected hstart).mp htree)]
              exact ⟨d', rfl, doubleSweep_spec hedges htree hstart hsweep⟩
            · rw [if_neg fun h => htree
                ((isTree_iff_card hnodup hedges hconnected hstart).mpr h)]
              obtain ⟨diameter, rfl, hgreatest⟩ :=
                largestDistance_isGreatest hnodup hedges hconnected hstart hlargest
              exact ⟨diameter, rfl, hgreatest⟩
          refine ⟨some diameter, hdiameter, by simp, by simpa using hconnected, ?_⟩
          intro d hd _
          obtain rfl := Option.some.inj hd
          exact hgreatest
        · rw [if_pos fun h => hconnected (hreached.mp h)]
          exact ⟨none, rfl, by simp, by simpa using hconnected, by simp⟩
  · intro htree start hstart
    obtain ⟨d, hd⟩ := hdouble start
    obtain ⟨d', rfl, hgreatest⟩ := largestDistance_isGreatest hnodup hedges
      htree.connected.preconnected hstart hlargest
    refine ⟨d, hd, ?_⟩
    rw [hlargest, (doubleSweep_spec hedges htree hstart hd).unique hgreatest]

/-- The diameter of a triangle with a tail, one edge of which is given in both directions. -/
theorem allPairsDiameter_exact_tail : ∀ᶠ fuel in Filter.atTop,
    (∃ diameter, allPairsDiameter .sorted fuel ["a", "b", "c", "d"]
        [("a", "b"), ("b", "a"), ("b", "c"), ("c", "a"), ("c", "d")] = some diameter ∧
      IsDiameter ["a", "b", "c", "d"]
        [("a", "b"), ("b", "a"), ("b", "c"), ("c", "a"), ("c", "d")] diameter) ∧
    ((nodeGraph ["a", "b", "c", "d"]
        [("a", "b"), ("b", "a"), ("b", "c"), ("c", "a"), ("c", "d")]).IsTree →
      ∀ start ∈ ["a", "b", "c", "d"], ∃ d,
        doubleSweep .sorted fuel (adjacency ["a", "b", "c", "d"]
          [("a", "b"), ("b", "a"), ("b", "c"), ("c", "a"), ("c", "d")] false) start = some d ∧
        largestDistance .sorted fuel (adjacency ["a", "b", "c", "d"]
          [("a", "b"), ("b", "a"), ("b", "c"), ("c", "a"), ("c", "d")] false) 4
            ["a", "b", "c", "d"] 0 = some (some d)) :=
  allPairsDiameter_exact .sorted (by decide) (by decide)

end Netlab
