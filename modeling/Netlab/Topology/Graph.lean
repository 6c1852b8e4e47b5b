import Netlab.Prelude.Comprehension
import Netlab.Prelude.Loop
import Mathlib.Logic.Relation
import Mathlib.Order.Filter.AtTopBot.Basic
import Mathlib.Data.Finset.Union

/-!
# Graphs of nodes

The directed graphs that `netlab/topology.py` builds from lists of nodes and edges, and the searches
on them: breadth first for the nodes that can be reached and for shortest paths, depth first in
three colours for cycles.
-/

variable {α : Type} [DecidableEq α]

namespace Dict

/-- The nodes behind a node; none if the graph does not have it. -/
def successors (graph : Dict α (Finset α)) (node : α) : Finset α := (graph.get? node).getD ∅

/-- An edge, of which both ends become nodes. -/
def addEdge (directed : Bool) (graph : Dict α (Finset α)) (edge : α × α) : Dict α (Finset α) :=
  let graph := graph.set edge.1 (insert edge.2 (graph.successors edge.1))
  let graph := graph.set edge.2 (graph.successors edge.2)
  if directed then graph else graph.set edge.2 (insert edge.1 (graph.successors edge.2))

/-- An edge of a graph. -/
def Adj (graph : Dict α (Finset α)) (a b : α) : Prop := b ∈ graph.successors a

/-- All nodes that a graph speaks of. -/
def nodes (graph : Dict α (Finset α)) : Finset α :=
  graph.keys.toFinset ∪ graph.keys.toFinset.biUnion graph.successors

theorem successors_set (graph : Dict α (Finset α)) (node : α) (s : Finset α) (a : α) :
    (graph.set node s).successors a = if a = node then s else graph.successors a := by
  rw [successors, get?_set]
  split <;> rfl

/-- A node with a successor is a node of the graph. -/
theorem mem_keys_of_adj {graph : Dict α (Finset α)} {a b : α} (h : graph.Adj a b) :
    a ∈ graph.keys := by
  rw [Adj, successors] at h
  cases hget : graph.get? a with
  | some s => exact mem_keys_iff.mpr ⟨s, hget⟩
  | none => simp [hget] at h

/-- The nodes behind a node are among all nodes. -/
theorem successors_subset_nodes (graph : Dict α (Finset α)) (a : α) :
    graph.successors a ⊆ graph.nodes := by
  intro b hb
  refine Finset.mem_union_right _ (Finset.mem_biUnion.mpr ⟨a, ?_, hb⟩)
  exact List.mem_toFinset.mpr (mem_keys_of_adj hb)

/-- What one more edge connects. -/
theorem adj_addEdge {directed : Bool} {graph : Dict α (Finset α)} {edge : α × α} {a b : α} :
    (graph.addEdge directed edge).Adj a b ↔
      graph.Adj a b ∨ (a, b) = edge ∨ (directed = false ∧ (b, a) = edge) := by
  obtain ⟨u, v⟩ := edge
  rw [Adj, Adj, addEdge]
  cases directed <;>
    simp only [if_true, Bool.false_eq_true, if_false, successors_set, Prod.mk.injEq] <;>
    split_ifs <;> simp_all <;> tauto

/-- Both ends of one more edge are nodes. -/
theorem mem_keys_addEdge {directed : Bool} {graph : Dict α (Finset α)} {edge : α × α} {a : α} :
    a ∈ (graph.addEdge directed edge).keys ↔ a ∈ graph.keys ∨ a = edge.1 ∨ a = edge.2 := by
  rw [addEdge]
  cases directed <;> simp only [if_true, Bool.false_eq_true, if_false, mem_keys_set] <;> tauto

end Dict

namespace Netlab

/-- The nodes behind each node. -/
abbrev Graph (α : Type) [DecidableEq α] := Dict α (Finset α)

/-- The graph of nodes and edges (`adjacency`). -/
def adjacency (nodes : List α) (edges : List (α × α)) (directed : Bool) : Graph α :=
  edges.foldl (Dict.addEdge directed) (.ofList (nodes.map fun node => (node, ∅)))

/-- The graph has an edge exactly if it was given, or if its reverse was and the graph is not
directed. -/
theorem adj_adjacency {nodes : List α} {edges : List (α × α)} {directed : Bool} {a b : α} :
    (adjacency nodes edges directed).Adj a b ↔
      (a, b) ∈ edges ∨ (directed = false ∧ (b, a) ∈ edges) := by
  rw [adjacency]
  induction edges using List.reverseRecOn with
  | nil =>
      have hempty : (Dict.ofList (nodes.map fun node => (node, (∅ : Finset α)))).successors a = ∅ := by
        rw [Dict.successors]
        cases hget : (Dict.ofList (nodes.map fun node => (node, (∅ : Finset α)))).get? a with
        | none => rfl
        | some s =>
            obtain ⟨node, -, heq⟩ := List.mem_map.mp (Dict.mem_of_get?_ofList hget)
            rw [← (Prod.mk.inj heq).2]
            rfl
      simp [Dict.Adj, hempty]
  | append_singleton edges edge ih =>
      rw [List.foldl_concat, Dict.adj_addEdge, ih, List.mem_append, List.mem_append,
        List.mem_singleton, List.mem_singleton]
      tauto

/-- The nodes of the graph are those given and the ends of the edges. -/
theorem mem_keys_adjacency {nodes : List α} {edges : List (α × α)} {directed : Bool} {a : α} :
    a ∈ (adjacency nodes edges directed).keys ↔
      a ∈ nodes ∨ ∃ edge ∈ edges, a = edge.1 ∨ a = edge.2 := by
  rw [adjacency]
  induction edges using List.reverseRecOn with
  | nil =>
      rw [List.foldl_nil, Dict.mem_keys_ofList]
      simp
  | append_singleton edges edge ih =>
      rw [List.foldl_concat, Dict.mem_keys_addEdge, ih]
      simp only [List.mem_append, List.mem_singleton, or_and_right, exists_or, exists_eq_left,
        or_assoc]

/-! ## Searches -/

/-- One node of the search for what can be reached: the state holds the nodes seen and the queue. -/
def reachableStep (order : SetOrder α) (graph : Graph α) (state : Finset α × List α) :
    (Finset α × List α) ⊕ Finset α :=
  match state.2 with
  | [] => .inr state.1
  | node :: queue =>
      if node ∈ state.1 then .inl (state.1, queue)
      else
        let seen := insert node state.1
        .inl (seen, queue ++ order.list [node] (graph.successors node \ seen))

/-- The nodes that can be reached from a source (`reachable`). -/
def reachable (order : SetOrder α) (fuel : ℕ) (graph : Graph α) (source : α) :
    Option (Finset α) :=
  Loop.run (fun state => some (reachableStep order graph state)) fuel (∅, [source])

/-- The nodes in the colours of a depth-first search: not yet visited, being visited, done. -/
structure Colours (α : Type) where
  white : Finset α
  gray : Finset α
  black : Finset α

/-- Look at the nodes behind a node, where `visit` visits one of them: whether there is a cycle
among them. -/
def scanSuccessors (visit : α → Colours α → Option (Bool × Colours α)) :
    List α → Colours α → Option (Bool × Colours α)
  | [], colours => some (false, colours)
  | nxt :: rest, colours =>
      if nxt ∈ colours.black then scanSuccessors visit rest colours
      -- a successor that is being visited closes a cycle
      else if nxt ∈ colours.gray then some (true, colours)
      else if nxt ∈ colours.white then
        match visit nxt colours with
        | some (false, colours) => scanSuccessors visit rest colours
        | found => found
      else scanSuccessors visit rest colours

/-- Visit a node: whether there is a cycle among the nodes that this comes to. -/
def visit (order : SetOrder α) (graph : Graph α) :
    ℕ → α → Colours α → Option (Bool × Colours α)
  | 0, _, _ => none
  | fuel + 1, node, colours =>
      let colours := { colours with
        white := colours.white.erase node, gray := insert node colours.gray }
      match scanSuccessors (visit order graph fuel) (order.list [node] (graph.successors node))
          colours with
      | some (false, colours) => some (false, { colours with
          gray := colours.gray.erase node, black := insert node colours.black })
      | found => found

/-- Visit some node that has not been visited. -/
def cycleStep (order : SetOrder α) (fuel : ℕ) (graph : Graph α) (colours : Colours α) :
    Option (Colours α ⊕ Bool) :=
  match order.list [] colours.white with
  | [] => some (.inr false)
  | node :: _ => do
      match ← visit order graph fuel node colours with
      | (true, _) => return .inr true
      | (false, colours) => return .inl colours

/-- Whether a graph has a directed cycle (`has_cycle`). -/
def hasCycle (order : SetOrder α) (fuel : ℕ) (graph : Graph α) : Option Bool :=
  Loop.run (cycleStep order fuel graph) fuel
    { white := graph.keys.toFinset, gray := ∅, black := ∅ }

/-- Take a component out of the nodes that remain. -/
def componentsStep (order : SetOrder α) (fuel : ℕ) (graph : Graph α)
    (state : Finset α × List (Finset α)) :
    Option ((Finset α × List (Finset α)) ⊕ List (Finset α)) :=
  match order.list [] state.1 with
  | [] => some (.inr state.2)
  | start :: _ => do
      let component ← reachable (order.within start) fuel graph start
      return .inl (state.1 \ component, state.2 ++ [component])

/-- The connected components of the undirected graph (`connected_components`). -/
def connectedComponents (order : SetOrder α) (fuel : ℕ) (nodes : List α) (edges : List (α × α)) :
    Option (List (Finset α)) :=
  let graph := adjacency nodes edges false
  Loop.run (componentsStep order fuel graph) fuel (graph.keys.toFinset, [])

/-- One node of the search for a shortest path: the state holds the queue, in which each node comes
with a path to it, and the nodes seen. -/
def shortestPathStep (order : SetOrder α) (graph : Graph α) (target : α)
    (state : List (α × List α) × Finset α) :
    (List (α × List α) × Finset α) ⊕ Option (List α) :=
  match state.1 with
  | [] => .inr none
  | (node, path) :: queue =>
      if node = target then .inr (some path)
      else .inl ((order.list [node] (graph.successors node)).foldl (fun state nxt =>
        -- a node is seen once it is queued, by the first path that gets to it
        if nxt ∈ state.2 then state
        else (state.1 ++ [(nxt, path ++ [nxt])], insert nxt state.2)) (queue, state.2))

/-- A path with as few hops as possible, if there is one (`shortest_path`). -/
def shortestPath (order : SetOrder α) (fuel : ℕ) (graph : Graph α) (source target : α) :
    Option (Option (List α)) :=
  Loop.run (fun state => some (shortestPathStep order graph target state)) fuel
    ([(source, [source])], {source})

/-- One node of the search for simple paths: the state holds the number of paths found and the
stack, in which each node comes with the nodes of a path to it. -/
def simplePathStep (order : SetOrder α) (graph : Graph α) (sink : α) (limit : ℕ)
    (state : ℕ × List (α × Finset α)) : (ℕ × List (α × Finset α)) ⊕ ℕ :=
  match state.2 with
  | [] => .inr state.1
  | (node, seen) :: stack =>
      if state.1 < limit then
        -- a path ends at its first visit of the sink
        if node = sink then .inl (state.1 + 1, stack)
        else .inl (state.1, ((order.list [node] (graph.successors node)).filter (· ∉ seen)).foldl
          (fun stack nxt => (nxt, insert nxt seen) :: stack) stack)
      else .inr state.1

/-- The number of simple paths, up to a limit (`_simple_path_count`). -/
def simplePathCount (order : SetOrder α) (fuel : ℕ) (graph : Graph α) (source sink : α)
    (limit : ℕ) : Option ℕ :=
  Loop.run (fun state => some (simplePathStep order graph sink limit state)) fuel
    (0, [(source, {source})])

end Netlab
