import Netlab.Prelude.Breadth
import Netlab.Topology.Graph
import Mathlib.Combinatorics.SimpleGraph.Metric

/-!
# Undirected graphs

What `adjacency` builds without directions is, apart from loops, the simple graph of the edges. A
route in the one is a walk in the other, so what can be reached and how far it is are the same in
both.
-/

namespace Netlab

open Relation

variable {α : Type} {nodes : List α} {edges : List (α × α)} {vertices : Set α}

/-- The undirected simple graph of a list of edges, without loops. -/
def edgeGraph (edges : List (α × α)) : SimpleGraph α :=
  .fromRel fun a b => (a, b) ∈ edges

theorem edgeGraph_adj {a b : α} :
    (edgeGraph edges).Adj a b ↔ a ≠ b ∧ ((a, b) ∈ edges ∨ (b, a) ∈ edges) :=
  Iff.rfl

variable [DecidableEq α]

/-- Without directions, different nodes are joined in both directions or not at all. -/
theorem adj_undirected {a b : α} :
    (adjacency nodes edges false).Adj a b ↔ (a, b) ∈ edges ∨ (b, a) ∈ edges := by
  simp [adj_adjacency]

/-- A walk meets the nodes of a route. -/
theorem exists_route_of_walk (nodes : List α) {a b : vertices}
    (walk : ((edgeGraph edges).induce vertices).Walk a b) :
    ∃ route, Route (adjacency nodes edges false).Adj a.1 b.1 route ∧
      route.length = walk.length + 1 := by
  induction walk with
  | nil => exact ⟨_, .singleton _ _, rfl⟩
  | cons hadj _ ih =>
      obtain ⟨route, hroute, hlength⟩ := ih
      exact ⟨_, .cons (adj_undirected.mpr hadj.2) hroute, by rw [List.length_cons, hlength]; rfl⟩

/-- A route becomes a walk when the steps that stay where they are are left out. -/
theorem exists_walk_of_route (hclosed : ∀ edge ∈ edges, edge.1 ∈ vertices ∧ edge.2 ∈ vertices)
    {a : vertices} {b : α} {route : List α}
    (h : Route (adjacency nodes edges false).Adj a.1 b route) :
    ∃ (hb : b ∈ vertices) (walk : ((edgeGraph edges).induce vertices).Walk a ⟨b, hb⟩),
      walk.length + 1 ≤ route.length := by
  refine h.rec_concat (motive := fun b route => ∃ (hb : b ∈ vertices)
    (walk : ((edgeGraph edges).induce vertices).Walk a ⟨b, hb⟩), walk.length + 1 ≤ route.length)
    ⟨a.2, .nil, le_rfl⟩ ?_
  rintro b c before - hbc ⟨hb, walk, hlength⟩
  have hedge := adj_undirected.mp hbc
  have hc : c ∈ vertices := hedge.elim (fun h => (hclosed _ h).2) fun h => (hclosed _ h).1
  refine ⟨hc, ?_⟩
  by_cases hne : b = c
  · obtain rfl := hne
    exact ⟨walk, hlength.trans (by simp)⟩
  · have hadj : ((edgeGraph edges).induce vertices).Adj ⟨b, hb⟩ ⟨c, hc⟩ := ⟨hne, hedge⟩
    exact ⟨walk.concat hadj, by simpa using hlength⟩

/-- What can be reached is the same in both graphs. -/
theorem reachable_iff_undirected (nodes : List α)
    (hclosed : ∀ edge ∈ edges, edge.1 ∈ vertices ∧ edge.2 ∈ vertices) {a b : vertices} :
    ((edgeGraph edges).induce vertices).Reachable a b ↔
      ReflTransGen (adjacency nodes edges false).Adj a.1 b.1 := by
  rw [← exists_route_iff]
  constructor
  · rintro ⟨walk⟩
    obtain ⟨route, hroute, -⟩ := exists_route_of_walk nodes walk
    exact ⟨route, hroute⟩
  · rintro ⟨route, hroute⟩
    obtain ⟨_, walk, -⟩ := exists_walk_of_route hclosed hroute
    exact walk.reachable

/-- Distances are the same in both graphs. -/
theorem distance_iff_undirected
    (hclosed : ∀ edge ∈ edges, edge.1 ∈ vertices ∧ edge.2 ∈ vertices) {a b : vertices} {n : ℕ} :
    Distance (adjacency nodes edges false).Adj a.1 b.1 n ↔
      ((edgeGraph edges).induce vertices).Reachable a b ∧
        ((edgeGraph edges).induce vertices).dist a b = n := by
  constructor
  · intro h
    obtain ⟨⟨route, hroute, hlength⟩, -⟩ := id h
    obtain ⟨_, walk, hwalk⟩ := exists_walk_of_route hclosed hroute
    refine ⟨walk.reachable, le_antisymm ?_ ?_⟩
    · exact (SimpleGraph.dist_le walk).trans (by omega)
    · obtain ⟨shortest, hshortest⟩ := walk.reachable.exists_walk_length_eq_dist
      obtain ⟨other, hother, hle⟩ := exists_route_of_walk nodes shortest
      have hmin := h.le_length hother
      rw [hle, hshortest] at hmin
      exact Nat.le_of_succ_le_succ hmin
  · rintro ⟨hreach, rfl⟩
    obtain ⟨walk, hwalk⟩ := hreach.exists_walk_length_eq_dist
    obtain ⟨route, hroute, hlength⟩ := exists_route_of_walk nodes walk
    refine distance_of_route hroute (by rw [hlength, hwalk]) fun other hother => ?_
    obtain ⟨_, shorter, hshorter⟩ := exists_walk_of_route hclosed hother
    exact (Nat.add_le_add_right (SimpleGraph.dist_le shorter) 1).trans hshorter

end Netlab
