import Mathlib.Combinatorics.SimpleGraph.Acyclic
import Mathlib.Combinatorics.SimpleGraph.Metric

/-!
# Distances in trees

In a tree every path is as short as possible, so distances add up along it. Two pairs of nodes can
therefore be regrouped without getting closer (`IsTree.four_point`), and the node that is farthest
from any node is an end of a longest path (`IsTree.dist_le_of_farthest`).
-/

namespace SimpleGraph

variable {V : Type*} {G : SimpleGraph V} {u v w x y : V}

/-- Two paths that meet at the end of the first only make one path. -/
theorem Walk.IsPath.append {p : G.Walk u v} {q : G.Walk v w} (hp : p.IsPath) (hq : q.IsPath)
    (h : ∀ c ∈ p.support, c ∈ q.support → c = v) : (p.append q).IsPath := by
  have hsupport := hq.support_nodup
  rw [← Walk.cons_tail_support, List.nodup_cons] at hsupport
  rw [Walk.isPath_def, Walk.support_append, List.nodup_append]
  refine ⟨hp.support_nodup, hsupport.2, fun a ha b hb hab => ?_⟩
  obtain rfl := hab
  obtain rfl := h a ha (List.mem_of_mem_tail hb)
  exact hsupport.1 hb

/-- A path of a tree is as long as its ends are apart. -/
theorem IsTree.length_eq_dist (h : G.IsTree) {p : G.Walk u v} (hp : p.IsPath) :
    p.length = G.dist u v := by
  obtain ⟨q, hq, hlength⟩ := h.connected.exists_path_of_dist u v
  rw [← hlength, (h.existsUnique_path u v).unique hp hq]

/-- Distances add up along a path. -/
theorem IsTree.dist_add_dist (h : G.IsTree) {p : G.Walk x y} (hp : p.IsPath) {c : V}
    (hc : c ∈ p.support) : G.dist x c + G.dist c y = G.dist x y := by
  classical
  rw [← h.length_eq_dist (hp.takeUntil hc), ← h.length_eq_dist (hp.dropUntil hc),
    ← Walk.length_append, Walk.take_spec, h.length_eq_dist hp]

/-- From a node outside, a path is entered through one of its nodes, wherever one goes on it. -/
theorem IsTree.exists_gate (h : G.IsTree) {p : G.Walk x y} (hp : p.IsPath) (z : V) :
    ∃ m ∈ p.support, G.dist x m + G.dist m z = G.dist x z ∧
      G.dist y m + G.dist m z = G.dist y z := by
  classical
  -- the node of the path that is closest
  obtain ⟨m, hm, hclosest⟩ := p.support.toFinset.exists_min_image (fun c => G.dist c z)
    ⟨x, List.mem_toFinset.mpr p.start_mem_support⟩
  have hm := List.mem_toFinset.mp hm
  obtain ⟨q, hq, hlength⟩ := h.connected.exists_path_of_dist m z
  have hmeet : ∀ c ∈ p.support, c ∈ q.support → c = m := by
    intro c hcp hcq
    have hle := hclosest c (List.mem_toFinset.mpr hcp)
    have hsum := h.dist_add_dist hq hcq
    exact (h.connected.dist_eq_zero_iff.mp (by omega)).symm
  refine ⟨m, hm, ?_, ?_⟩
  · have hpath := (hp.takeUntil hm).append hq fun c hc =>
      hmeet c (p.support_takeUntil_subset_support hm hc)
    exact h.dist_add_dist hpath (by simp)
  · have hpath := (hp.dropUntil hm).reverse.append hq fun c hc => by
      rw [Walk.support_reverse, List.mem_reverse] at hc
      exact hmeet c (p.support_dropUntil_subset_support hm hc)
    exact h.dist_add_dist hpath (by simp)

/-- Two pairs of nodes of a tree are together no farther apart than one of the other two ways to
pair them. -/
theorem IsTree.four_point (h : G.IsTree) (x y z w : V) :
    G.dist x y + G.dist z w ≤
      max (G.dist x z + G.dist y w) (G.dist x w + G.dist y z) := by
  classical
  obtain ⟨p, hp, -⟩ := h.connected.exists_path_of_dist x y
  obtain ⟨m, hm, hxm, hym⟩ := h.exists_gate hp z
  obtain ⟨n, hn, hxn, hyn⟩ := h.exists_gate hp w
  have hpm := h.dist_add_dist hp hm
  have hpn := h.dist_add_dist hp hn
  have htriangle : G.dist z w ≤ G.dist m z + G.dist m n + G.dist n w := by
    have hzn := h.connected.dist_triangle (u := z) (v := m) (w := n)
    have hzw := h.connected.dist_triangle (u := z) (v := n) (w := w)
    rw [G.dist_comm (u := z) (v := m)] at hzn
    omega
  rw [G.dist_comm (u := y) (v := m)] at hym
  rw [G.dist_comm (u := y) (v := n)] at hyn
  -- one of the two nodes through which the path is entered is met before the other
  have hsplit : n ∈ ((p.takeUntil m hm).append (p.dropUntil m hm)).support := by
    rwa [Walk.take_spec]
  rcases Walk.mem_support_append_iff _ _ |>.mp hsplit with hbefore | hafter
  · have hsum := h.dist_add_dist (hp.takeUntil hm) hbefore
    rw [G.dist_comm (u := n) (v := m)] at hsum
    omega
  · have hsum := h.dist_add_dist (hp.dropUntil hm) hafter
    omega

/-- No two nodes are farther apart than one of them is from a node that is farthest from
some node. -/
theorem IsTree.dist_le_of_farthest (h : G.IsTree) {s u : V} (hu : ∀ v, G.dist s v ≤ G.dist s u)
    (v w : V) : G.dist v w ≤ max (G.dist u v) (G.dist u w) := by
  have hfour := h.four_point v w s u
  have hv := hu v
  have hw := hu w
  rw [G.dist_comm (u := v) (v := s), G.dist_comm (u := w) (v := u), G.dist_comm (u := v) (v := u),
    G.dist_comm (u := w) (v := s)] at hfour
  omega

end SimpleGraph
