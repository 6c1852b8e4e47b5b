import Netlab.Prelude.ShortestRoutes
import Mathlib.Algebra.BigOperators.Field
import Mathlib.Algebra.BigOperators.Sym
import Mathlib.Algebra.Order.Ring.Rat
import Mathlib.Combinatorics.SimpleGraph.Basic
import Mathlib.Order.WellFounded
import Mathlib.Tactic.FieldSimp

/-!
# Betweenness

The betweenness of a node is the share of the shortest routes that lead through it, summed over the
pairs of other nodes. Summed over the far ends only it is the dependency of a source on the node,
and the dependency on a node is made up of those on the nodes one step farther from the source
(`dependency_eq`). Summed over all sources the dependencies count every pair twice
(`sum_dependency`).
-/

section

variable {α : Type*} {r : α → α → Prop} {s t v w : α} {k m n : ℕ}

/-- One step before a route is at most one farther. -/
theorem Distance.le_succ_first (hvt : Distance r v t k) (hvw : r v w) (hwt : Distance r w t n) :
    k ≤ n + 1 := by
  obtain ⟨route, hroute, hn⟩ := hwt.1
  have hle := hvt.le_length (hroute.cons hvw)
  rw [List.length_cons] at hle
  omega

theorem Distance.exists_of_first (hvw : r v w) (hwt : Distance r w t n) :
    ∃ k, Distance r v t k := by
  obtain ⟨route, hroute, -⟩ := hwt.1
  exact (hroute.cons hvw).exists_distance

/-! ## Shares -/

/-- The share of the shortest routes from one node to another that lead through a third. -/
noncomputable def share (r : α → α → Prop) (v s t : α) : ℚ :=
  (routesThrough r v s t).ncard / (shortestRoutes r s t).ncard

theorem share_eq_zero (h : ¬OnShortest r s v t) : share r v s t = 0 := by
  rw [share, routesThrough_eq_empty h]
  simp

theorem share_eq (h : OnShortest r s v t) : share r v s t =
    (shortestRoutes r s v).ncard * (shortestRoutes r v t).ncard / (shortestRoutes r s t).ncard := by
  rw [share, ncard_routesThrough h, Nat.cast_mul]

/-- There is a shortest route to what can be reached. -/
theorem ncard_shortestRoutes_ne_zero (hfinite : (shortestRoutes r s t).Finite)
    (h : Distance r s t n) : ((shortestRoutes r s t).ncard : ℚ) ≠ 0 :=
  Nat.cast_ne_zero.mpr (Set.ncard_ne_zero_of_mem (shortestRoutes_nonempty h).some_mem hfinite)

/-- Every route leads to its end. -/
theorem share_last (hfinite : (shortestRoutes r s t).Finite) (h : Distance r s t n) :
    share r t s t = 1 := by
  rw [share_eq ⟨n, 0, h, .self r t, h⟩, shortestRoutes_self r t, Set.ncard_singleton, Nat.cast_one,
    mul_one, div_self (ncard_shortestRoutes_ne_zero hfinite h)]

/-- The route from a node to itself leads nowhere else. -/
theorem share_start (h : v ≠ s) : share r v s s = 0 := by
  refine share_eq_zero ?_
  rintro ⟨m, n, hsv, -, hss⟩
  have hzero := hss.unique (.self r s)
  obtain rfl : m = 0 := by omega
  exact h hsv.eq_of_zero.symm

end

variable {α : Type*} {G : SimpleGraph α} {nodes : Finset α} {s t v w : α} {k m n : ℕ}

/-- There are as many shortest routes one way as the other. -/
theorem ncard_shortestRoutes_comm (G : SimpleGraph α) (s t : α) :
    (shortestRoutes G.Adj s t).ncard = (shortestRoutes G.Adj t s).ncard := by
  have himage : shortestRoutes G.Adj t s = List.reverse '' shortestRoutes G.Adj s t := by
    ext route
    rw [mem_shortestRoutes_comm fun _ _ h => h.symm]
    refine ⟨fun h => ⟨_, h, List.reverse_reverse route⟩, ?_⟩
    rintro ⟨other, hother, rfl⟩
    rwa [List.reverse_reverse]
  rw [himage, Set.ncard_image_of_injective _ List.reverse_injective]

/-- The share is the same both ways. -/
theorem share_comm (G : SimpleGraph α) (v s t : α) :
    share G.Adj v s t = share G.Adj v t s := by
  have himage : routesThrough G.Adj v t s = List.reverse '' routesThrough G.Adj v s t := by
    ext route
    constructor
    · rintro ⟨hroute, hv⟩
      refine ⟨route.reverse, ⟨?_, List.mem_reverse.mpr hv⟩, List.reverse_reverse route⟩
      exact (mem_shortestRoutes_comm fun _ _ h => h.symm).mp hroute
    · rintro ⟨other, ⟨hother, hv⟩, rfl⟩
      exact ⟨(mem_shortestRoutes_comm fun _ _ h => h.symm).mp hother, List.mem_reverse.mpr hv⟩
  rw [share, share, himage, Set.ncard_image_of_injective _ List.reverse_injective,
    ncard_shortestRoutes_comm]

/-- A shortest route goes first to a node that is one step nearer to its end. -/
theorem ncard_shortestRoutes_first (hvt : Distance G.Adj v t (n + 1)) {after : Finset α}
    (hafter : ∀ w, w ∈ after ↔ G.Adj v w ∧ Distance G.Adj w t n)
    (hfinite : ∀ w, (shortestRoutes G.Adj t w).Finite) :
    (shortestRoutes G.Adj v t).ncard = ∑ w ∈ after, (shortestRoutes G.Adj w t).ncard := by
  have hsymm : ∀ a b, G.Adj a b → G.Adj b a := fun _ _ h => h.symm
  rw [ncard_shortestRoutes_comm, ncard_shortestRoutes_succ (hvt.symm hsymm) (fun w => ?_) hfinite]
  · exact Finset.sum_congr rfl fun w _ => ncard_shortestRoutes_comm G t w
  · rw [hafter]
    exact ⟨fun h => ⟨h.1.symm, h.2.symm hsymm⟩, fun h => ⟨h.1.symm, h.2.symm hsymm⟩⟩

/-- What leads through a node on the way to another leads on through the nodes that are one step
farther. -/
theorem share_eq_sum (hfinite : ∀ s ∈ nodes, ∀ t, (shortestRoutes G.Adj s t).Finite)
    (hs : s ∈ nodes) (ht : t ∈ nodes) (htv : t ≠ v) (hsv : Distance G.Adj s v m)
    {after : Finset α} (hafter : ∀ w, w ∈ after ↔ G.Adj v w ∧ Distance G.Adj s w (m + 1)) :
    share G.Adj v s t = ∑ w ∈ after, (shortestRoutes G.Adj s v).ncard /
      (shortestRoutes G.Adj s w).ncard * share G.Adj w s t := by
  classical
  by_cases h : OnShortest G.Adj s v t
  · obtain ⟨m', n, hsv', hvt, hst⟩ := id h
    obtain rfl := hsv.unique hsv'
    cases n with
    | zero => exact absurd hvt.eq_of_zero.symm htv
    | succ k =>
        -- the nodes after `v` that lie on a shortest route are one step nearer to its end
        let onward := after.filter fun w => OnShortest G.Adj s w t
        have honward : ∀ w, w ∈ onward ↔ G.Adj v w ∧ Distance G.Adj w t k := by
          intro w
          rw [Finset.mem_filter, hafter]
          constructor
          · rintro ⟨⟨hvw, hsw⟩, m', n, hsw', hwt, hst'⟩
            have hm := hsw.unique hsw'
            have hlength := hst.unique hst'
            obtain rfl : n = k := by omega
            exact ⟨hvw, hwt⟩
          · rintro ⟨hvw, hwt⟩
            obtain ⟨j, hsw⟩ := hsv.exists_of_step hvw
            have hle := hsw.le_succ hsv hvw
            have hge := hst.le_add hsw hwt
            obtain rfl : j = m + 1 := by omega
            refine ⟨⟨hvw, hsw⟩, m + 1, k, hsw, hwt, ?_⟩
            rwa [Nat.add_assoc, Nat.add_comm 1 k]
        have hcount := ncard_shortestRoutes_first hvt honward (hfinite t ht)
        rw [share_eq h, hcount, Nat.cast_sum, Finset.mul_sum, Finset.sum_div]
        refine Finset.sum_subset_zero_on_sdiff (Finset.filter_subset _ _) ?_ ?_
        · intro w hw
          obtain ⟨hw, hnot⟩ := Finset.mem_sdiff.mp hw
          have hoff : ¬OnShortest G.Adj s w t := fun hon =>
            hnot (Finset.mem_filter.mpr ⟨hw, hon⟩)
          rw [share_eq_zero hoff, mul_zero]
        · intro w hw
          obtain ⟨hw, hon⟩ := Finset.mem_filter.mp hw
          have hne := ncard_shortestRoutes_ne_zero (hfinite s hs w) ((hafter w).mp hw).2
          rw [share_eq hon]
          field_simp
  · rw [share_eq_zero h]
    refine (Finset.sum_eq_zero fun w hw => ?_).symm
    obtain ⟨hvw, hsw⟩ := (hafter w).mp hw
    have hoff : ¬OnShortest G.Adj s w t := by
      rintro ⟨m', n, hsw', hwt, hst⟩
      obtain rfl := hsw.unique hsw'
      obtain ⟨j, hvt⟩ := Distance.exists_of_first hvw hwt
      have hle := hvt.le_succ_first hvw hwt
      have hge := hst.le_add hsv hvt
      obtain rfl : j = n + 1 := by omega
      refine h ⟨m, n + 1, hsv, hvt, ?_⟩
      rwa [← Nat.add_assoc, Nat.add_right_comm]
    rw [share_eq_zero hoff, mul_zero]

/-! ## Dependencies -/

variable [DecidableEq α]

/-- How much a source depends on a node: the shares of the routes to all other nodes. -/
noncomputable def dependency (G : SimpleGraph α) (nodes : Finset α) (s v : α) : ℚ :=
  ∑ t ∈ nodes.erase v, share G.Adj v s t

/-- A source does not depend on a node that it does not reach. -/
theorem dependency_eq_zero (h : ∀ n, ¬Distance G.Adj s v n) : dependency G nodes s v = 0 :=
  Finset.sum_eq_zero fun _ _ => share_eq_zero fun ⟨m, _, hsv, _⟩ => h m hsv

/-- The dependency on a node is made up of those on the nodes that are one step farther from the
source. -/
theorem dependency_eq (hnodes : ∀ a b, G.Adj a b → b ∈ nodes) (hs : s ∈ nodes)
    (hsv : Distance G.Adj s v m) {after : Finset α}
    (hafter : ∀ w, w ∈ after ↔ G.Adj v w ∧ Distance G.Adj s w (m + 1)) :
    dependency G nodes s v = ∑ w ∈ after, (shortestRoutes G.Adj s v).ncard /
      (shortestRoutes G.Adj s w).ncard * (1 + dependency G nodes s w) := by
  have hfinite : ∀ s ∈ nodes, ∀ t, (shortestRoutes G.Adj s t).Finite := fun s hs =>
    finite_shortestRoutes nodes.finite_toSet hs hnodes
  have hstep : ∀ w ∈ after, ∑ t ∈ nodes.erase v, share G.Adj w s t =
      1 + dependency G nodes s w := by
    intro w hw
    obtain ⟨hvw, hsw⟩ := (hafter w).mp hw
    -- the neighbour is farther away, so no shortest route to the node leads through it
    have hback : share G.Adj w s v = 0 := by
      refine share_eq_zero ?_
      rintro ⟨m', n, hsw', -, hsv'⟩
      have hm := hsw.unique hsw'
      have hlength := hsv.unique hsv'
      omega
    rw [Finset.sum_erase _ hback, ← Finset.add_sum_erase _ _ (hnodes v w hvw),
      share_last (hfinite s hs w) hsw, dependency]
  calc dependency G nodes s v
      = ∑ t ∈ nodes.erase v, ∑ w ∈ after, (shortestRoutes G.Adj s v).ncard /
          (shortestRoutes G.Adj s w).ncard * share G.Adj w s t := by
        refine Finset.sum_congr rfl fun t ht => ?_
        obtain ⟨htv, ht⟩ := Finset.mem_erase.mp ht
        exact share_eq_sum hfinite hs ht htv hsv hafter
    _ = ∑ w ∈ after, (shortestRoutes G.Adj s v).ncard / (shortestRoutes G.Adj s w).ncard *
          ∑ t ∈ nodes.erase v, share G.Adj w s t := by
        rw [Finset.sum_comm]
        exact Finset.sum_congr rfl fun w _ => (Finset.mul_sum _ _ _).symm
    _ = _ := Finset.sum_congr rfl fun w hw => by rw [hstep w hw]

/-! ## Betweenness -/

/-- The share of the shortest routes between the two nodes of a pair that lead through a third. -/
noncomputable def shareOf (G : SimpleGraph α) (v : α) : Sym2 α → ℚ :=
  Sym2.lift ⟨share G.Adj v, share_comm G v⟩

/-- The share of the shortest routes that lead through a node, summed over the pairs of different
other nodes. -/
noncomputable def betweenness (G : SimpleGraph α) (nodes : Finset α) (v : α) : ℚ :=
  ∑ pair ∈ (nodes.erase v).sym2 with ¬pair.IsDiag, shareOf G v pair

/-- A sum over ordered pairs counts every pair twice. -/
theorem Finset.sum_offDiag_eq (f : Sym2 α → ℚ) (nodes : Finset α) :
    ∑ p ∈ nodes.offDiag, f s(p.1, p.2) = 2 * ∑ pair ∈ nodes.sym2 with ¬pair.IsDiag, f pair := by
  classical
  let _ : LinearOrder α := linearOrderOfSTO WellOrderingRel
  have hup : ∑ pair ∈ nodes.sym2 with ¬pair.IsDiag, f pair =
      ∑ p ∈ nodes.offDiag with p.1 < p.2, f s(p.1, p.2) := by
    rw [← Finset.sum_sym2_filter_not_isDiag]
    exact Finset.sum_congr (Finset.ext fun pair => by simp only [Finset.mem_filter]) fun _ _ => rfl
  have hdown : ∑ p ∈ nodes.offDiag with ¬p.1 < p.2, f s(p.1, p.2) =
      ∑ p ∈ nodes.offDiag with p.1 < p.2, f s(p.1, p.2) := by
    refine Finset.sum_nbij' Prod.swap Prod.swap ?_ ?_ ?_ ?_ ?_
    · rintro ⟨a, b⟩ hp
      simp only [Finset.mem_filter, Finset.mem_offDiag, Prod.fst_swap, Prod.snd_swap] at hp ⊢
      exact ⟨⟨hp.1.2.1, hp.1.1, hp.1.2.2.symm⟩, lt_of_le_of_ne (not_lt.mp hp.2) hp.1.2.2.symm⟩
    · rintro ⟨a, b⟩ hp
      simp only [Finset.mem_filter, Finset.mem_offDiag, Prod.fst_swap, Prod.snd_swap] at hp ⊢
      exact ⟨⟨hp.1.2.1, hp.1.1, hp.1.2.2.symm⟩, not_lt.mpr hp.2.le⟩
    · exact fun _ _ => Prod.swap_swap _
    · exact fun _ _ => Prod.swap_swap _
    · exact fun _ _ => congrArg f Sym2.eq_swap
  rw [← Finset.sum_filter_add_sum_filter_not _ (fun p => p.1 < p.2), hdown, hup, two_mul]

/-- Summed over the sources, the dependencies count every pair twice. -/
theorem sum_dependency (G : SimpleGraph α) (nodes : Finset α) (v : α) :
    ∑ s ∈ nodes.erase v, dependency G nodes s v = 2 * betweenness G nodes v := by
  have hdiag : ∑ p ∈ (nodes.erase v).diag, share G.Adj v p.1 p.2 = 0 := by
    refine Finset.sum_eq_zero ?_
    rintro ⟨a, b⟩ hp
    obtain ⟨ha, hab⟩ := Finset.mem_diag.mp hp
    obtain rfl : a = b := hab
    exact share_start (Finset.ne_of_mem_erase ha).symm
  calc ∑ s ∈ nodes.erase v, dependency G nodes s v
      = ∑ p ∈ nodes.erase v ×ˢ nodes.erase v, share G.Adj v p.1 p.2 :=
        (Finset.sum_product' _ _ _).symm
    _ = ∑ p ∈ (nodes.erase v).offDiag, shareOf G v s(p.1, p.2) := by
        rw [← Finset.diag_union_offDiag, Finset.sum_union (Finset.disjoint_diag_offDiag _), hdiag,
          zero_add]
        rfl
    _ = 2 * betweenness G nodes v := Finset.sum_offDiag_eq _ _
