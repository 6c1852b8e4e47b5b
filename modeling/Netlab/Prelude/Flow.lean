import Netlab.Prelude.RootedPaths
import Mathlib.Algebra.BigOperators.Ring.Finset
import Mathlib.Algebra.Order.BigOperators.Group.Finset
import Mathlib.Data.List.Count
import Mathlib.Logic.Relation
import Mathlib.Tactic.Linarith
import Mathlib.Tactic.Ring

/-!
# Integral flows

A flow on a finite set of nodes gives for every two nodes how much goes from one to the other, less
what goes back, so it is antisymmetric. What leaves a set of nodes that has the source and not the
sink is the value of the flow (`IsFlow.value_eq_cut`). So a flow of value `k` is made of `k` simple
paths that together respect the capacities (`IsFlow.exists_paths`), and no more paths do than a cut
lets through (`Respects.length_le_cut`).
-/

namespace Flow

open Relation

variable {V : Type*} [DecidableEq V]

/-! ## Paths -/

/-- A path from `s` to `t` that meets no node twice. -/
structure IsPath (s t : V) (p : List V) : Prop where
  head : p.head? = some s
  last : p.getLast? = some t
  nodup : p.Nodup

/-- Paths that together use no edge more often than its capacity. -/
structure Respects (c : V → V → ℤ) (s t : V) (paths : List (List V)) : Prop where
  path : ∀ p ∈ paths, IsPath s t p
  count_le : ∀ u v, ((paths.flatMap List.hops).count (u, v) : ℤ) ≤ c u v

omit [DecidableEq V] in
theorem IsPath.singleton (s : V) : IsPath s s [s] :=
  ⟨rfl, rfl, List.nodup_singleton s⟩

omit [DecidableEq V] in
/-- A hop of a path that meets no node twice occurs once. -/
theorem nodup_hops {p : List V} (h : p.Nodup) : p.hops.Nodup := by
  refine List.Nodup.of_map Prod.snd ?_
  rw [List.hops, List.map_snd_zip (by simp)]
  exact h.sublist (List.tail_sublist p)

omit [DecidableEq V] in
/-- Walks can be shortened to paths. -/
theorem exists_path_of_reflTransGen {r : V → V → Prop} {s t : V} (h : ReflTransGen r s t) :
    ∃ p, IsPath s t p ∧ ∀ e ∈ p.hops, r e.1 e.2 := by
  induction h using ReflTransGen.head_induction_on with
  | refl => exact ⟨[t], .singleton t, by simp⟩
  | @head a b hab _ ih =>
      obtain ⟨p, hp, hhops⟩ := ih
      by_cases ha : a ∈ p
      · -- the part of the path from the first node on
        obtain ⟨pre, post, rfl⟩ := List.append_of_mem ha
        refine ⟨a :: post, ⟨rfl, ?_, (List.nodup_append.mp hp.nodup).2.1⟩, fun e he => ?_⟩
        · rw [← hp.last, List.getLast?_append_of_ne_nil _ (List.cons_ne_nil a post)]
        · obtain ⟨u, v⟩ := e
          obtain ⟨pre', post', hsplit⟩ := List.mem_hops_iff.mp he
          refine hhops _ (List.mem_hops_iff.mpr ⟨pre ++ pre', post', ?_⟩)
          rw [hsplit, List.append_assoc]
      · obtain ⟨rest, rfl⟩ : ∃ rest, p = b :: rest := by
          cases p with
          | nil => exact absurd hp.head (by simp)
          | cons x rest => exact ⟨rest, by rw [Option.some.inj hp.head]⟩
        refine ⟨a :: b :: rest, ⟨rfl, ?_, List.nodup_cons.mpr ⟨ha, hp.nodup⟩⟩, ?_⟩
        · rw [List.getLast?_cons_cons, hp.last]
        · rw [List.hops_cons_cons, List.forall_mem_cons]
          exact ⟨hab, hhops⟩

/-- What a path takes out of a node, less what it brings in: something at its ends only. -/
theorem sum_count_hops {U : Finset V} {l : List V} {s t : V} (hl : ∀ x ∈ l, x ∈ U)
    (hhead : l.head? = some s) (hlast : l.getLast? = some t) (u : V) :
    ∑ v ∈ U, ((l.hops.count (u, v) : ℤ) - l.hops.count (v, u)) =
      (if u = s then 1 else 0) - if u = t then 1 else 0 := by
  induction l generalizing s with
  | nil => simp at hhead
  | cons a l ih =>
      obtain rfl := Option.some.inj hhead
      cases l with
      | nil =>
          obtain rfl : a = t := Option.some.inj hlast
          rw [sub_self]
          exact Finset.sum_eq_zero fun v _ => by simp
      | cons b l =>
          have ha := hl a List.mem_cons_self
          have hb := hl b (by simp)
          have hrest := ih (fun x hx => hl x (List.mem_cons_of_mem _ hx)) rfl
            (by rwa [List.getLast?_cons_cons] at hlast)
          -- the first hop leaves the first node
          have hout : ∑ v ∈ U, (if (a, b) = (u, v) then (1 : ℤ) else 0) =
              if u = a then 1 else 0 := by
            by_cases h : u = a
            · subst h
              simp [hb]
            · simp [h, Ne.symm h]
          -- and enters the second one
          have hin : ∑ v ∈ U, (if (a, b) = (v, u) then (1 : ℤ) else 0) =
              if u = b then 1 else 0 := by
            by_cases h : u = b
            · subst h
              simp [ha]
            · simp [h, Ne.symm h]
          have hsplit : ∀ v, ((List.count (u, v) (List.hops (a :: b :: l)) : ℤ) -
                List.count (v, u) (List.hops (a :: b :: l))) =
              ((List.count (u, v) (List.hops (b :: l)) : ℤ) -
                List.count (v, u) (List.hops (b :: l))) +
              ((if (a, b) = (u, v) then (1 : ℤ) else 0) - if (a, b) = (v, u) then 1 else 0) := by
            intro v
            rw [List.hops_cons_cons, List.count_cons, List.count_cons]
            simp only [beq_iff_eq]
            push_cast
            ring
          rw [Finset.sum_congr rfl fun v _ => hsplit v, Finset.sum_add_distrib, hrest,
            Finset.sum_sub_distrib, hout, hin]
          ring

/-! ## Flows -/

/-- A flow of value `k` from `s` to `t` within capacities, on the nodes `U`: `g u v` is what goes
from `u` to `v`, less what goes back. -/
structure IsFlow (U : Finset V) (c g : V → V → ℤ) (s t : V) (k : ℤ) : Prop where
  skew : ∀ u v, g u v = -g v u
  le : ∀ u v, g u v ≤ c u v
  conserved : ∀ u ∈ U, u ≠ s → u ≠ t → ∑ v ∈ U, g u v = 0
  value : ∑ v ∈ U, g s v = k

variable {U : Finset V} {c g : V → V → ℤ} {s t : V} {k : ℤ}

omit [DecidableEq V] in
/-- What goes on inside a set of nodes cancels. -/
theorem sum_sum_eq_zero (h : ∀ u v, g u v = -g v u) (R : Finset V) :
    ∑ u ∈ R, ∑ v ∈ R, g u v = 0 := by
  have hneg : ∑ u ∈ R, ∑ v ∈ R, g u v = -∑ u ∈ R, ∑ v ∈ R, g u v := by
    calc ∑ u ∈ R, ∑ v ∈ R, g u v = ∑ u ∈ R, ∑ v ∈ R, -g v u :=
          Finset.sum_congr rfl fun u _ => Finset.sum_congr rfl fun v _ => h u v
      _ = ∑ v ∈ R, ∑ u ∈ R, -g v u := Finset.sum_comm
      _ = -∑ u ∈ R, ∑ v ∈ R, g u v := by simp only [Finset.sum_neg_distrib]
  omega

/-- The value of a flow is what leaves a set of nodes that has the source and not the sink. -/
theorem IsFlow.value_eq_cut (h : IsFlow U c g s t k) {R : Finset V} (hR : R ⊆ U) (hs : s ∈ R)
    (ht : t ∉ R) : k = ∑ u ∈ R, ∑ v ∈ U \ R, g u v := by
  have hall : ∑ u ∈ R, ∑ v ∈ U, g u v = k := by
    rw [← h.value]
    refine Finset.sum_eq_single s (fun u hu hus => h.conserved u (hR hu) hus fun hut => ?_)
      fun hnot => absurd hs hnot
    exact ht (hut ▸ hu)
  rw [← hall]
  have hsplit : ∀ u ∈ R, ∑ v ∈ U, g u v = ∑ v ∈ U \ R, g u v + ∑ v ∈ R, g u v := fun u _ =>
    (Finset.sum_sdiff hR).symm
  rw [Finset.sum_congr rfl hsplit, Finset.sum_add_distrib, sum_sum_eq_zero h.skew, add_zero]

open Classical in
/-- A flow whose value is positive takes a path. -/
theorem IsFlow.exists_path (h : IsFlow U c g s t k) (hk : 0 < k) (hs : s ∈ U) :
    ∃ p, IsPath s t p ∧ (∀ x ∈ p, x ∈ U) ∧ ∀ e ∈ p.hops, 0 < g e.1 e.2 := by
  let r (u v : V) : Prop := u ∈ U ∧ v ∈ U ∧ 0 < g u v
  have hreach : ReflTransGen r s t := by
    by_contra hnot
    -- otherwise nothing leaves the nodes that the flow comes to
    let R : Finset V := U.filter fun u => ReflTransGen r s u
    have hvalue := h.value_eq_cut (R := R) (Finset.filter_subset _ _)
      (Finset.mem_filter.mpr ⟨hs, .refl⟩) fun ht => hnot (Finset.mem_filter.mp ht).2
    have hle : ∑ u ∈ R, ∑ v ∈ U \ R, g u v ≤ 0 := by
      refine Finset.sum_nonpos fun u hu => Finset.sum_nonpos fun v hv => ?_
      obtain ⟨huU, hsu⟩ := Finset.mem_filter.mp hu
      obtain ⟨hvU, hvR⟩ := Finset.mem_sdiff.mp hv
      by_contra hpos
      exact hvR (Finset.mem_filter.mpr ⟨hvU, hsu.tail ⟨huU, hvU, not_le.mp hpos⟩⟩)
    omega
  obtain ⟨p, hp, hhops⟩ := exists_path_of_reflTransGen hreach
  refine ⟨p, hp, fun x hx => ?_, fun e he => (hhops e he).2.2⟩
  -- a node of the path is the first, or a hop leads to it
  obtain ⟨pre, post, rfl⟩ := List.append_of_mem hx
  rcases List.eq_nil_or_concat' pre with rfl | ⟨pre, y, rfl⟩
  · obtain rfl := Option.some.inj hp.head
    exact hs
  · exact (hhops (y, x) (List.mem_hops_iff.mpr ⟨pre, post, by simp⟩)).2.1

/-- How often a path uses an edge. -/
def uses (p : List V) (u v : V) : ℤ := p.hops.count (u, v)

theorem uses_nonneg (p : List V) (u v : V) : 0 ≤ uses p u v := Int.natCast_nonneg _

/-- A path uses an edge at most once. -/
theorem IsPath.uses_le_one {p : List V} (h : IsPath s t p) (u v : V) : uses p u v ≤ 1 := by
  have hcount := List.nodup_iff_count_le_one.mp (nodup_hops h.nodup) (u, v)
  rw [uses]
  omega

/-- An edge that a path does not use. -/
theorem uses_eq_zero {p : List V} {u v : V} (h : (u, v) ∉ p.hops) : uses p u v = 0 := by
  rw [uses, List.count_eq_zero_of_not_mem h, Nat.cast_zero]

/-- More of a flow along a path, within capacities that leave room for it. -/
theorem IsFlow.push (h : IsFlow U c g s t k) {p : List V} (hp : IsPath s t p)
    (hU : ∀ x ∈ p, x ∈ U) (hst : s ≠ t) (amount : ℤ) {c' : V → V → ℤ}
    (hle : ∀ u v, g u v + amount * (uses p u v - uses p v u) ≤ c' u v) :
    IsFlow U c' (fun u v => g u v + amount * (uses p u v - uses p v u)) s t (k + amount) := by
  have hsum : ∀ u, ∑ v ∈ U, (g u v + amount * (uses p u v - uses p v u)) =
      ∑ v ∈ U, g u v + amount * ((if u = s then 1 else 0) - if u = t then 1 else 0) := by
    intro u
    rw [Finset.sum_add_distrib, ← Finset.mul_sum]
    exact congrArg _ (congrArg _ (sum_count_hops hU hp.head hp.last u))
  constructor
  · intro u v
    rw [h.skew u v]
    ring
  · exact hle
  · intro u hu hus hut
    rw [hsum, h.conserved u hu hus hut, if_neg hus, if_neg hut]
    ring
  · rw [hsum, h.value, if_pos rfl, if_neg hst]
    ring

/-- A flow of value `k` is made of `k` paths that respect the capacities. -/
theorem IsFlow.exists_paths {n : ℕ} (h : IsFlow U c g s t n) (hc : ∀ u v, 0 ≤ c u v)
    (hst : s ≠ t) (hs : s ∈ U) : ∃ paths, paths.length = n ∧ Respects c s t paths := by
  induction n generalizing c g with
  | zero => exact ⟨[], rfl, by simp, by simpa using hc⟩
  | succ n ih =>
      obtain ⟨p, hp, hU, hpos⟩ := h.exists_path (by omega) hs
      -- take the path off the flow and off the capacities
      have hused : ∀ u v, 0 < uses p u v → 0 < g u v := fun u v huse => by
        have hmem : (u, v) ∈ p.hops := by
          by_contra hnot
          rw [uses_eq_zero hnot] at huse
          omega
        exact hpos (u, v) hmem
      have hrest : IsFlow U (fun u v => c u v - uses p u v)
          (fun u v => g u v + -1 * (uses p u v - uses p v u)) s t ((n + 1 : ℕ) + -1) := by
        refine h.push hp hU hst (-1) fun u v => ?_
        have hle := h.le u v
        have hone := hp.uses_le_one v u
        rcases (uses_nonneg p v u).eq_or_lt with hzero | hback
        · omega
        · have hneg := hused v u hback
          have hskew := h.skew u v
          have hge := hc u v
          omega
      rw [show (((n + 1 : ℕ) : ℤ) + -1) = n by push_cast; ring] at hrest
      obtain ⟨paths, hlength, hpaths⟩ := ih hrest fun u v => by
        have hle := h.le u v
        have hge := hc u v
        have hone := hp.uses_le_one u v
        rcases (uses_nonneg p u v).eq_or_lt with hzero | huse
        · omega
        · have hgpos := hused u v huse
          omega
      refine ⟨p :: paths, by rw [List.length_cons, hlength], fun q hq => ?_, fun u v => ?_⟩
      · rcases List.mem_cons.mp hq with rfl | hq
        · exact hp
        · exact hpaths.path q hq
      · have hcount := hpaths.count_le u v
        rw [List.flatMap_cons, List.count_append]
        rw [uses] at hcount
        push_cast
        omega

/-! ## Cuts -/

omit [DecidableEq V] in
/-- A path from inside a set of nodes to outside leaves it on some hop. -/
theorem exists_crossing {R : Set V} {p : List V} {s t : V} (hhead : p.head? = some s)
    (hlast : p.getLast? = some t) (hs : s ∈ R) (ht : t ∉ R) :
    ∃ e ∈ p.hops, e.1 ∈ R ∧ e.2 ∉ R := by
  induction p generalizing s with
  | nil => simp at hhead
  | cons a p ih =>
      obtain rfl := Option.some.inj hhead
      cases p with
      | nil =>
          obtain rfl : a = t := Option.some.inj hlast
          exact absurd hs ht
      | cons b p =>
          by_cases hb : b ∈ R
          · obtain ⟨e, he, hcross⟩ := ih rfl (by rwa [List.getLast?_cons_cons] at hlast) hb
            exact ⟨e, List.mem_cons_of_mem _ he, hcross⟩
          · exact ⟨(a, b), List.mem_cons_self, hs, hb⟩

/-- No more paths respect the capacities than a cut lets through. -/
theorem Respects.length_le_cut {paths : List (List V)} (h : Respects c s t paths)
    (hc : ∀ u v, v ∉ U → c u v = 0) {R : Finset V} (hs : s ∈ R) (ht : t ∉ R) :
    (paths.length : ℤ) ≤ ∑ u ∈ R, ∑ v ∈ U \ R, c u v := by
  have hcross : ∀ p ∈ paths, ∃ e ∈ p.hops, e.1 ∈ R ∧ e.2 ∈ U \ R := by
    intro p hp
    obtain ⟨e, he, hin, hout⟩ := exists_crossing (R := (R : Set V)) (h.path p hp).head
      (h.path p hp).last (Finset.mem_coe.mpr hs) (by simpa using ht)
    refine ⟨e, he, hin, Finset.mem_sdiff.mpr ⟨?_, by simpa using hout⟩⟩
    by_contra hU
    have hcount := h.count_le e.1 e.2
    rw [hc e.1 e.2 hU] at hcount
    have hpos : 0 < (paths.flatMap List.hops).count e :=
      List.count_pos_iff.mpr (List.mem_flatMap.mpr ⟨p, hp, he⟩)
    have heta : (e.1, e.2) = e := rfl
    rw [heta] at hcount
    omega
  -- every path accounts for one crossing
  have hcount : ∀ paths : List (List V), (∀ p ∈ paths, ∃ e ∈ p.hops, e.1 ∈ R ∧ e.2 ∈ U \ R) →
      (paths.length : ℤ) ≤ ∑ u ∈ R, ∑ v ∈ U \ R, ((paths.flatMap List.hops).count (u, v) : ℤ) := by
    intro paths hpaths
    induction paths with
    | nil => simp
    | cons p paths ih =>
        have hrest := ih fun q hq => hpaths q (List.mem_cons_of_mem _ hq)
        obtain ⟨e, he, hin, hout⟩ := hpaths p List.mem_cons_self
        have hone : (1 : ℤ) ≤ ∑ u ∈ R, ∑ v ∈ U \ R, (p.hops.count (u, v) : ℤ) := by
          have hpos : 0 < p.hops.count (e.1, e.2) := List.count_pos_iff.mpr he
          calc (1 : ℤ) ≤ p.hops.count (e.1, e.2) := by omega
            _ ≤ ∑ v ∈ U \ R, (p.hops.count (e.1, v) : ℤ) :=
              Finset.single_le_sum (f := fun v => (p.hops.count (e.1, v) : ℤ))
                (fun _ _ => Int.natCast_nonneg _) hout
            _ ≤ ∑ u ∈ R, ∑ v ∈ U \ R, (p.hops.count (u, v) : ℤ) :=
              Finset.single_le_sum (f := fun u => ∑ v ∈ U \ R, (p.hops.count (u, v) : ℤ))
                (fun _ _ => Finset.sum_nonneg fun _ _ => Int.natCast_nonneg _) hin
        simp only [List.flatMap_cons, List.count_append, Nat.cast_add, Finset.sum_add_distrib,
          List.length_cons, Nat.cast_one]
        omega
  exact (hcount paths hcross).trans
    (Finset.sum_le_sum fun u _ => Finset.sum_le_sum fun v _ => h.count_le u v)

/-- A flow that fills a cut has as many paths as any that respect the capacities. -/
theorem IsFlow.isGreatest {n : ℕ} (h : IsFlow U c g s t n) (hc : ∀ u v, 0 ≤ c u v)
    (hsupport : ∀ u v, v ∉ U → c u v = 0) {R : Finset V} (hR : R ⊆ U) (hs : s ∈ R) (ht : t ∉ R)
    (hfull : ∀ u ∈ R, ∀ v ∈ U \ R, g u v = c u v) :
    IsGreatest {n : ℕ | ∃ paths, paths.length = n ∧ Respects c s t paths} n := by
  refine ⟨h.exists_paths hc (fun hst => ht (hst ▸ hs)) (hR hs), ?_⟩
  rintro m ⟨paths, rfl, hpaths⟩
  have hle := hpaths.length_le_cut hsupport hs ht
  have hvalue := h.value_eq_cut hR hs ht
  have hcut : ∑ u ∈ R, ∑ v ∈ U \ R, g u v = ∑ u ∈ R, ∑ v ∈ U \ R, c u v :=
    Finset.sum_congr rfl fun u hu => Finset.sum_congr rfl fun v hv => hfull u hu v hv
  omega

end Flow
