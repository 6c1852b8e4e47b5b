import Netlab.Prelude.Breadth
import Mathlib.Data.Set.Card.Arithmetic
import Mathlib.Data.Set.Finite.List

/-!
# Counting shortest routes

The shortest routes from one node to another that lead through a third are a shortest route to it
and a shortest route on from it (`ncard_routesThrough`), and a shortest route comes to its end from a
node that is one step nearer (`ncard_shortestRoutes_succ`).
-/

variable {α : Type*} {r : α → α → Prop} {s t v w a : α} {route front back : List α} {k m n : ℕ}

/-! ## Routes in two parts -/

/-- A route that goes on with another one. -/
theorem Route.append (h : Route r s v (front ++ [v])) (h' : Route r v t (v :: back)) :
    Route r s t (front ++ v :: back) := by
  refine ⟨?_, ?_, ?_⟩
  · rw [← h.head]
    cases front <;> rfl
  · rw [List.getLast?_append, h'.last]
    rfl
  · refine List.isChain_append.mpr ⟨h.chain.left_of_append, h'.chain, fun x hx y hy => ?_⟩
    refine (List.isChain_append.mp h.chain).2.2 x hx y ?_
    obtain rfl : v = y := Option.some.inj hy
    rfl

/-- A route through a node is a route to it and a route on from it. -/
theorem Route.split (h : Route r s t (front ++ v :: back)) :
    Route r s v (front ++ [v]) ∧ Route r v t (v :: back) := by
  obtain ⟨hfront, hback, hjoin⟩ := List.isChain_append.mp h.chain
  refine ⟨⟨?_, List.getLast?_concat, ?_⟩, rfl, ?_, hback⟩
  · rw [← h.head]
    cases front <;> rfl
  · refine List.isChain_append.mpr ⟨hfront, List.isChain_singleton v, fun x hx y hy => ?_⟩
    refine hjoin x hx y ?_
    obtain rfl : v = y := Option.some.inj hy
    rfl
  · have hlast := h.last
    rw [List.getLast?_append, List.getLast?_cons] at hlast
    rw [List.getLast?_cons]
    exact hlast

/-- A route the other way. -/
theorem Route.reverse (hsymm : ∀ a b, r a b → r b a) (h : Route r s t route) :
    Route r t s route.reverse := by
  refine ⟨?_, ?_, ?_⟩
  · rw [List.head?_reverse, h.last]
  · rw [List.getLast?_reverse, h.head]
  · rw [List.isChain_reverse]
    exact h.chain.imp fun a b hab => hsymm a b hab

/-- A route ends at its last node. -/
theorem Route.exists_concat (h : Route r s t route) : ∃ front, route = front ++ [t] := by
  rcases List.eq_nil_or_concat' route with rfl | ⟨front, last, rfl⟩
  · exact absurd h.head (by simp)
  · obtain rfl : last = t := by simpa using h.last
    exact ⟨front, rfl⟩

/-- A route starts at its first node. -/
theorem Route.exists_cons (h : Route r s t route) : ∃ back, route = s :: back := by
  rcases h.eq_or_cons with ⟨-, rfl⟩ | ⟨a, after, -, -, rfl⟩
  · exact ⟨[], rfl⟩
  · exact ⟨after, rfl⟩

/-- A route keeps to the nodes that steps lead to. -/
theorem Route.forall_mem {nodes : Set α} (hs : s ∈ nodes) (hnodes : ∀ a b, r a b → b ∈ nodes)
    (h : Route r s t route) : ∀ a ∈ route, a ∈ nodes := by
  refine h.rec_concat (motive := fun _ route => ∀ a ∈ route, a ∈ nodes) (by simpa using hs) ?_
  intro a b before _ hab ih c hc
  rcases List.mem_append.mp hc with hc | hc
  · exact ih c hc
  · rw [List.mem_singleton.mp hc]
    exact hnodes a b hab

/-! ## Distances along routes -/

/-- What can be reached has a distance. -/
theorem Route.exists_distance (h : Route r s t route) : ∃ n, Distance r s t n := by
  classical
  have hex : ∃ k, ∃ route, Route r s t route ∧ route.length = k + 1 :=
    ⟨route.length - 1, route, h, (Nat.sub_add_cancel h.length_pos).symm⟩
  exact ⟨Nat.find hex, Nat.find_spec hex, fun k hk => Nat.find_min' hex hk⟩

theorem Distance.self (r : α → α → Prop) (s : α) : Distance r s s 0 :=
  distance_of_route (.singleton r s) rfl fun _ hother => hother.length_pos

theorem Distance.eq_of_zero (h : Distance r s t 0) : s = t := by
  obtain ⟨route, hroute, hlength⟩ := h.1
  obtain ⟨back, rfl⟩ := hroute.exists_cons
  obtain ⟨front, hfront⟩ := hroute.exists_concat
  rw [List.length_cons, Nat.add_right_cancel_iff, List.length_eq_zero_iff] at hlength
  rw [hlength] at hfront
  cases front with
  | nil => exact (List.cons.inj hfront).1
  | cons _ _ => simp at hfront

/-- The way through a third node is no shorter. -/
theorem Distance.le_add (hst : Distance r s t k) (hsv : Distance r s v m) (hvt : Distance r v t n) :
    k ≤ m + n := by
  obtain ⟨first, hfirst, hm⟩ := hsv.1
  obtain ⟨second, hsecond, hn⟩ := hvt.1
  obtain ⟨front, rfl⟩ := hfirst.exists_concat
  obtain ⟨back, rfl⟩ := hsecond.exists_cons
  have hle := hst.le_length (hfirst.append hsecond)
  simp only [List.length_append, List.length_cons, List.length_nil] at hle hm hn
  omega

/-- One step more is at most one farther. -/
theorem Distance.le_succ (hst : Distance r s t k) (hsv : Distance r s v m) (hvt : r v t) :
    k ≤ m + 1 := by
  obtain ⟨route, hroute, hm⟩ := hsv.1
  have hle := hst.le_length (hroute.concat hvt)
  rw [List.length_append, List.length_singleton] at hle
  omega

theorem Distance.exists_of_step (hsv : Distance r s v m) (hvt : r v t) : ∃ k, Distance r s t k := by
  obtain ⟨route, hroute, -⟩ := hsv.1
  exact (hroute.concat hvt).exists_distance

theorem Distance.symm (hsymm : ∀ a b, r a b → r b a) (h : Distance r s t n) :
    Distance r t s n := by
  obtain ⟨route, hroute, hlength⟩ := h.1
  refine distance_of_route (hroute.reverse hsymm) (by rw [List.length_reverse, hlength]) ?_
  intro other hother
  rw [← List.length_reverse]
  exact h.le_length (hother.reverse hsymm)

/-- A node lies on a shortest route from one node to another. -/
def OnShortest (r : α → α → Prop) (s v t : α) : Prop :=
  ∃ m n, Distance r s v m ∧ Distance r v t n ∧ Distance r s t (m + n)

/-! ## Shortest routes -/

/-- The shortest routes from one node to another. -/
def shortestRoutes (r : α → α → Prop) (s t : α) : Set (List α) :=
  {route | Route r s t route ∧ ∀ other, Route r s t other → route.length ≤ other.length}

/-- The shortest routes from one node to another that lead through a third. -/
def routesThrough (r : α → α → Prop) (v s t : α) : Set (List α) :=
  {route | route ∈ shortestRoutes r s t ∧ v ∈ route}

/-- The shortest routes are those of the length of the distance. -/
theorem mem_shortestRoutes (h : Distance r s t n) :
    route ∈ shortestRoutes r s t ↔ Route r s t route ∧ route.length = n + 1 := by
  refine and_congr_right fun hroute => ⟨fun hmin => ?_, fun hlength other hother => ?_⟩
  · obtain ⟨other, hother, hlength⟩ := h.1
    exact le_antisymm (hlength ▸ hmin other hother) (h.le_length hroute)
  · rw [hlength]
    exact h.le_length hother

theorem shortestRoutes_nonempty (h : Distance r s t n) : (shortestRoutes r s t).Nonempty := by
  obtain ⟨route, hroute, hlength⟩ := h.1
  exact ⟨route, (mem_shortestRoutes h).mpr ⟨hroute, hlength⟩⟩

theorem shortestRoutes_self (r : α → α → Prop) (s : α) : shortestRoutes r s s = {[s]} := by
  ext route
  rw [mem_shortestRoutes (.self r s), Set.mem_singleton_iff]
  constructor
  · rintro ⟨hroute, hlength⟩
    obtain ⟨back, rfl⟩ := hroute.exists_cons
    simpa using hlength
  · rintro rfl
    exact ⟨.singleton r s, rfl⟩

/-- Reading routes backwards turns the shortest routes one way into those the other way. -/
theorem mem_shortestRoutes_comm (hsymm : ∀ a b, r a b → r b a) :
    route ∈ shortestRoutes r s t ↔ route.reverse ∈ shortestRoutes r t s := by
  have hturn : ∀ {s t : α} {route : List α}, route ∈ shortestRoutes r s t →
      route.reverse ∈ shortestRoutes r t s := by
    rintro s t route ⟨hroute, hmin⟩
    refine ⟨hroute.reverse hsymm, fun other hother => ?_⟩
    rw [List.length_reverse, ← @List.length_reverse _ other]
    exact hmin _ (hother.reverse hsymm)
  exact ⟨hturn, fun h => by simpa using hturn h⟩

/-- Among finitely many nodes there are finitely many shortest routes. -/
theorem finite_shortestRoutes {nodes : Set α} (hfinite : nodes.Finite) (hs : s ∈ nodes)
    (hnodes : ∀ a b, r a b → b ∈ nodes) (t : α) : (shortestRoutes r s t).Finite := by
  rcases (shortestRoutes r s t).eq_empty_or_nonempty with hempty | ⟨shortest, hshortest⟩
  · rw [hempty]
    exact Set.finite_empty
  have : Finite nodes := hfinite
  refine ((List.finite_length_eq nodes shortest.length).image (List.map Subtype.val)).subset ?_
  intro route hroute
  have hmem := hroute.1.forall_mem hs hnodes
  refine ⟨route.attachWith (· ∈ nodes) hmem, ?_, List.attachWith_map_subtype_val hmem⟩
  rw [Set.mem_ofPred_eq, List.length_attachWith]
  exact le_antisymm (hroute.2 _ hshortest.1) (hshortest.2 _ hroute.1)

/-- A shortest route through a node is a shortest route to it and one on from it. -/
theorem routesThrough_eq_image (hsv : Distance r s v m) (hvt : Distance r v t n)
    (hst : Distance r s t (m + n)) :
    routesThrough r v s t = (fun parts : List α × List α => parts.1 ++ parts.2.tail) ''
      (shortestRoutes r s v ×ˢ shortestRoutes r v t) := by
  ext route
  constructor
  · rintro ⟨hroute, hv⟩
    obtain ⟨hroute, hlength⟩ := (mem_shortestRoutes hst).mp hroute
    -- cut at the node in between, both parts are routes, and neither can be longer than needed
    obtain ⟨front, back, rfl⟩ := List.append_of_mem hv
    obtain ⟨hfront, hback⟩ := hroute.split
    have hm := hsv.le_length hfront
    have hn := hvt.le_length hback
    simp only [List.length_append, List.length_cons, List.length_nil] at hm hn hlength
    refine ⟨(front ++ [v], v :: back), ⟨(mem_shortestRoutes hsv).mpr ⟨hfront, ?_⟩,
      (mem_shortestRoutes hvt).mpr ⟨hback, ?_⟩⟩, by simp⟩
    · simp only [List.length_append, List.length_cons, List.length_nil]
      omega
    · rw [List.length_cons]
      omega
  · rintro ⟨⟨first, second⟩, hparts, rfl⟩
    obtain ⟨hfirst, hm⟩ := (mem_shortestRoutes hsv).mp hparts.1
    obtain ⟨hsecond, hn⟩ := (mem_shortestRoutes hvt).mp hparts.2
    dsimp only at hfirst hsecond hm hn ⊢
    obtain ⟨front, rfl⟩ := hfirst.exists_concat
    obtain ⟨back, rfl⟩ := hsecond.exists_cons
    have hjoin : front ++ [v] ++ (v :: back).tail = front ++ v :: back := by simp
    rw [hjoin]
    refine ⟨(mem_shortestRoutes hst).mpr ⟨hfirst.append hsecond, ?_⟩, by simp⟩
    simp only [List.length_append, List.length_cons, List.length_nil] at hm hn ⊢
    omega

/-- The shortest routes through a node that lies on one. -/
theorem ncard_routesThrough (h : OnShortest r s v t) :
    (routesThrough r v s t).ncard =
      (shortestRoutes r s v).ncard * (shortestRoutes r v t).ncard := by
  obtain ⟨m, n, hsv, hvt, hst⟩ := h
  rw [routesThrough_eq_image hsv hvt hst, ← Set.ncard_prod]
  refine Set.InjOn.ncard_image ?_
  rintro ⟨first, second⟩ ⟨hfirst, hsecond⟩ ⟨first', second'⟩ ⟨hfirst', hsecond'⟩ heq
  obtain ⟨-, hm⟩ := (mem_shortestRoutes hsv).mp hfirst
  obtain ⟨-, hm'⟩ := (mem_shortestRoutes hsv).mp hfirst'
  obtain ⟨back, hback⟩ := hsecond.1.exists_cons
  obtain ⟨back', hback'⟩ := hsecond'.1.exists_cons
  dsimp only at hm hm' hback hback' heq
  obtain ⟨rfl, htail⟩ := List.append_inj heq (hm.trans hm'.symm)
  rw [hback, hback'] at htail ⊢
  rw [List.tail_cons, List.tail_cons] at htail
  rw [htail]

/-- A node that a shortest route leads through lies on one. -/
theorem onShortest_of_mem (h : route ∈ routesThrough r v s t) : OnShortest r s v t := by
  obtain ⟨⟨hroute, hmin⟩, hv⟩ := h
  obtain ⟨front, back, rfl⟩ := List.append_of_mem hv
  obtain ⟨hfront, hback⟩ := hroute.split
  obtain ⟨m, hsv⟩ := hfront.exists_distance
  obtain ⟨n, hvt⟩ := hback.exists_distance
  obtain ⟨k, hst⟩ := hroute.exists_distance
  have hm := hsv.le_length hfront
  have hn := hvt.le_length hback
  have hk := hst.le_add hsv hvt
  have hlength := ((mem_shortestRoutes hst).mp ⟨hroute, hmin⟩).2
  simp only [List.length_append, List.length_cons, List.length_nil] at hm hn hlength
  obtain rfl : k = m + n := by omega
  exact ⟨m, n, hsv, hvt, hst⟩

/-- No shortest route leads through a node that lies on none. -/
theorem routesThrough_eq_empty (h : ¬OnShortest r s v t) : routesThrough r v s t = ∅ :=
  Set.eq_empty_of_forall_notMem fun _ hroute => h (onShortest_of_mem hroute)

/-- A shortest route comes to its end from a node that is one step nearer. -/
theorem ncard_shortestRoutes_succ (hst : Distance r s t (n + 1)) {before : Finset α}
    (hbefore : ∀ a, a ∈ before ↔ r a t ∧ Distance r s a n)
    (hfinite : ∀ a, (shortestRoutes r s a).Finite) :
    (shortestRoutes r s t).ncard = ∑ a ∈ before, (shortestRoutes r s a).ncard := by
  -- a shortest route is one to a node before its end, followed by the end
  have hsplit : shortestRoutes r s t =
      ⋃ a ∈ (before : Set α), (fun front => front ++ [t]) '' shortestRoutes r s a := by
    ext route
    rw [Set.mem_iUnion₂, mem_shortestRoutes hst]
    constructor
    · rintro ⟨hroute, hlength⟩
      rcases hroute.eq_or_concat with ⟨-, rfl⟩ | ⟨a, front, hfront, hat, rfl⟩
      · simp at hlength
      rw [List.length_append, List.length_singleton, Nat.add_right_cancel_iff] at hlength
      obtain ⟨m, hsa⟩ := hfront.exists_distance
      have hm := hsa.le_length hfront
      have hn := hst.le_succ hsa hat
      obtain rfl : m = n := by omega
      exact ⟨a, (hbefore a).mpr ⟨hat, hsa⟩, front,
        (mem_shortestRoutes hsa).mpr ⟨hfront, hlength⟩, rfl⟩
    · rintro ⟨a, ha, front, hfront, rfl⟩
      obtain ⟨hat, hsa⟩ := (hbefore a).mp ha
      obtain ⟨hfront, hlength⟩ := (mem_shortestRoutes hsa).mp hfront
      exact ⟨hfront.concat hat, by simp [hlength]⟩
  -- the node before the end tells the parts from one another
  have hdisjoint : (before : Set α).PairwiseDisjoint
      fun a => (fun front => front ++ [t]) '' shortestRoutes r s a := by
    intro a _ b _ hab
    refine Set.disjoint_left.mpr ?_
    rintro _ ⟨front, hfront, rfl⟩ ⟨front', hfront', heq⟩
    obtain rfl : front' = front := List.append_cancel_right heq
    exact hab (Option.some.inj (hfront.1.last.symm.trans hfront'.1.last))
  rw [hsplit, Set.Finite.ncard_biUnion before.finite_toSet (fun a _ => (hfinite a).image _) hdisjoint,
    finsum_mem_coe_finset]
  refine Finset.sum_congr rfl fun a _ => Set.ncard_image_of_injective _ fun _ _ heq => ?_
  exact List.append_cancel_right heq
