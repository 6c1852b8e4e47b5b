import Mathlib.Data.Finset.Dedup
import Mathlib.Data.Finset.Lattice.Basic
import Mathlib.Data.List.Chain
import Mathlib.Data.List.Nodup
import Mathlib.Logic.Relation
import Mathlib.Order.Bounds.Basic

/-!
# Breadth-first searches

A search that takes the nodes of a queue in turn and puts those that are new behind it comes to the
nodes in the order of their distance. `Breadth` says what holds while it runs: every node that the
search has come to has a label, which is the length of a route to it, and the nodes behind one that
it has taken are labelled at most one higher. From that alone the label of the first node in the
queue is its distance (`Breadth.distance_head`), and so are the labels of the nodes taken
(`Breadth.distance`).
-/

variable {α : Type*} {r : α → α → Prop} {s t a b : α} {route : List α}

/-! ## Routes -/

/-- A list of nodes from one node to another, each of which leads to the next. -/
structure Route (r : α → α → Prop) (s t : α) (route : List α) : Prop where
  head : route.head? = some s
  last : route.getLast? = some t
  chain : route.IsChain r

/-- The route that stays where it is. -/
theorem Route.singleton (r : α → α → Prop) (s : α) : Route r s s [s] :=
  ⟨rfl, rfl, List.isChain_singleton s⟩

/-- A route that goes one step further. -/
theorem Route.concat (h : Route r s a route) (hab : r a b) : Route r s b (route ++ [b]) := by
  refine ⟨?_, List.getLast?_concat, h.chain.append (List.isChain_singleton b) ?_⟩
  · rw [List.head?_append, h.head]
    rfl
  · intro x hx y hy
    obtain rfl : a = x := Option.some.inj (h.last.symm.trans hx)
    obtain rfl : b = y := Option.some.inj hy
    exact hab

/-- A route that starts one step earlier. -/
theorem Route.cons (hab : r a b) (h : Route r b t route) : Route r a t (a :: route) := by
  refine ⟨rfl, ?_, List.isChain_cons.mpr ⟨fun y hy => ?_, h.chain⟩⟩
  · rw [List.getLast?_cons, h.last]
    rfl
  · obtain rfl : b = y := Option.some.inj (h.head.symm.trans hy)
    exact hab

/-- A route stays where it is, or comes to its end from the node before. -/
theorem Route.eq_or_concat (h : Route r s t route) :
    (s = t ∧ route = [s]) ∨ ∃ a before, Route r s a before ∧ r a t ∧ route = before ++ [t] := by
  rcases List.eq_nil_or_concat' route with rfl | ⟨before, last, rfl⟩
  · exact absurd h.head (by simp)
  obtain rfl : last = t := by simpa using h.last
  cases hbefore : before.getLast? with
  | none =>
      rw [List.getLast?_eq_none_iff.mp hbefore] at h ⊢
      exact Or.inl ⟨(Option.some.inj h.head).symm, by simpa using h.head⟩
  | some a =>
      have hne : before ≠ [] := by
        rintro rfl
        simp at hbefore
      refine Or.inr ⟨a, before, ⟨?_, hbefore, h.chain.left_of_append⟩, ?_, rfl⟩
      · rw [← h.head, List.head?_append_of_ne_nil _ hne]
      · exact (List.isChain_append.mp h.chain).2.2 a hbefore last rfl

/-- A route stays where it is, or goes on to a next node. -/
theorem Route.eq_or_cons (h : Route r s t route) :
    (s = t ∧ route = [s]) ∨ ∃ a after, r s a ∧ Route r a t after ∧ route = s :: after := by
  obtain ⟨hhead, hlast, hchain⟩ := h
  cases route with
  | nil => cases hhead
  | cons x after =>
      obtain rfl : x = s := Option.some.inj hhead
      cases after with
      | nil => exact Or.inl ⟨Option.some.inj hlast, rfl⟩
      | cons a after =>
          obtain ⟨hstep, hafter⟩ := List.isChain_cons_cons.mp hchain
          exact Or.inr ⟨a, a :: after, hstep, ⟨rfl, by simpa using hlast, hafter⟩, rfl⟩

/-- What holds of the route that stays where it is, and of every route that goes one step further,
holds of all routes. -/
theorem Route.rec_concat {motive : α → List α → Prop} (hnil : motive s [s])
    (hstep : ∀ a b before, Route r s a before → r a b → motive a before →
      motive b (before ++ [b])) (h : Route r s t route) : motive t route := by
  induction hlength : route.length generalizing t route with
  | zero =>
      rw [List.length_eq_zero_iff.mp hlength] at h
      exact absurd h.head (by simp)
  | succ n ih =>
      rcases h.eq_or_concat with ⟨rfl, rfl⟩ | ⟨a, before, hbefore, hat, rfl⟩
      · exact hnil
      · exact hstep a t before hbefore hat (ih hbefore (by simpa using hlength))

theorem Route.length_pos (h : Route r s t route) : 0 < route.length := by
  rcases h.eq_or_cons with ⟨-, rfl⟩ | ⟨a, after, -, -, rfl⟩ <;> simp

/-- There is a route exactly to what can be reached. -/
theorem exists_route_iff : (∃ route, Route r s t route) ↔ Relation.ReflTransGen r s t := by
  constructor
  · rintro ⟨route, h⟩
    exact h.rec_concat (motive := fun b _ => Relation.ReflTransGen r s b) .refl
      fun _ _ _ _ hab ih => ih.tail hab
  · intro h
    induction h with
    | refl => exact ⟨[s], .singleton r s⟩
    | tail _ hbc ih =>
        obtain ⟨route, h⟩ := ih
        exact ⟨_, h.concat hbc⟩

/-! ## Distances -/

/-- The least number of steps that lead from one node to another. -/
def Distance (r : α → α → Prop) (s t : α) (n : ℕ) : Prop :=
  IsLeast {k | ∃ route, Route r s t route ∧ route.length = k + 1} n

/-- A distance is the length of a route, and no route is shorter. -/
theorem distance_of_route {n : ℕ} (h : Route r s t route) (hlength : route.length = n + 1)
    (hle : ∀ other, Route r s t other → n + 1 ≤ other.length) : Distance r s t n :=
  ⟨⟨route, h, hlength⟩, by
    rintro k ⟨other, hother, hk⟩
    have := hle other hother
    omega⟩

theorem Distance.unique {m n : ℕ} (h : Distance r s t m) (h' : Distance r s t n) : m = n :=
  IsLeast.unique h h'

/-- No route is shorter than the distance. -/
theorem Distance.le_length {n : ℕ} (h : Distance r s t n) (hroute : Route r s t route) :
    n + 1 ≤ route.length := by
  have hpos := hroute.length_pos
  have hle := h.2 ⟨route, hroute, (Nat.sub_add_cancel hpos).symm⟩
  omega

/-! ## The search -/

/-- What holds while a search runs that has taken the nodes `done`, in this order, and still has
those in `queue` before it. -/
structure Breadth (r : α → α → Prop) (source : α) (label : α → ℕ) (done queue : List α) :
    Prop where
  source_mem : source ∈ done ++ queue
  source_label : label source = 0
  nodup : (done ++ queue).Nodup
  sorted : (done ++ queue).Pairwise fun a b => label a ≤ label b
  route : ∀ a ∈ done ++ queue, ∃ route, Route r source a route ∧ route.length = label a + 1
  closed : ∀ a ∈ done, ∀ b, r a b → b ∈ done ++ queue ∧ label b ≤ label a + 1
  near : ∀ a ∈ queue, ∀ b ∈ done ++ queue, label b ≤ label a + 1

namespace Breadth

variable {source node : α} {label : α → ℕ} {done queue : List α}

/-- At the start the source is in the queue. -/
theorem start (r : α → α → Prop) (source : α) (hlabel : label source = 0) :
    Breadth r source label [] [source] where
  source_mem := List.mem_cons_self
  source_label := hlabel
  nodup := List.nodup_singleton source
  sorted := List.pairwise_singleton _ source
  route a ha := by
    obtain rfl := List.mem_singleton.mp ha
    exact ⟨[a], .singleton r a, by simp [hlabel]⟩
  closed a ha := absurd ha List.not_mem_nil
  near a _ b hb := by
    obtain rfl := List.mem_singleton.mp hb
    omega

/-- The first node of the queue is taken, and the nodes behind it that are new are put into the
queue. -/
theorem visit (h : Breadth r source label done (node :: queue)) {fresh : List α}
    (hnodup : fresh.Nodup)
    (hfresh : ∀ b, b ∈ fresh ↔ r node b ∧ b ∉ done ++ node :: queue) {label' : α → ℕ}
    (hold : ∀ a ∈ done ++ node :: queue, label' a = label a)
    (hnew : ∀ a ∈ fresh, label' a = label node + 1) :
    Breadth r source label' (done ++ [node]) (queue ++ fresh) := by
  have hsplit : done ++ [node] ++ (queue ++ fresh) = (done ++ node :: queue) ++ fresh := by simp
  have hnode : node ∈ done ++ node :: queue := by simp
  -- no node that the search has come to is labelled higher than the new ones
  have hle : ∀ a ∈ done ++ node :: queue, label' a ≤ label node + 1 := fun a ha =>
    (hold a ha).le.trans (h.near node List.mem_cons_self a ha)
  have hall : ∀ a ∈ (done ++ node :: queue) ++ fresh, label' a ≤ label node + 1 := by
    intro a ha
    rcases List.mem_append.mp ha with ha | ha
    · exact hle a ha
    · exact (hnew a ha).le
  have hqueue : ∀ a ∈ queue, label node ≤ label' a := by
    intro a ha
    rw [hold a (by simp [ha])]
    exact List.rel_of_pairwise_cons (List.pairwise_append.mp h.sorted).2.1 ha
  constructor
  · rw [hsplit]
    exact List.mem_append_left _ h.source_mem
  · rw [hold source h.source_mem, h.source_label]
  · rw [hsplit]
    exact List.nodup_append.mpr ⟨h.nodup, hnodup, fun a ha b hb hab =>
      ((hfresh b).mp hb).2 (hab ▸ ha)⟩
  · rw [hsplit]
    refine List.pairwise_append.mpr ⟨?_, ?_, fun a ha b hb => ?_⟩
    · refine h.sorted.imp_of_mem fun ha hb hab => ?_
      rwa [hold _ ha, hold _ hb]
    · exact List.pairwise_of_forall_mem_list fun a ha b hb => by rw [hnew a ha, hnew b hb]
    · rw [hnew b hb]
      exact hle a ha
  · rw [hsplit]
    intro a ha
    rcases List.mem_append.mp ha with ha | ha
    · rw [hold a ha]
      exact h.route a ha
    · obtain ⟨route, hroute, hlength⟩ := h.route node hnode
      refine ⟨_, hroute.concat ((hfresh a).mp ha).1, ?_⟩
      rw [List.length_append, hlength, hnew a ha]
      rfl
  · rw [hsplit]
    intro a ha b hab
    rcases List.mem_append.mp ha with ha | ha
    · obtain ⟨hb, hlabel⟩ := h.closed a ha b hab
      refine ⟨List.mem_append_left _ hb, ?_⟩
      rwa [hold b hb, hold a (List.mem_append_left _ ha)]
    · obtain rfl := List.mem_singleton.mp ha
      have hb : b ∈ (done ++ a :: queue) ++ fresh := by
        by_cases hb : b ∈ done ++ a :: queue
        · exact List.mem_append_left _ hb
        · exact List.mem_append_right _ ((hfresh b).mpr ⟨hab, hb⟩)
      refine ⟨hb, ?_⟩
      rw [hold a hnode]
      exact hall b hb
  · rw [hsplit]
    intro a ha b hb
    refine (hall b hb).trans (Nat.add_le_add_right ?_ 1)
    rcases List.mem_append.mp ha with ha | ha
    · exact hqueue a ha
    · rw [hnew a ha]
      exact Nat.le_succ _

/-- The nodes behind the first node of the queue are put into it unless they have been seen. -/
theorem visit_unseen [DecidableEq α] (h : Breadth r source label done (node :: queue))
    {seen : Finset α} (hseen : ∀ a, a ∈ seen ↔ a ∈ done ++ node :: queue) {successors : List α}
    (hnodup : successors.Nodup) (hsuccessors : ∀ a, a ∈ successors ↔ r node a) :
    Breadth r source (fun a => if a ∈ seen then label a else label node + 1) (done ++ [node])
        (queue ++ successors.filter (· ∉ seen)) ∧
      ∀ a, a ∈ seen ∪ successors.toFinset ↔
        a ∈ done ++ [node] ++ (queue ++ successors.filter (· ∉ seen)) := by
  constructor
  · refine h.visit (hnodup.filter _) (fun b => ?_) (fun a ha => ?_) fun a ha => ?_
    · rw [List.mem_filter, hsuccessors, decide_eq_true_iff, hseen]
    · exact if_pos ((hseen a).mpr ha)
    · exact if_neg (by simpa using (List.mem_filter.mp ha).2)
  · intro a
    rw [Finset.mem_union, List.mem_toFinset]
    simp only [List.mem_append, List.mem_cons, List.mem_filter, decide_eq_true_iff, hseen,
      List.not_mem_nil, or_false]
    tauto

/-- Every route either ends among the nodes taken, which are labelled no higher than it is long, or
leaves them through a node of the queue. -/
theorem of_route (h : Breadth r source label done queue) (hroute : Route r source b route) :
    (b ∈ done ∧ label b + 1 ≤ route.length) ∨ ∃ c ∈ queue, label c + 1 ≤ route.length := by
  have hend : ∀ {b : α} {n : ℕ}, b ∈ done ++ queue → label b + 1 ≤ n →
      (b ∈ done ∧ label b + 1 ≤ n) ∨ ∃ c ∈ queue, label c + 1 ≤ n := by
    intro b n hb hle
    rcases List.mem_append.mp hb with hb | hb
    · exact Or.inl ⟨hb, hle⟩
    · exact Or.inr ⟨b, hb, hle⟩
  refine hroute.rec_concat (motive := fun b route => (b ∈ done ∧ label b + 1 ≤ route.length) ∨
    ∃ c ∈ queue, label c + 1 ≤ route.length) ?_ ?_
  · exact hend h.source_mem (by simp [h.source_label])
  · rintro a b before - hab (⟨ha, hle⟩ | ⟨c, hc, hle⟩)
    · obtain ⟨hb, hlabel⟩ := h.closed a ha b hab
      refine hend hb ?_
      rw [List.length_append, List.length_singleton]
      omega
    · refine Or.inr ⟨c, hc, ?_⟩
      rw [List.length_append]
      omega

/-- The label of the first node in the queue is its distance. -/
theorem distance_head (h : Breadth r source label done (node :: queue)) :
    Distance r source node (label node) := by
  obtain ⟨route, hroute, hlength⟩ := h.route node (by simp)
  refine distance_of_route hroute hlength fun other hother => ?_
  rcases h.of_route hother with ⟨hdone, -⟩ | ⟨c, hc, hle⟩
  · exact absurd rfl ((List.nodup_append.mp h.nodup).2.2 node hdone node List.mem_cons_self)
  · refine le_trans (Nat.add_le_add_right ?_ 1) hle
    rcases List.mem_cons.mp hc with rfl | hc
    · exact le_rfl
    · exact List.rel_of_pairwise_cons (List.pairwise_append.mp h.sorted).2.1 hc

/-- Once the queue is empty, the search has come to everything that can be reached. -/
theorem mem_done_iff (h : Breadth r source label done []) :
    a ∈ done ↔ Relation.ReflTransGen r source a := by
  rw [← exists_route_iff]
  constructor
  · intro ha
    obtain ⟨route, hroute, -⟩ := h.route a (by simpa using ha)
    exact ⟨route, hroute⟩
  · rintro ⟨route, hroute⟩
    rcases h.of_route hroute with ⟨ha, -⟩ | ⟨c, hc, -⟩
    · exact ha
    · exact absurd hc List.not_mem_nil

/-- What is nearer to the source than the first node in the queue has been taken. -/
theorem mem_done_of_lt (h : Breadth r source label done (node :: queue)) {n : ℕ}
    (hb : Distance r source b n) (hlt : n < label node) : b ∈ done := by
  obtain ⟨⟨route, hroute, hlength⟩, -⟩ := hb
  rcases h.of_route hroute with ⟨hdone, -⟩ | ⟨c, hc, hle⟩
  · exact hdone
  · have hfirst : label node ≤ label c := by
      rcases List.mem_cons.mp hc with rfl | hc
      · exact le_rfl
      · exact List.rel_of_pairwise_cons (List.pairwise_append.mp h.sorted).2.1 hc
    omega

/-- The labels of the nodes taken are distances. -/
theorem distance (h : Breadth r source label done queue) (ha : a ∈ done) :
    Distance r source a (label a) := by
  obtain ⟨route, hroute, hlength⟩ := h.route a (List.mem_append_left _ ha)
  refine distance_of_route hroute hlength fun other hother => ?_
  rcases h.of_route hother with ⟨-, hle⟩ | ⟨c, hc, hle⟩
  · exact hle
  · have hlabel := (List.pairwise_append.mp h.sorted).2.2 a ha c hc
    omega

end Breadth
