import Netlab.Prelude.Breadth
import Netlab.Prelude.Hops
import Netlab.Topology.Search
import Mathlib.Data.ENat.Lattice
import Mathlib.Data.Set.Card

/-!
# What the path searches return

`shortest_path` searches breadth first, so it takes the nodes off its queue in the order of their
distance, each with a route as long (`ShortestSearch`). `_simple_path_count` keeps on its stack the
beginnings of the simple paths that it has not counted: what it has counted and what can be made of
these beginnings are all simple paths (`SimpleSearch`).
-/

namespace Netlab

open Relation

variable {α : Type} [DecidableEq α] {order : SetOrder α} {graph : Graph α}
  {source target sink node : α}

/-! ## Shortest paths -/

/-- Looking at the nodes behind a node puts those that are new into the queue. -/
theorem foldl_fresh {β : Type} (entry : α → β) {successors : List α} (hnodup : successors.Nodup)
    (queue : List β) (seen : Finset α) :
    successors.foldl (fun state nxt =>
      if nxt ∈ state.2 then state
      else (state.1 ++ [entry nxt], insert nxt state.2)) (queue, seen) =
    (queue ++ (successors.filter (· ∉ seen)).map entry, seen ∪ successors.toFinset) := by
  induction successors generalizing queue seen with
  | nil => simp
  | cons nxt rest ih =>
      obtain ⟨hfirst, hrest⟩ := List.nodup_cons.mp hnodup
      rw [List.foldl_cons]
      by_cases hseen : nxt ∈ seen
      · rw [if_pos hseen, ih hrest, List.filter_cons_of_neg (by simpa using hseen),
          List.toFinset_cons, Finset.union_insert,
          Finset.insert_eq_of_mem (Finset.mem_union_left _ hseen)]
      · have hfilter : rest.filter (· ∉ insert nxt seen) = rest.filter (· ∉ seen) := by
          refine List.filter_congr fun a ha => ?_
          have hne : a ≠ nxt := fun heq => hfirst (heq ▸ ha)
          simp [hne]
        rw [if_neg hseen, ih hrest, List.filter_cons_of_pos (by simpa using hseen), hfilter,
          List.toFinset_cons, Finset.union_insert, Finset.insert_union, List.map_cons,
          List.append_assoc, List.singleton_append]

/-- A search that has taken `done` and has not found its target. -/
structure ShortestSearch (graph : Graph α) (source target : α) (label : α → ℕ) (done : List α)
    (state : List (α × List α) × Finset α) : Prop where
  breadth : Breadth graph.Adj source label done (state.1.map Prod.fst)
  seen : ∀ a, a ∈ state.2 ↔ a ∈ done ++ state.1.map Prod.fst
  path : ∀ entry ∈ state.1, Route graph.Adj source entry.1 entry.2 ∧
    entry.2.length = label entry.1 + 1
  target : target ∉ done

/-- What `shortest_path` should return: a path with as few hops as possible, if there is one. -/
structure IsShortest (graph : Graph α) (source target : α) (found : Option (List α)) : Prop where
  none_iff : found = none ↔ ¬ReflTransGen graph.Adj source target
  route : ∀ path ∈ found, Route graph.Adj source target path
  hops_le : ∀ path ∈ found, ∀ other, Route graph.Adj source target other →
    path.hops.length ≤ other.hops.length

/-- The search before its first node. -/
theorem ShortestSearch.start (graph : Graph α) (source target : α) :
    ShortestSearch graph source target (fun _ => 0) [] ([(source, [source])], {source}) where
  breadth := .start _ _ rfl
  seen a := by simp
  path entry hentry := by
    obtain rfl := List.mem_singleton.mp hentry
    exact ⟨.singleton _ _, rfl⟩
  target := List.not_mem_nil

/-- A node that is not the target brings the nodes behind it into the queue. -/
theorem ShortestSearch.visit {label : α → ℕ} {done path : List α} {queue : List (α × List α)}
    {seen : Finset α}
    (h : ShortestSearch graph source target label done ((node, path) :: queue, seen))
    (hnode : node ≠ target) {successors : List α} (hnodup : successors.Nodup)
    (hsuccessors : ∀ a, a ∈ successors ↔ graph.Adj node a) :
    ShortestSearch graph source target (fun a => if a ∈ seen then label a else label node + 1)
      (done ++ [node])
      (queue ++ (successors.filter (· ∉ seen)).map (fun nxt => (nxt, path ++ [nxt])),
        seen ∪ successors.toFinset) := by
  have hqueue : (queue ++ (successors.filter (· ∉ seen)).map fun nxt => (nxt, path ++ [nxt])).map
      Prod.fst = queue.map Prod.fst ++ successors.filter (· ∉ seen) := by
    simp [Function.comp_def]
  have hseen : ∀ a, a ∈ seen ↔ a ∈ done ++ node :: queue.map Prod.fst := h.seen
  obtain ⟨hroute, hlength⟩ := h.path (node, path) List.mem_cons_self
  obtain ⟨hbreadth, hunion⟩ := h.breadth.visit_unseen hseen hnodup hsuccessors
  constructor
  · rwa [hqueue]
  · rwa [hqueue]
  · intro entry hentry
    rcases List.mem_append.mp hentry with hentry | hentry
    · have hold := h.path entry (List.mem_cons_of_mem _ hentry)
      -- what was in the queue keeps its label
      have hmem : entry.1 ∈ seen := (hseen _).mpr (by
        simp only [List.mem_append, List.mem_cons]
        exact Or.inr (Or.inr (List.mem_map_of_mem hentry)))
      rwa [if_pos hmem]
    · obtain ⟨nxt, hnxt, rfl⟩ := List.mem_map.mp hentry
      obtain ⟨hadj, hnew⟩ := List.mem_filter.mp hnxt
      refine ⟨hroute.concat ((hsuccessors nxt).mp hadj), ?_⟩
      rw [if_neg (by simpa using hnew), List.length_append, hlength]
      rfl
  · rw [List.mem_append, List.mem_singleton]
    rintro (hdone | heq)
    · exact h.target hdone
    · exact hnode heq.symm

/-- `shortest_path` returns a path with as few hops as possible, if there is one. -/
theorem shortestPath_spec {fuel : ℕ} {found : Option (List α)}
    (h : shortestPath order fuel graph source target = some found) :
    IsShortest graph source target found := by
  refine Loop.post_of_run (fun state => ∃ label done,
    ShortestSearch graph source target label done state) _ ?_ ?_
    ⟨_, _, ShortestSearch.start graph source target⟩ h
  · rintro ⟨queue, seen⟩ state' ⟨label, done, hstate⟩ hstep
    cases queue with
    | nil => cases hstep
    | cons entry queue =>
        obtain ⟨node, path⟩ := entry
        rw [shortestPathStep] at hstep
        dsimp only at hstep
        split at hstep
        · cases hstep
        · rename_i hnode
          obtain rfl := Sum.inl.inj (Option.some.inj hstep)
          rw [foldl_fresh _ (order.nodup _ _)]
          exact ⟨_, _, hstate.visit hnode (order.nodup _ _) fun a => order.mem_list _ _ _⟩
  · rintro ⟨queue, seen⟩ found ⟨label, done, hstate⟩ hstep
    cases queue with
    | nil =>
        obtain rfl := Sum.inr.inj (Option.some.inj hstep)
        -- the queue is empty, so what is done is all that can be reached
        refine ⟨?_, by simp, by simp⟩
        rw [← hstate.breadth.mem_done_iff]
        simp [hstate.target]
    | cons entry queue =>
        obtain ⟨node, path⟩ := entry
        rw [shortestPathStep] at hstep
        dsimp only at hstep
        split at hstep
        · rename_i hnode
          obtain rfl := hnode
          obtain rfl := Sum.inr.inj (Option.some.inj hstep)
          obtain ⟨hroute, hlength⟩ := hstate.path (node, path) List.mem_cons_self
          refine ⟨?_, ?_, ?_⟩
          · simpa using exists_route_iff.mp ⟨path, hroute⟩
          · intro other hother
            obtain rfl := Option.some.inj hother
            exact hroute
          · intro found hfound other hother
            obtain rfl := Option.some.inj hfound
            -- the head of the queue is at its distance from the source
            have hle := hstate.breadth.distance_head.le_length hother
            rw [List.length_hops, List.length_hops, hlength]
            exact Nat.sub_le_sub_right hle 1
        · cases hstep

/-! ## Simple paths -/

/-- The paths from one node to another that meet no node twice. -/
def simplePaths (graph : Graph α) (source sink : α) : Set (List α) :=
  {route | Route graph.Adj source sink route ∧ route.Nodup}

/-- The simple paths that go on from a node and keep off the nodes of a set. -/
def simpleRoutes (graph : Graph α) (sink : α) (entry : α × Finset α) : Set (List α) :=
  {route | Route graph.Adj entry.1 sink route ∧ route.Nodup ∧ ∀ a ∈ route.tail, a ∉ entry.2}

/-- At the sink a simple path ends. -/
theorem simpleRoutes_sink (graph : Graph α) (sink : α) (seen : Finset α) :
    simpleRoutes graph sink (sink, seen) = {[sink]} := by
  ext route
  rw [Set.mem_singleton_iff]
  constructor
  · rintro ⟨hroute, hnodup, -⟩
    rcases hroute.eq_or_cons with ⟨-, heq⟩ | ⟨a, after, -, hafter, rfl⟩
    · exact heq
    · exact absurd (List.mem_of_getLast? hafter.last) (List.nodup_cons.mp hnodup).1
  · rintro rfl
    exact ⟨.singleton _ _, List.nodup_singleton sink, by simp⟩

/-- Before the sink a simple path goes on to a node that it has not met. -/
theorem simpleRoutes_eq {seen : Finset α} (hsink : node ≠ sink) (hseen : node ∈ seen)
    {fresh : List α} (hfresh : ∀ a, a ∈ fresh ↔ graph.Adj node a ∧ a ∉ seen) :
    simpleRoutes graph sink (node, seen) =
      {route | ∃ nxt ∈ fresh, ∃ after ∈ simpleRoutes graph sink (nxt, insert nxt seen),
        route = node :: after} := by
  ext route
  constructor
  · rintro ⟨hroute, hnodup, hoff⟩
    rcases hroute.eq_or_cons with ⟨heq, -⟩ | ⟨nxt, after, hadj, hafter, rfl⟩
    · exact absurd heq hsink
    · obtain ⟨rest, rfl⟩ := List.head?_eq_some_iff.mp hafter.head
      obtain ⟨hnew, hrest⟩ := List.forall_mem_cons.mp hoff
      refine ⟨nxt, (hfresh nxt).mpr ⟨hadj, hnew⟩, nxt :: rest,
        ⟨hafter, (List.nodup_cons.mp hnodup).2, fun a ha => ?_⟩, rfl⟩
      rw [Finset.mem_insert, not_or]
      refine ⟨?_, hrest a ha⟩
      rintro rfl
      exact (List.nodup_cons.mp (List.nodup_cons.mp hnodup).2).1 ha
  · rintro ⟨nxt, hnxt, after, ⟨hafter, hnodup, hoff⟩, rfl⟩
    obtain ⟨hadj, hnew⟩ := (hfresh nxt).mp hnxt
    -- the rest of the route avoids its first node as well
    have hall : ∀ a ∈ after, a ∉ seen := by
      obtain ⟨rest, rfl⟩ := List.head?_eq_some_iff.mp hafter.head
      intro a ha
      rcases List.mem_cons.mp ha with rfl | ha
      · exact hnew
      · exact fun hmem => hoff a ha (Finset.mem_insert_of_mem hmem)
    exact ⟨.cons hadj hafter, List.nodup_cons.mpr ⟨fun hmem => hall node hmem hseen, hnodup⟩, hall⟩

omit [DecidableEq α] in
/-- Routes that go on to different nodes are counted one node after the other. -/
theorem encard_routes (node : α) {family : α → Set (List α)} {fresh : List α}
    (hnodup : fresh.Nodup) (hhead : ∀ a, ∀ route ∈ family a, route.head? = some a) :
    {route | ∃ nxt ∈ fresh, ∃ after ∈ family nxt, route = node :: after}.encard =
      (fresh.map fun nxt => (family nxt).encard).sum := by
  induction fresh with
  | nil => simp
  | cons nxt rest ih =>
      obtain ⟨hfirst, hrest⟩ := List.nodup_cons.mp hnodup
      have hsplit : {route | ∃ a ∈ nxt :: rest, ∃ after ∈ family a, route = node :: after} =
          List.cons node '' family nxt ∪
            {route | ∃ a ∈ rest, ∃ after ∈ family a, route = node :: after} := by
        ext route
        simp only [Set.mem_ofPred_eq, List.exists_mem_cons_iff, Set.mem_union, Set.mem_image, eq_comm]
      have hdisjoint : Disjoint (List.cons node '' family nxt)
          {route | ∃ a ∈ rest, ∃ after ∈ family a, route = node :: after} := by
        rw [Set.disjoint_left]
        rintro _ ⟨after, hafter, rfl⟩ ⟨a, ha, other, hother, heq⟩
        obtain rfl := (List.cons.inj heq).2
        have hsame : nxt = a :=
          Option.some.inj ((hhead nxt after hafter).symm.trans (hhead a after hother))
        exact hfirst (hsame ▸ ha)
      rw [hsplit, Set.encard_union_eq hdisjoint, ih hrest,
        (List.cons_injective).injOn.encard_image, List.map_cons, List.sum_cons]

/-- How many simple paths can be made of the beginnings on a stack. -/
noncomputable def stackRoutes (graph : Graph α) (sink : α) (stack : List (α × Finset α)) : ℕ∞ :=
  (stack.map fun entry => (simpleRoutes graph sink entry).encard).sum

/-- The simple paths that are made of a beginning are those made of the beginnings that take its
place. -/
theorem stackRoutes_foldl (seen : Finset α) (fresh : List α) (stack : List (α × Finset α)) :
    stackRoutes graph sink (fresh.foldl (fun stack nxt => (nxt, insert nxt seen) :: stack) stack) =
      (fresh.map fun nxt => (simpleRoutes graph sink (nxt, insert nxt seen)).encard).sum +
        stackRoutes graph sink stack := by
  induction fresh generalizing stack with
  | nil => simp
  | cons nxt rest ih =>
      rw [List.foldl_cons, ih, stackRoutes, List.map_cons, List.sum_cons, List.map_cons,
        List.sum_cons, stackRoutes, ← add_assoc, add_comm (List.sum _), add_assoc]

/-- The beginnings that take the place of one end at nodes that they have met. -/
theorem mem_seen_foldl (seen : Finset α) (fresh : List α) {stack : List (α × Finset α)}
    (hstack : ∀ entry ∈ stack, entry.1 ∈ entry.2) :
    ∀ entry ∈ fresh.foldl (fun stack nxt => (nxt, insert nxt seen) :: stack) stack,
      entry.1 ∈ entry.2 := by
  induction fresh generalizing stack with
  | nil => exact hstack
  | cons nxt rest ih =>
      exact ih (List.forall_mem_cons.mpr ⟨Finset.mem_insert_self _ _, hstack⟩)

/-- What holds while simple paths are counted: what has been counted and what can be made of the
stack are all of them. -/
structure SimpleSearch (graph : Graph α) (sink : α) (limit : ℕ) (total : ℕ∞)
    (state : ℕ × List (α × Finset α)) : Prop where
  le_limit : state.1 ≤ limit
  mem_seen : ∀ entry ∈ state.2, entry.1 ∈ entry.2
  total_eq : state.1 + stackRoutes graph sink state.2 = total

/-- The search before its first node. -/
theorem SimpleSearch.start (graph : Graph α) (source sink : α) (limit : ℕ) :
    SimpleSearch graph sink limit (simplePaths graph source sink).encard
      (0, [(source, {source})]) := by
  refine ⟨Nat.zero_le _, by simp, ?_⟩
  have hall : simpleRoutes graph sink (source, {source}) = simplePaths graph source sink := by
    ext route
    refine ⟨fun hroute => ⟨hroute.1, hroute.2.1⟩, fun ⟨hroute, hnodup⟩ => ⟨hroute, hnodup, ?_⟩⟩
    obtain ⟨rest, rfl⟩ := List.head?_eq_some_iff.mp hroute.head
    intro a ha hmem
    exact (List.nodup_cons.mp hnodup).1 (Finset.mem_singleton.mp hmem ▸ ha)
  simp [stackRoutes, hall]

/-- `_simple_path_count` returns the number of simple paths, up to the limit. -/
theorem simplePathCount_spec {fuel limit count : ℕ}
    (h : simplePathCount order fuel graph source sink limit = some count) :
    (count : ℕ∞) = min (limit : ℕ∞) (simplePaths graph source sink).encard := by
  refine Loop.post_of_run (SimpleSearch graph sink limit _)
    (fun count : ℕ => (count : ℕ∞) = min (limit : ℕ∞) _) ?_ ?_ (.start graph source sink limit) h
  · rintro ⟨count, stack⟩ state' hstate hstep
    cases stack with
    | nil => cases hstep
    | cons entry stack =>
        obtain ⟨node, seen⟩ := entry
        have hnode : node ∈ seen := hstate.mem_seen (node, seen) List.mem_cons_self
        have hstack : ∀ entry ∈ stack, entry.1 ∈ entry.2 := fun entry hentry =>
          hstate.mem_seen entry (List.mem_cons_of_mem _ hentry)
        have htotal := hstate.total_eq
        rw [stackRoutes, List.map_cons, List.sum_cons] at htotal
        rw [simplePathStep] at hstep
        dsimp only at hstep
        split at hstep
        · rename_i hlimit
          split at hstep
          · -- a path that has come to the sink is counted, and not followed any further
            rename_i hsink
            obtain rfl := hsink
            obtain rfl := Sum.inl.inj (Option.some.inj hstep)
            refine ⟨hlimit, hstack, ?_⟩
            rw [← htotal, simpleRoutes_sink, Set.encard_singleton, ← add_assoc]
            push_cast
            rfl
          · rename_i hsink
            obtain rfl := Sum.inl.inj (Option.some.inj hstep)
            -- the paths through the node are those through one of its new successors
            let fresh := (order.list [node] (graph.successors node)).filter (· ∉ seen)
            have hfresh : ∀ a, a ∈ fresh ↔ graph.Adj node a ∧ a ∉ seen := fun a => by
              rw [List.mem_filter, order.mem_list, decide_eq_true_iff]
              rfl
            have hnodup : fresh.Nodup := (order.nodup _ _).filter _
            refine ⟨hstate.le_limit, mem_seen_foldl seen fresh hstack, ?_⟩
            · show (count : ℕ∞) + stackRoutes graph sink (fresh.foldl _ stack) = _
              rw [stackRoutes_foldl, ← htotal, simpleRoutes_eq hsink hnode hfresh,
                encard_routes node hnodup fun a route hroute => hroute.1.head]
              rfl
        · cases hstep
  · rintro ⟨count, stack⟩ result hstate hstep
    cases stack with
    | nil =>
        obtain rfl := Sum.inr.inj (Option.some.inj hstep)
        have htotal := hstate.total_eq
        rw [stackRoutes, List.map_nil, List.sum_nil, add_zero] at htotal
        rw [← htotal, min_eq_right (Nat.cast_le.mpr hstate.le_limit)]
    | cons entry stack =>
        rw [simplePathStep] at hstep
        dsimp only at hstep
        split at hstep
        · split at hstep <;> cases hstep
        · rename_i hlimit
          obtain rfl := Sum.inr.inj (Option.some.inj hstep)
          have heq : count = limit := le_antisymm hstate.le_limit (not_lt.mp hlimit)
          rw [min_eq_left, heq]
          rw [← hstate.total_eq, ← heq]
          exact le_self_add

/-! ## Both searches -/

/-- In every order of the sets, `shortest_path` returns a path of the graph with as few hops as
possible or, exactly if the target cannot be reached, none, and `_simple_path_count` returns the
lesser of the limit and the number of simple paths. -/
theorem pathSearches_exact (order : SetOrder α) (graph : Graph α) (source target : α) :
    (∀ᶠ fuel in Filter.atTop, ∃ found, shortestPath order fuel graph source target = some found ∧
      IsShortest graph source target found) ∧
    ∀ limit : ℕ, ∀ᶠ fuel in Filter.atTop, ∃ count : ℕ,
      simplePathCount order fuel graph source target limit = some count ∧
        (count : ℕ∞) = min (limit : ℕ∞) (simplePaths graph source target).encard := by
  constructor
  · exact (shortestPath_isSome order graph source target).mono fun fuel ⟨found, hfound⟩ =>
      ⟨found, hfound, shortestPath_spec hfound⟩
  · intro limit
    exact (simplePathCount_isSome order graph source target limit).mono fun fuel ⟨count, hcount⟩ =>
      ⟨count, hcount, simplePathCount_spec hcount⟩

end Netlab
