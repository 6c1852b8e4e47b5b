import Mathlib.Algebra.BigOperators.Group.Finset.Basic
import Mathlib.Data.Prod.Lex
import Netlab.Prelude.Dict
import Netlab.Prelude.HeapQueue
import Netlab.Prelude.Loop

/-!
# Best-first search

The search for a best path that takes the most promising node from a heap, gives better labels to
its neighbours, and pushes a new entry for each without removing the old one. What a label is, which
of two is better and how one is extended is the `Policy`. Under a `Lawful` policy, where a longer
path is never better and extending keeps the order, the search ends with a best label of the
destination, and the parents that it has noted lead back over a simple path with this label
(`Task.search_spec`).

The invariant says what holds of the nodes that have been taken from the heap and expanded: their
labels are final, no entry of the queue is better, and their links have been followed.
-/

namespace BestFirst

variable {N L W K : Type}

/-! ## Links and paths -/

/-- A link between two nodes. -/
@[ext]
structure Link (N W : Type) where
  src : N
  dst : N
  weight : W

/-- Usable links that lead from a source to a node, each from where the one before it leads. -/
inductive Path (usable : Link N W → Prop) (source : N) : List (Link N W) → N → Prop
  | nil : Path usable source [] source
  | snoc {path : List (Link N W)} {link : Link N W} (h : Path usable source path link.src)
      (hlink : usable link) : Path usable source (path ++ [link]) link.dst

/-- The nodes on a path. -/
def nodes (source : N) (path : List (Link N W)) : List N := source :: path.map Link.dst

theorem nodes_concat (source : N) (path : List (Link N W)) (link : Link N W) :
    nodes source (path ++ [link]) = nodes source path ++ [link.dst] := by
  rw [nodes, List.map_append, nodes, List.cons_append, List.map_singleton]

variable {usable usable' : Link N W → Prop} {source target : N} {path : List (Link N W)}

theorem Path.imp (himp : ∀ link, usable link → usable' link) (h : Path usable source path target) :
    Path usable' source path target := by
  induction h with
  | nil => exact .nil
  | snoc _ hlink ih => exact ih.snoc (himp _ hlink)

/-- The links of a path are usable. -/
theorem Path.isUsable (h : Path usable source path target) : ∀ link ∈ path, usable link := by
  induction h with
  | nil => simp
  | @snoc path last _ hlink ih =>
      intro link hmem
      rcases List.mem_append.mp hmem with hmem | hmem
      · exact ih link hmem
      · obtain rfl := List.mem_singleton.mp hmem
        exact hlink

/-- A path without links leads nowhere else. -/
theorem Path.eq_of_nil (h : Path usable source [] target) : target = source := by
  generalize hpath : ([] : List (Link N W)) = path at h
  cases h with
  | nil => rfl
  | snoc _ _ => simp at hpath

/-! ## Graphs -/

section

variable [DecidableEq N]

/-- `graph.setdefault(link.src, []).append((link.dst, link.weight))`. -/
def addLink (graph : Dict N (List (N × W))) (link : Link N W) : Dict N (List (N × W)) :=
  graph.set link.src ((graph.get? link.src).getD [] ++ [(link.dst, link.weight)])

/-- The links in the order of their sources. -/
def graphOf (links : List (Link N W)) : Dict N (List (N × W)) := links.foldl addLink .empty

/-- `graph.get(node, [])`. -/
def linksFrom (graph : Dict N (List (N × W))) (node : N) : List (N × W) :=
  (graph.get? node).getD []

/-- The graph has the link. -/
def IsLink (graph : Dict N (List (N × W))) (link : Link N W) : Prop :=
  (link.dst, link.weight) ∈ linksFrom graph link.src

theorem isLink_addLink {graph : Dict N (List (N × W))} {new link : Link N W} :
    IsLink (addLink graph new) link ↔ IsLink graph link ∨ link = new := by
  obtain ⟨src, dst, weight⟩ := link
  unfold IsLink linksFrom addLink
  rw [Dict.get?_set]
  by_cases hsrc : src = new.src
  · subst hsrc
    simp [Link.ext_iff]
  · have hne : (⟨src, dst, weight⟩ : Link N W) ≠ new := fun h => hsrc (by rw [← h])
    simp [hsrc, hne]

theorem isLink_graphOf {links : List (Link N W)} {link : Link N W} :
    IsLink (graphOf links) link ↔ link ∈ links := by
  have hfold : ∀ (links : List (Link N W)) (graph : Dict N (List (N × W))),
      IsLink (links.foldl addLink graph) link ↔ IsLink graph link ∨ link ∈ links := by
    intro links
    induction links with
    | nil => simp
    | cons new links ih =>
        intro graph
        rw [List.foldl_cons, ih, isLink_addLink, List.mem_cons, or_assoc]
  rw [graphOf, hfold]
  have hempty : ¬ IsLink (.empty : Dict N (List (N × W))) link := by
    simp [IsLink, linksFrom]
  simp [hempty]

/-- How many links there are from some nodes. -/
def linkCount (graph : Dict N (List (N × W))) (sources : Finset N) : ℕ :=
  sources.sum fun node => (linksFrom graph node).length

end

/-! ## The search -/

/-- What a search does with labels: the smaller its label, the sooner a node is taken from the
queue. -/
structure Policy (L W : Type) where
  /-- The label of the source. -/
  start : L
  /-- The label of a path with one more link. -/
  extend : L → W → L
  /-- Whether a label replaces the one that a node has, if it has one. -/
  improves : Option L → L → Bool
  /-- Whether the label that a node has makes another one in the queue outdated. -/
  stale : Option L → L → Bool
  /-- What is pushed for a label. -/
  enqueue : L → L
  /-- The label that was pushed. -/
  dequeue : L → L

/-- The label of a path. -/
def Policy.label (policy : Policy L W) (path : List (Link N W)) : L :=
  path.foldl (fun label link => policy.extend label link.weight) policy.start

@[simp] theorem Policy.label_concat (policy : Policy L W) (path : List (Link N W))
    (link : Link N W) :
    policy.label (path ++ [link]) = policy.extend (policy.label path) link.weight := by
  rw [Policy.label, List.foldl_append]
  rfl

/-- What the entries of the queue are ordered by: what was pushed for the label, then the node. -/
def entryKey (value : L → K) (entry : L × N) : K ×ₗ N := toLex (value entry.1, entry.2)

/-- What the search knows. -/
structure State (N L : Type) where
  /-- The best label so far of each node that has been reached. -/
  best : Dict N L
  /-- The node from which it was reached with this label. -/
  parent : Dict N N
  queue : List (L × N)

/-- A search from a source for a destination. -/
structure Task (N L W : Type) where
  policy : Policy L W
  graph : Dict N (List (N × W))
  source : N
  destination : N

section

variable [LinearOrder N] [LinearOrder K] {lt? : L × N → L × N → Option Bool} {value : L → K}
  (heapq : HeapQueue lt? (entryKey value)) (task : Task N L W)

namespace Task

/-- A neighbour of a node with some label: it is reached from there if this is better. -/
def relax (node : N) (label : L) (s : State N L) (neighbor : N × W) : State N L :=
  let candidate := task.policy.extend label neighbor.2
  -- the old entry of the neighbour stays in the queue, and is found to be outdated later
  if task.policy.improves (s.best.get? neighbor.1) candidate then
    { best := s.best.set neighbor.1 candidate
      parent := s.parent.set neighbor.1 node
      queue := heapq.heappush s.queue (task.policy.enqueue candidate, neighbor.1) }
  else s

/-- What is done with an entry of the queue. -/
def visit (s : State N L) (entry : L × N) : State N L ⊕ State N L :=
  let label := task.policy.dequeue entry.1
  if entry.2 = task.destination then .inr s
  else if task.policy.stale (s.best.get? entry.2) label then .inl s
  else .inl ((linksFrom task.graph entry.2).foldl (task.relax heapq entry.2 label) s)

/-- One pass of the search. -/
def pass (s : State N L) : Option (State N L ⊕ State N L) :=
  if s.queue.isEmpty then some (.inr s)
  else (heapq.heappop s.queue).map fun popped =>
    task.visit heapq { s with queue := popped.2 } popped.1

/-- What the search begins with. -/
def init : State N L where
  best := Dict.empty.set task.source task.policy.start
  parent := .empty
  queue := [(task.policy.enqueue task.policy.start, task.source)]

/-- The search. Every link is followed once, and every entry of the queue takes one pass. -/
def search : Option (State N L) :=
  Loop.run (task.pass heapq) (linkCount task.graph task.graph.keys.toFinset + 2) task.init

end Task

end

/-! ## The way back -/

section

variable [DecidableEq N] (parent : Dict N N) (source : N)

/-- One step back from the first node of a route. A node that was not reached raises. -/
def stepBack (route : List N) : Option (List N ⊕ List N) :=
  match route with
  | [] => none
  | node :: _ =>
      if node = source then some (.inr route)
      else (parent.get? node).map fun previous => .inl (previous :: route)

/-- The route to a node along the parents. -/
def traceBack (destination : N) : Option (List N) :=
  Loop.run (stepBack parent source) (parent.entries.length + 2) [destination]

variable {parent source}

/-- The way back over nodes each of which is the parent of the next one. -/
theorem run_stepBack {front : List N} {node : N} (hhead : (front ++ [node]).head? = some source)
    (hchain : (front ++ [node]).IsChain fun a b => parent.get? b = some a)
    (hnodup : (front ++ [node]).Nodup) (rest : List N) {fuel : ℕ} (hfuel : front.length < fuel) :
    Loop.run (stepBack parent source) fuel (node :: rest) = some (front ++ node :: rest) := by
  induction front using List.reverseRecOn generalizing node rest fuel with
  | nil =>
      obtain ⟨fuel, rfl⟩ : ∃ n, fuel = n + 1 := ⟨fuel - 1, by omega⟩
      obtain rfl : node = source := by simpa using hhead
      have hstep : stepBack parent node (node :: rest) = some (.inr (node :: rest)) := by
        rw [stepBack, if_pos rfl]
      exact Loop.run_succ_of_done hstep fuel
  | append_singleton front previous ih =>
      obtain ⟨fuel, rfl⟩ : ∃ n, fuel = n + 1 := ⟨fuel - 1, by omega⟩
      rw [List.length_append, List.length_singleton] at hfuel
      have hfront : (front ++ [previous]).head? = some source := by
        rw [← hhead]
        cases front <;> rfl
      -- the source stands at the head only
      have hne : node ≠ source := by
        rintro rfl
        have hmem : node ∈ front ++ [previous] := List.mem_of_mem_head? hfront
        exact (List.nodup_append.mp hnodup).2.2 node hmem node (List.mem_singleton_self node) rfl
      have hparent : parent.get? node = some previous := by
        rw [List.append_assoc] at hchain
        exact (List.isChain_append.mp hchain).2.1.rel
      have hstep : stepBack parent source (node :: rest) =
          some (.inl (previous :: node :: rest)) := by
        rw [stepBack, if_neg hne, hparent]
        rfl
      rw [Loop.run_succ_of_next hstep, List.append_assoc, List.singleton_append]
      exact ih hfront (List.isChain_append.mp hchain).1 (List.nodup_append.mp hnodup).1 _
        (by omega)

/-- In a chain of parents every node but the first has one. -/
theorem mem_keys_of_isChain {first : N} {rest : List N}
    (hchain : (first :: rest).IsChain fun a b => parent.get? b = some a) :
    ∀ node ∈ rest, node ∈ parent.keys := by
  induction rest generalizing first with
  | nil => simp
  | cons second rest ih =>
      obtain ⟨hfirst, hrest⟩ := List.isChain_cons_cons.mp hchain
      intro node hnode
      rcases List.mem_cons.mp hnode with rfl | hnode
      · exact Dict.mem_keys_iff.mpr ⟨first, hfirst⟩
      · exact ih hrest node hnode

/-- Nodes each of which is the parent of the next one are what the way back finds. -/
theorem traceBack_eq {route : List N} {node : N}
    (hchain : (source :: route).IsChain fun a b => parent.get? b = some a)
    (hnodup : (source :: route).Nodup) (hlast : (source :: route).getLast? = some node) :
    traceBack parent source node = some (source :: route) := by
  obtain ⟨front, hfront⟩ := List.getLast?_eq_some_iff.mp hlast
  have hlength : front.length = route.length := by
    have h := congrArg List.length hfront
    simp only [List.length_cons, List.length_append, List.length_nil] at h
    omega
  have hkeys : route.length ≤ parent.entries.length := by
    have hsubset : route ⊆ parent.keys := fun n hn => mem_keys_of_isChain hchain n hn
    have hle := ((List.nodup_cons.mp hnodup).2.subperm hsubset).length_le
    rwa [Dict.keys, List.length_map] at hle
  rw [hfront] at hchain hnodup ⊢
  exact run_stepBack (by rw [← hfront]; rfl) hchain hnodup [] (by omega)

end

/-! ## The invariant -/

/-- Each node but the source has a parent among the nodes after it in the list. -/
def Chained [DecidableEq N] (parent : Dict N N) (source : N) : List N → Prop
  | [] => True
  | node :: earlier =>
      (node = source ∨ ∃ previous ∈ earlier, parent.get? node = some previous) ∧
        Chained parent source earlier

/-- Parents of other nodes do not matter. -/
theorem Chained.set [DecidableEq N] {parent : Dict N N} {source node previous : N} {list : List N}
    (h : Chained parent source list) (hnode : node ∉ list) :
    Chained (parent.set node previous) source list := by
  induction list with
  | nil => trivial
  | cons first earlier ih =>
      obtain ⟨hfirst, hearlier⟩ := h
      rw [List.mem_cons, not_or] at hnode
      refine ⟨hfirst.imp_right fun ⟨p, hp, hget⟩ => ⟨p, hp, ?_⟩, ih hearlier hnode.2⟩
      rw [Dict.get?_set_of_ne _ _ (Ne.symm hnode.1), hget]

section

variable [LinearOrder N] [LinearOrder K]

/-- The place of a label in the order of the queue. -/
def Policy.rank (policy : Policy L W) (value : L → K) (label : L) : K :=
  value (policy.enqueue label)

/-- What makes the search find best paths: a label is never better than that of a part of the path,
and a better label of a part gives a label that is at least as good. -/
structure Policy.Lawful (policy : Policy L W) (lt? : L × N → L × N → Option Bool) (value : L → K)
    (IsLabel : L → Prop) (IsWeight : W → Prop) : Prop where
  isLabel_start : IsLabel policy.start
  isLabel_extend {label : L} {weight : W} (hlabel : IsLabel label) (hweight : IsWeight weight) :
    IsLabel (policy.extend label weight)
  dequeue_enqueue {label : L} (hlabel : IsLabel label) :
    policy.dequeue (policy.enqueue label) = label
  improves_none {label : L} (hlabel : IsLabel label) : policy.improves none label = true
  improves_some {old label : L} (hold : IsLabel old) (hlabel : IsLabel label) :
    policy.improves (some old) label = true ↔ policy.rank value label < policy.rank value old
  stale_some {best label : L} (hbest : IsLabel best) (hlabel : IsLabel label)
    (hle : policy.rank value best ≤ policy.rank value label) :
    policy.stale (some best) label = true ↔ policy.rank value best < policy.rank value label
  rank_le_extend {label : L} {weight : W} (hlabel : IsLabel label) (hweight : IsWeight weight) :
    policy.rank value label ≤ policy.rank value (policy.extend label weight)
  extend_le_extend {label label' : L} {weight : W} (hlabel : IsLabel label)
    (hlabel' : IsLabel label') (hweight : IsWeight weight)
    (hle : policy.rank value label ≤ policy.rank value label') :
    policy.rank value (policy.extend label weight) ≤
      policy.rank value (policy.extend label' weight)
  lt?_eq {label label' : L} (hlabel : IsLabel label) (hlabel' : IsLabel label') (node node' : N) :
    lt? (policy.enqueue label, node) (policy.enqueue label', node') =
      some (decide (entryKey value (policy.enqueue label, node) <
        entryKey value (policy.enqueue label', node')))

variable {lt? : L × N → L × N → Option Bool} {value : L → K}
  (heapq : HeapQueue lt? (entryKey value)) (task : Task N L W) (IsLabel : L → Prop)

/-- What holds between two passes, where `settled` are the nodes that have been expanded, the
last one first. While a node is being expanded, `waived` are its links that have not been
followed yet. -/
structure Task.Inv (settled : List N) (node : N) (waived : List (N × W)) (s : State N L) :
    Prop where
  isHeap : heapq.IsHeap s.queue
  best_source : s.best.get? task.source = some task.policy.start
  isLabel {n : N} {label : L} (hbest : s.best.get? n = some label) : IsLabel label ∧
    task.policy.rank value task.policy.start ≤ task.policy.rank value label
  /-- An entry of the queue is the label of its node, or an older one that was worse. -/
  entry {entry : L × N} (hentry : entry ∈ s.queue) : ∃ label best,
    entry.1 = task.policy.enqueue label ∧ IsLabel label ∧ s.best.get? entry.2 = some best ∧
      (label = best ∨ task.policy.rank value best < task.policy.rank value label)
  /-- A label comes from an expanded node over a link. -/
  parent {n : N} {label : L} (hbest : s.best.get? n = some label) (hne : n ≠ task.source) :
    ∃ previous ∈ settled, ∃ before weight, s.parent.get? n = some previous ∧
      IsLink task.graph ⟨previous, n, weight⟩ ∧ s.best.get? previous = some before ∧
      label = task.policy.extend before weight
  chained : Chained s.parent task.source settled
  nodup : settled.Nodup
  exists_best {n : N} (hn : n ∈ settled) : ∃ label, s.best.get? n = some label
  /-- The links of expanded nodes have been followed. -/
  relaxed {link : Link N W} {before : L} (hsrc : link.src ∈ settled)
    (hbest : s.best.get? link.src = some before) (hlink : IsLink task.graph link) :
    (link.src = node ∧ (link.dst, link.weight) ∈ waived) ∨
      ∃ label, s.best.get? link.dst = some label ∧
        task.policy.rank value label ≤
          task.policy.rank value (task.policy.extend before link.weight)
  /-- The nodes that are reached but not expanded wait in the queue. -/
  queued {n : N} {label : L} (hbest : s.best.get? n = some label) (hn : n ∉ settled) :
    (task.policy.enqueue label, n) ∈ s.queue
  /-- No entry of the queue is better than the label of an expanded node. -/
  ahead {n : N} {label : L} {entry : L × N} (hn : n ∈ settled)
    (hbest : s.best.get? n = some label) (hentry : entry ∈ s.queue) :
    task.policy.rank value label ≤ value entry.1
  destination : task.destination ∉ settled

namespace Task.Inv

variable {heapq task IsLabel} {IsWeight : W → Prop} {settled : List N} {node : N}
  {waived : List (N × W)} {neighbor : N × W} {s : State N L} {label : L}

/-- Entries of the queue can be compared. -/
theorem keyedBy (h : task.Inv heapq IsLabel settled node waived s)
    (lawful : task.policy.Lawful lt? value IsLabel IsWeight) {entries : List (L × N)}
    (hentries : ∀ e ∈ entries, e ∈ s.queue ∨ ∃ l, e.1 = task.policy.enqueue l ∧ IsLabel l) :
    entries.KeyedBy lt? (entryKey value) := by
  have hlabels : ∀ e ∈ entries, ∃ l, e.1 = task.policy.enqueue l ∧ IsLabel l := by
    intro e he
    rcases hentries e he with hqueue | hnew
    · obtain ⟨l, _, heq, hl, _⟩ := h.entry hqueue
      exact ⟨l, heq, hl⟩
    · exact hnew
  refine List.pairwise_of_forall_mem_list fun e he e' he' => ?_
  obtain ⟨l, heq, hl⟩ := hlabels e he
  obtain ⟨l', heq', hl'⟩ := hlabels e' he'
  obtain ⟨q, n⟩ := e
  obtain ⟨q', n'⟩ := e'
  obtain rfl : q = _ := heq
  obtain rfl : q' = _ := heq'
  exact ⟨lawful.lt?_eq hl hl' n n', lawful.lt?_eq hl' hl n' n⟩

/-- A label that improves on that of a neighbour goes to a node that has not been expanded. -/
theorem not_mem_of_improves (h : task.Inv heapq IsLabel settled node waived s)
    (lawful : task.policy.Lawful lt? value IsLabel IsWeight)
    (hbest : s.best.get? node = some label)
    (hlast : ∀ p ∈ settled, ∀ a, s.best.get? p = some a →
      task.policy.rank value a ≤ task.policy.rank value label)
    (hweight : IsWeight neighbor.2)
    (himproves : task.policy.improves (s.best.get? neighbor.1)
      (task.policy.extend label neighbor.2) = true) :
    neighbor.1 ∉ settled ∧ neighbor.1 ≠ task.source := by
  obtain ⟨hlabel, hfloor⟩ := h.isLabel hbest
  have hcandidate := lawful.isLabel_extend hlabel hweight
  have hle := lawful.rank_le_extend hlabel hweight
  constructor
  · intro hmem
    obtain ⟨old, hold⟩ := h.exists_best hmem
    rw [hold, lawful.improves_some (h.isLabel hold).1 hcandidate] at himproves
    exact absurd ((hlast _ hmem old hold).trans hle) (not_le.mpr himproves)
  · intro hsource
    rw [hsource, h.best_source, lawful.improves_some lawful.isLabel_start hcandidate] at himproves
    exact absurd (hfloor.trans hle) (not_le.mpr himproves)

/-- A neighbour that is reached better. -/
theorem relax_of_improves (h : task.Inv heapq IsLabel settled node (neighbor :: waived) s)
    (lawful : task.policy.Lawful lt? value IsLabel IsWeight) (hnode : node ∈ settled)
    (hbest : s.best.get? node = some label)
    (hlast : ∀ p ∈ settled, ∀ a, s.best.get? p = some a →
      task.policy.rank value a ≤ task.policy.rank value label)
    (hlink : IsLink task.graph ⟨node, neighbor.1, neighbor.2⟩) (hweight : IsWeight neighbor.2)
    (himproves : task.policy.improves (s.best.get? neighbor.1)
      (task.policy.extend label neighbor.2) = true) :
    task.Inv heapq IsLabel settled node waived
      { best := s.best.set neighbor.1 (task.policy.extend label neighbor.2)
        parent := s.parent.set neighbor.1 node
        queue := heapq.heappush s.queue
          (task.policy.enqueue (task.policy.extend label neighbor.2), neighbor.1) } := by
  obtain ⟨m, w⟩ := neighbor
  obtain ⟨hsettled, hsource⟩ := h.not_mem_of_improves lawful hbest hlast hweight himproves
  obtain ⟨hlabel, hfloor⟩ := h.isLabel hbest
  have hcandidate := lawful.isLabel_extend hlabel hweight
  have hle := lawful.rank_le_extend hlabel hweight
  have hkeys : ((task.policy.enqueue (task.policy.extend label w), m) :: s.queue).KeyedBy lt?
      (entryKey value) := by
    refine h.keyedBy lawful fun e he => ?_
    rcases List.mem_cons.mp he with rfl | he
    · exact Or.inr ⟨_, rfl, hcandidate⟩
    · exact Or.inl he
  have hmem : ∀ e, e ∈ heapq.heappush s.queue
      (task.policy.enqueue (task.policy.extend label w), m) ↔
      e = (task.policy.enqueue (task.policy.extend label w), m) ∨ e ∈ s.queue := fun e => by
    rw [(heapq.heappush_perm h.isHeap hkeys).mem_iff, List.mem_cons]
  have hother : ∀ {n l}, n ≠ m → (s.best.set m l).get? n = s.best.get? n :=
    fun hne => Dict.get?_set_of_ne _ _ hne
  have hexpanded : ∀ {n l}, n ∈ settled → (s.best.set m l).get? n = s.best.get? n :=
    fun hn => hother fun heq => hsettled (heq ▸ hn)
  -- what the neighbour had before was worse
  have hworse : ∀ old, s.best.get? m = some old →
      task.policy.rank value (task.policy.extend label w) < task.policy.rank value old := by
    intro old hold
    rw [hold] at himproves
    exact (lawful.improves_some (h.isLabel hold).1 hcandidate).mp himproves
  refine ⟨heapq.isHeap_heappush h.isHeap hkeys, ?_, ?_, ?_, ?_, h.chained.set hsettled, h.nodup,
    ?_, ?_, ?_, ?_, h.destination⟩
  · -- the label of the source
    rw [hother (Ne.symm hsource), h.best_source]
  · -- labels
    intro n l hl
    by_cases hn : n = m
    · subst hn
      rw [Dict.get?_set_self] at hl
      obtain rfl := Option.some.inj hl
      exact ⟨hcandidate, hfloor.trans hle⟩
    · exact h.isLabel ((hother hn).symm.trans hl)
  · -- entries of the queue: those of the neighbour have become outdated
    intro e he
    rcases (hmem e).mp he with rfl | he
    · exact ⟨_, _, rfl, hcandidate, Dict.get?_set_self _ _ _, Or.inl rfl⟩
    obtain ⟨l, best, heq, hl, hget, hcases⟩ := h.entry he
    by_cases hn : e.2 = m
    · refine ⟨l, _, heq, hl, by rw [hn, Dict.get?_set_self], Or.inr ?_⟩
      have hlt := hworse best (hn ▸ hget)
      rcases hcases with rfl | hcases
      · exact hlt
      · exact hlt.trans hcases
    · exact ⟨l, best, heq, hl, by rw [hother hn, hget], hcases⟩
  · -- where labels come from
    intro n l hl hne
    by_cases hn : n = m
    · subst hn
      rw [Dict.get?_set_self] at hl
      obtain rfl := Option.some.inj hl
      exact ⟨node, hnode, label, w, Dict.get?_set_self _ _ _, hlink,
        (hexpanded hnode).trans hbest, rfl⟩
    · obtain ⟨p, hp, before, weight, hparent, hlink', hbefore, heq⟩ :=
        h.parent ((hother hn).symm.trans hl) hne
      exact ⟨p, hp, before, weight, (Dict.get?_set_of_ne _ _ hn).trans hparent, hlink',
        (hexpanded hp).trans hbefore, heq⟩
  · -- expanded nodes
    intro n hn
    obtain ⟨l, hl⟩ := h.exists_best hn
    exact ⟨l, (hexpanded hn).trans hl⟩
  · -- links that have been followed
    intro link before hsrc hbefore hlink'
    rw [hexpanded hsrc] at hbefore
    rcases h.relaxed hsrc hbefore hlink' with ⟨heq, hwaived⟩ | ⟨l, hl, hrank⟩
    · rcases List.mem_cons.mp hwaived with hnew | hwaived
      · -- this is the link that has just been followed
        obtain ⟨hdst, hw⟩ := Prod.mk.inj hnew
        obtain rfl : before = label := Option.some.inj (hbefore.symm.trans (heq ▸ hbest))
        refine Or.inr ⟨_, ?_, le_of_eq (by rw [hw])⟩
        rw [hdst, Dict.get?_set_self]
      · exact Or.inl ⟨heq, hwaived⟩
    · right
      by_cases hdst : link.dst = m
      · refine ⟨_, by rw [hdst, Dict.get?_set_self], ?_⟩
        exact (hworse l (hdst ▸ hl)).le.trans hrank
      · exact ⟨l, (hother hdst).trans hl, hrank⟩
  · -- nodes that wait in the queue
    intro n l hl hn
    rw [hmem]
    by_cases heq : n = m
    · subst heq
      rw [Dict.get?_set_self] at hl
      obtain rfl := Option.some.inj hl
      exact Or.inl rfl
    · exact Or.inr (h.queued ((hother heq).symm.trans hl) hn)
  · -- entries of the queue are not better than expanded nodes
    intro n l e hn hl he
    rw [hexpanded hn] at hl
    rcases (hmem e).mp he with rfl | he
    · exact (hlast n hn l hl).trans hle
    · exact h.ahead hn hl he

/-- A neighbour that is not reached better. -/
theorem relax_of_not_improves (h : task.Inv heapq IsLabel settled node (neighbor :: waived) s)
    (lawful : task.policy.Lawful lt? value IsLabel IsWeight)
    (hbest : s.best.get? node = some label) (hweight : IsWeight neighbor.2)
    (himproves : ¬ task.policy.improves (s.best.get? neighbor.1)
      (task.policy.extend label neighbor.2) = true) :
    task.Inv heapq IsLabel settled node waived s := by
  have hcandidate := lawful.isLabel_extend (h.isLabel hbest).1 hweight
  refine { h with relaxed := fun {link before} hsrc hbefore hlink => ?_ }
  rcases h.relaxed hsrc hbefore hlink with ⟨heq, hwaived⟩ | hdone
  · rcases List.mem_cons.mp hwaived with hnew | hwaived
    · obtain ⟨hdst, hw⟩ := Prod.mk.inj hnew
      obtain rfl : before = label := Option.some.inj (hbefore.symm.trans (heq ▸ hbest))
      right
      -- the neighbour has a label, since the first one is always an improvement
      rw [← hdst, ← hw] at himproves
      cases hold : s.best.get? link.dst with
      | none =>
          rw [hold] at himproves
          exact absurd (lawful.improves_none (hw ▸ hcandidate)) himproves
      | some old =>
          rw [hold, lawful.improves_some (h.isLabel hold).1 (hw ▸ hcandidate), not_lt] at himproves
          exact ⟨old, rfl, himproves⟩
    · exact Or.inl ⟨heq, hwaived⟩
  · exact Or.inr hdone

/-- A neighbour of the node that is being expanded. Labels of expanded nodes are final, and one
entry at most is pushed. -/
theorem relax (h : task.Inv heapq IsLabel settled node (neighbor :: waived) s)
    (lawful : task.policy.Lawful lt? value IsLabel IsWeight) (hnode : node ∈ settled)
    (hbest : s.best.get? node = some label)
    (hlast : ∀ p ∈ settled, ∀ a, s.best.get? p = some a →
      task.policy.rank value a ≤ task.policy.rank value label)
    (hlink : IsLink task.graph ⟨node, neighbor.1, neighbor.2⟩) (hweight : IsWeight neighbor.2) :
    task.Inv heapq IsLabel settled node waived (task.relax heapq node label s neighbor) ∧
      (∀ p ∈ settled, (task.relax heapq node label s neighbor).best.get? p = s.best.get? p) ∧
      (task.relax heapq node label s neighbor).queue.length ≤ s.queue.length + 1 := by
  unfold Task.relax
  by_cases himproves : task.policy.improves (s.best.get? neighbor.1)
      (task.policy.extend label neighbor.2) = true
  · rw [if_pos himproves]
    refine ⟨h.relax_of_improves lawful hnode hbest hlast hlink hweight himproves, ?_, ?_⟩
    · obtain ⟨hsettled, _⟩ := h.not_mem_of_improves lawful hbest hlast hweight himproves
      exact fun p hp => Dict.get?_set_of_ne _ _ fun heq => hsettled (heq ▸ hp)
    · have hcandidate := lawful.isLabel_extend (h.isLabel hbest).1 hweight
      refine le_of_eq (heapq.heappush_perm h.isHeap (h.keyedBy lawful fun e he => ?_)).length_eq
      rcases List.mem_cons.mp he with rfl | he
      · exact Or.inr ⟨_, rfl, hcandidate⟩
      · exact Or.inl he
  · rw [if_neg himproves]
    exact ⟨h.relax_of_not_improves lawful hbest hweight himproves, fun _ _ => rfl,
      Nat.le_succ _⟩

/-- All neighbours of the node that is being expanded. -/
theorem foldl_relax (lawful : task.policy.Lawful lt? value IsLabel IsWeight)
    (hnode : node ∈ settled) (h : task.Inv heapq IsLabel settled node waived s)
    (hbest : s.best.get? node = some label)
    (hlast : ∀ p ∈ settled, ∀ a, s.best.get? p = some a →
      task.policy.rank value a ≤ task.policy.rank value label)
    (hlinks : ∀ neighbor ∈ waived, IsLink task.graph ⟨node, neighbor.1, neighbor.2⟩ ∧
      IsWeight neighbor.2) :
    task.Inv heapq IsLabel settled node [] (waived.foldl (task.relax heapq node label) s) ∧
      (waived.foldl (task.relax heapq node label) s).queue.length ≤
        s.queue.length + waived.length := by
  induction waived generalizing s with
  | nil => exact ⟨h, le_refl _⟩
  | cons neighbor waived ih =>
      obtain ⟨hlink, hweight⟩ := hlinks neighbor List.mem_cons_self
      obtain ⟨hinv, hsame, hlength⟩ := h.relax lawful hnode hbest hlast hlink hweight
      rw [List.foldl_cons]
      obtain ⟨hinv', hlength'⟩ := ih hinv ((hsame node hnode).trans hbest)
        (fun p hp a ha => hlast p hp a ((hsame p hp).symm.trans ha))
        fun n hn => hlinks n (List.mem_cons_of_mem _ hn)
      refine ⟨hinv', ?_⟩
      rw [List.length_cons]
      omega

/-- The links of an expanded node that have been followed improve nothing. -/
theorem foldl_relax_eq_self (h : task.Inv heapq IsLabel settled node [] s)
    (lawful : task.policy.Lawful lt? value IsLabel IsWeight) {n : N} (hn : n ∈ settled)
    (hbest : s.best.get? n = some label) {links : List (N × W)}
    (hlinks : ∀ neighbor ∈ links, IsLink task.graph ⟨n, neighbor.1, neighbor.2⟩ ∧
      IsWeight neighbor.2) :
    links.foldl (task.relax heapq n label) s = s := by
  induction links with
  | nil => rfl
  | cons neighbor links ih =>
      obtain ⟨hlink, hweight⟩ := hlinks neighbor List.mem_cons_self
      have hcandidate := lawful.isLabel_extend (h.isLabel hbest).1 hweight
      have hkeep : task.relax heapq n label s neighbor = s := by
        unfold Task.relax
        rw [if_neg]
        rcases h.relaxed hn hbest hlink with ⟨_, hwaived⟩ | ⟨old, hold, hrank⟩
        · simp at hwaived
        · rw [hold, lawful.improves_some (h.isLabel hold).1 hcandidate, not_lt]
          exact hrank
      rw [List.foldl_cons, hkeep]
      exact ih fun m hm => hlinks m (List.mem_cons_of_mem _ hm)

/-- An entry taken from the queue that is not the label of a waiting node. -/
theorem drop (h : task.Inv heapq IsLabel settled node [] s) {entry : L × N}
    {queue : List (L × N)} (hperm : s.queue.Perm (entry :: queue)) (hheap : heapq.IsHeap queue)
    (hentry : ∀ l, s.best.get? entry.2 = some l → entry.1 = task.policy.enqueue l →
      entry.2 ∈ settled) :
    task.Inv heapq IsLabel settled node [] { s with queue := queue } := by
  have hmem : ∀ e ∈ queue, e ∈ s.queue := fun e he =>
    hperm.mem_iff.mpr (List.mem_cons_of_mem _ he)
  refine { h with
    isHeap := hheap
    entry := fun he => h.entry (hmem _ he)
    queued := fun {n l} hl hn => ?_
    ahead := fun hn hl he => h.ahead hn hl (hmem _ he) }
  rcases List.mem_cons.mp (hperm.mem_iff.mp (h.queued hl hn)) with heq | hqueue
  · subst heq
    exact absurd (hentry l hl rfl) hn
  · exact hqueue

/-- An entry taken from the queue whose node is expanded next. -/
theorem expand (h : task.Inv heapq IsLabel settled node [] s) {n : N}
    {queue : List (L × N)} (hperm : s.queue.Perm ((task.policy.enqueue label, n) :: queue))
    (hheap : heapq.IsHeap queue) (hleast : ∀ e ∈ queue, task.policy.rank value label ≤ value e.1)
    (hbest : s.best.get? n = some label) (hn : n ∉ settled) (hne : n ≠ task.destination) :
    task.Inv heapq IsLabel (n :: settled) n (linksFrom task.graph n) { s with queue := queue } := by
  have hmem : ∀ e ∈ queue, e ∈ s.queue := fun e he =>
    hperm.mem_iff.mpr (List.mem_cons_of_mem _ he)
  exact
    { isHeap := hheap
      best_source := h.best_source
      isLabel := h.isLabel
      entry := fun he => h.entry (hmem _ he)
      parent := fun hl hsource => by
        obtain ⟨p, hp, hrest⟩ := h.parent hl hsource
        exact ⟨p, List.mem_cons_of_mem _ hp, hrest⟩
      -- its parent has been expanded before
      chained := by
        refine ⟨?_, h.chained⟩
        by_cases hsource : n = task.source
        · exact Or.inl hsource
        · obtain ⟨p, hp, _, _, hparent, _⟩ := h.parent hbest hsource
          exact Or.inr ⟨p, hp, hparent⟩
      nodup := List.nodup_cons.mpr ⟨hn, h.nodup⟩
      exists_best := fun hm => by
        rcases List.mem_cons.mp hm with rfl | hm
        · exact ⟨label, hbest⟩
        · exact h.exists_best hm
      -- its own links are the ones that are waived
      relaxed := fun {link before} hsrc hbefore hlink => by
        rcases List.mem_cons.mp hsrc with heq | hsrc
        · exact Or.inl ⟨heq, heq ▸ hlink⟩
        · rcases h.relaxed hsrc hbefore hlink with ⟨_, hwaived⟩ | hdone
          · simp at hwaived
          · exact Or.inr hdone
      queued := fun {m l} hl hm => by
        rw [List.mem_cons, not_or] at hm
        rcases List.mem_cons.mp (hperm.mem_iff.mp (h.queued hl hm.2)) with heq | hqueue
        · exact absurd (Prod.mk.inj heq).2 hm.1
        · exact hqueue
      ahead := fun {m l e} hm hl he => by
        rcases List.mem_cons.mp hm with rfl | hm
        · obtain rfl : l = label := Option.some.inj (hl.symm.trans hbest)
          exact hleast e he
        · exact h.ahead hm hl (hmem e he)
      destination := by
        rw [List.mem_cons, not_or]
        exact ⟨Ne.symm hne, h.destination⟩ }

/-- Every path ends at an expanded node whose label is no worse, or some entry of the queue is no
worse. -/
theorem frontier (h : task.Inv heapq IsLabel settled node [] s)
    (lawful : task.policy.Lawful lt? value IsLabel IsWeight)
    (hweights : ∀ link, IsLink task.graph link → IsWeight link.weight)
    {path : List (Link N W)} {target : N}
    (hpath : Path (IsLink task.graph) task.source path target) :
    IsLabel (task.policy.label path) ∧
      ((target ∈ settled ∧ ∃ l, s.best.get? target = some l ∧
          task.policy.rank value l ≤ task.policy.rank value (task.policy.label path)) ∨
        ∃ e ∈ s.queue, value e.1 ≤ task.policy.rank value (task.policy.label path)) := by
  induction hpath with
  | nil =>
      -- the source has been expanded, or waits in the queue
      refine ⟨lawful.isLabel_start, ?_⟩
      by_cases hsource : task.source ∈ settled
      · exact Or.inl ⟨hsource, _, h.best_source, le_refl _⟩
      · exact Or.inr ⟨_, h.queued h.best_source hsource, le_refl _⟩
  | @snoc path link _ hlink ih =>
      obtain ⟨hlabel, hcases⟩ := ih
      have hweight := hweights link hlink
      rw [Policy.label_concat]
      refine ⟨lawful.isLabel_extend hlabel hweight, ?_⟩
      rcases hcases with ⟨hsrc, a, ha, hrank⟩ | ⟨e, he, hrank⟩
      · -- the last link starts at an expanded node, so it has been followed
        rcases h.relaxed hsrc ha hlink with ⟨_, hwaived⟩ | ⟨l, hl, hle⟩
        · simp at hwaived
        have hle' := hle.trans
          (lawful.extend_le_extend (h.isLabel ha).1 hlabel hweight hrank)
        by_cases hdst : link.dst ∈ settled
        · exact Or.inl ⟨hdst, l, hl, hle'⟩
        · exact Or.inr ⟨_, h.queued hl hdst, hle'⟩
      · exact Or.inr ⟨e, he, hrank.trans (lawful.rank_le_extend hlabel hweight)⟩

end Task.Inv

/-- A simple path to a node with the node's label, along the parents, over some nodes only. -/
structure Task.Traced (s : State N L) (among : List N) (target : N) (path : List (Link N W)) :
    Prop where
  isPath : Path (IsLink task.graph) task.source path target
  best : s.best.get? target = some (task.policy.label path)
  nodup : (nodes task.source path).Nodup
  chain : (nodes task.source path).IsChain fun a b => s.parent.get? b = some a
  last : (nodes task.source path).getLast? = some target
  subset : nodes task.source path ⊆ among

variable {task} {s : State N L}

theorem Task.Traced.nil (hbest : s.best.get? task.source = some task.policy.start) {among : List N}
    (hamong : task.source ∈ among) : task.Traced s among task.source [] where
  isPath := .nil
  best := hbest
  nodup := List.nodup_singleton _
  chain := List.isChain_singleton _
  last := rfl
  subset := by simpa [nodes] using hamong

/-- One more link to a new node. -/
theorem Task.Traced.snoc {among : List N} {previous target : N} {path : List (Link N W)}
    {weight : W} (h : task.Traced s among previous path) (hparent : s.parent.get? target = some previous)
    (hlink : IsLink task.graph ⟨previous, target, weight⟩)
    (hbest : s.best.get? target = some (task.policy.extend (task.policy.label path) weight))
    (hnew : target ∉ among) :
    task.Traced s (target :: among) target (path ++ [⟨previous, target, weight⟩]) where
  isPath := h.isPath.snoc hlink
  best := by rw [hbest, Policy.label_concat]
  nodup := by
    rw [nodes_concat]
    refine List.nodup_append.mpr ⟨h.nodup, List.nodup_singleton _, fun a ha b hb heq => ?_⟩
    obtain rfl := List.mem_singleton.mp hb
    exact hnew (heq ▸ h.subset ha)
  chain := by
    rw [nodes_concat, List.isChain_append]
    refine ⟨h.chain, List.isChain_singleton _, fun a ha b hb => ?_⟩
    rw [h.last] at ha
    obtain rfl : previous = a := Option.some.inj ha
    obtain rfl : target = b := Option.some.inj hb
    exact hparent
  last := by rw [nodes_concat, List.getLast?_concat]
  subset := by
    rw [nodes_concat]
    intro n hn
    rcases List.mem_append.mp hn with hn | hn
    · exact List.mem_cons_of_mem _ (h.subset hn)
    · exact List.mem_cons.mpr (Or.inl (List.mem_singleton.mp hn))

variable {heapq IsLabel} {settled : List N} {node : N} {waived : List (N × W)}

/-- The labels of expanded nodes are those of simple paths along the parents. -/
theorem Task.Inv.exists_traced (h : task.Inv heapq IsLabel settled node waived s) :
    ∀ n ∈ settled, ∃ path, task.Traced s settled n path := by
  have hlist : ∀ list : List N, list ⊆ settled → list.Nodup → Chained s.parent task.source list →
      ∀ n ∈ list, ∃ path, task.Traced s list n path := by
    intro list
    induction list with
    | nil => simp
    | cons first earlier ih =>
        intro hsubset hnodup hchained n hn
        obtain ⟨hfirst, hearlier⟩ := List.nodup_cons.mp hnodup
        obtain ⟨hparent, hchained⟩ := hchained
        have hprevious := ih (fun m hm => hsubset (List.mem_cons_of_mem _ hm)) hearlier hchained
        rcases List.mem_cons.mp hn with rfl | hn
        · -- the path to the parent and the link from there
          by_cases hsource : n = task.source
          · subst hsource
            exact ⟨[], .nil h.best_source List.mem_cons_self⟩
          obtain ⟨previous, hmem, hget⟩ := hparent.resolve_left hsource
          obtain ⟨label, hlabel⟩ := h.exists_best (hsubset List.mem_cons_self)
          obtain ⟨p, -, before, weight, hp, hlink, hbefore, rfl⟩ := h.parent hlabel hsource
          obtain rfl : previous = p := Option.some.inj (hget.symm.trans hp)
          obtain ⟨path, hpath⟩ := hprevious previous hmem
          obtain rfl := Option.some.inj (hbefore.symm.trans hpath.best)
          exact ⟨_, hpath.snoc hget hlink hlabel hfirst⟩
        · obtain ⟨path, hpath⟩ := hprevious n hn
          have hsubset : nodes task.source path ⊆ first :: earlier := fun m hm =>
            List.mem_cons_of_mem _ (hpath.subset hm)
          exact ⟨path, { hpath with subset := hsubset }⟩
  exact hlist settled (List.Subset.refl _) h.nodup h.chained

/-- The label of the destination is that of a simple path along the parents. -/
theorem Task.Inv.exists_traced_destination (h : task.Inv heapq IsLabel settled node waived s)
    {label : L} (hbest : s.best.get? task.destination = some label) :
    ∃ among path, task.Traced s among task.destination path := by
  by_cases hsource : task.destination = task.source
  · refine ⟨[task.source], [], ?_⟩
    rw [hsource]
    exact .nil h.best_source (List.mem_singleton_self _)
  · obtain ⟨p, hp, before, weight, hparent, hlink, hbefore, rfl⟩ := h.parent hbest hsource
    obtain ⟨path, hpath⟩ := h.exists_traced p hp
    obtain rfl := Option.some.inj (hbefore.symm.trans hpath.best)
    exact ⟨_, _, hpath.snoc hparent hlink hbest h.destination⟩

/-! ## The result -/

/-- What the search has found: that there is no path to the destination, or a best one, which the
way back finds. -/
def Task.Solved (task : Task N L W) (value : L → K) (s : State N L) : Prop :=
  (s.best.get? task.destination = none ∧
    ∀ path, ¬ Path (IsLink task.graph) task.source path task.destination) ∨
  ∃ path, Path (IsLink task.graph) task.source path task.destination ∧
    s.best.get? task.destination = some (task.policy.label path) ∧
    (nodes task.source path).Nodup ∧
    traceBack s.parent task.source task.destination = some (nodes task.source path) ∧
    ∀ other, Path (IsLink task.graph) task.source other task.destination →
      task.policy.rank value (task.policy.label path) ≤
        task.policy.rank value (task.policy.label other)

variable {IsWeight : W → Prop}

/-- A search that runs out of entries. -/
theorem Task.Inv.solved_of_empty (h : task.Inv heapq IsLabel settled node [] s)
    (lawful : task.policy.Lawful lt? value IsLabel IsWeight)
    (hweights : ∀ link, IsLink task.graph link → IsWeight link.weight) (hqueue : s.queue = []) :
    task.Solved value s := by
  refine Or.inl ⟨?_, fun path hpath => ?_⟩
  · cases hbest : s.best.get? task.destination with
    | none => rfl
    | some label =>
        have hmem := h.queued hbest h.destination
        rw [hqueue] at hmem
        simp at hmem
  · rcases (h.frontier lawful hweights hpath).2 with ⟨hsettled, _⟩ | ⟨e, he, _⟩
    · exact h.destination hsettled
    · rw [hqueue] at he
      simp at he

/-- A search whose next entry is the destination's. -/
theorem Task.Inv.solved_of_least (h : task.Inv heapq IsLabel settled node [] s)
    (lawful : task.policy.Lawful lt? value IsLabel IsWeight)
    (hweights : ∀ link, IsLink task.graph link → IsWeight link.weight) {entry : L × N}
    (hentry : entry ∈ s.queue) (hleast : ∀ e ∈ s.queue, value entry.1 ≤ value e.1)
    (hdestination : entry.2 = task.destination) : task.Solved value s := by
  obtain ⟨label, best, heq, -, hbest, hcases⟩ := h.entry hentry
  have hrank : task.policy.rank value best ≤ value entry.1 := by
    rw [heq]
    rcases hcases with rfl | hworse
    · exact le_refl _
    · exact hworse.le
  rw [hdestination] at hbest
  obtain ⟨among, path, hpath⟩ := h.exists_traced_destination hbest
  refine Or.inr ⟨path, hpath.isPath, hpath.best, hpath.nodup,
    traceBack_eq hpath.chain hpath.nodup hpath.last, fun other hother => ?_⟩
  obtain rfl := Option.some.inj (hbest.symm.trans hpath.best)
  rcases (h.frontier lawful hweights hother).2 with ⟨hsettled, _⟩ | ⟨e, he, hother⟩
  · exact absurd hsettled h.destination
  · exact (hrank.trans (hleast e he)).trans hother

/-- How many passes are still to come at most: each takes an entry from the queue, and following a
link adds at most one. -/
def Task.passes (task : Task N L W) (settled : List N) (s : State N L) : ℕ :=
  s.queue.length + linkCount task.graph (task.graph.keys.toFinset \ settled.toFinset)

/-- A node that is expanded takes its links out of the count. -/
theorem Task.passes_expand (task : Task N L W) {n : N} {settled : List N} (hn : n ∉ settled)
    {s s' : State N L}
    (hlength : s'.queue.length + 1 ≤ s.queue.length + (linksFrom task.graph n).length) :
    task.passes (n :: settled) s' < task.passes settled s := by
  have hcount : linkCount task.graph (task.graph.keys.toFinset \ (n :: settled).toFinset) +
      (linksFrom task.graph n).length =
      linkCount task.graph (task.graph.keys.toFinset \ settled.toFinset) := by
    by_cases hkey : n ∈ task.graph.keys
    · have hmem : n ∈ task.graph.keys.toFinset \ settled.toFinset := by simp [hkey, hn]
      have herase : task.graph.keys.toFinset \ (n :: settled).toFinset =
          (task.graph.keys.toFinset \ settled.toFinset).erase n := by
        ext m
        simp only [Finset.mem_sdiff, Finset.mem_erase, List.mem_toFinset, List.mem_cons]
        tauto
      rw [linkCount, herase, linkCount]
      exact Finset.sum_erase_add _ _ hmem
    · -- a node without links
      have hnone : task.graph.get? n = none := by
        cases hget : task.graph.get? n with
        | none => rfl
        | some _ => exact absurd (Dict.mem_keys_iff.mpr ⟨_, hget⟩) hkey
      have hsame : task.graph.keys.toFinset \ (n :: settled).toFinset =
          task.graph.keys.toFinset \ settled.toFinset := by
        ext m
        simp only [Finset.mem_sdiff, List.mem_toFinset, List.mem_cons]
        constructor
        · tauto
        · rintro ⟨hm, hsettled⟩
          exact ⟨hm, fun h => h.elim (fun heq => hkey (heq ▸ hm)) hsettled⟩
      rw [hsame, linksFrom, hnone]
      rfl
  unfold Task.passes
  omega

/-- One pass goes on with fewer passes to come, or leaves with the result. -/
theorem Task.Inv.pass (h : task.Inv heapq IsLabel settled node [] s)
    (lawful : task.policy.Lawful lt? value IsLabel IsWeight)
    (hweights : ∀ link, IsLink task.graph link → IsWeight link.weight) :
    (∃ r, task.pass heapq s = some (.inr r) ∧ task.Solved value r) ∨
      ∃ s' settled' node', task.pass heapq s = some (.inl s') ∧
        task.Inv heapq IsLabel settled' node' [] s' ∧
        task.passes settled' s' < task.passes settled s := by
  unfold Task.pass
  by_cases hempty : s.queue = []
  · -- nothing waits in the queue
    left
    refine ⟨s, ?_, h.solved_of_empty lawful hweights hempty⟩
    rw [if_pos (by simp [hempty])]
  rw [if_neg (by simpa using hempty)]
  have hkeys : s.queue.KeyedBy lt? (entryKey value) := h.keyedBy lawful fun e he => Or.inl he
  obtain ⟨⟨q, n⟩, queue, hpop, hperm, hheap, hleast⟩ := heapq.heappop_eq h.isHeap hkeys hempty
  rw [hpop, Option.map_some]
  have hmem : (q, n) ∈ s.queue := hperm.mem_iff.mpr List.mem_cons_self
  have hlength : s.queue.length = queue.length + 1 := hperm.length_eq
  have hvalue : ∀ e ∈ queue, value q ≤ value e.1 := fun e he =>
    Prod.Lex.monotone_fst _ _ (hleast e he)
  obtain ⟨label, best, heq, hlabel, hbest, hcases⟩ := h.entry hmem
  obtain rfl : q = task.policy.enqueue label := heq
  simp only [Task.visit, lawful.dequeue_enqueue hlabel]
  by_cases hdestination : n = task.destination
  · -- the search leaves before it looks whether the entry is outdated
    left
    rw [if_pos hdestination]
    refine ⟨_, rfl, ?_⟩
    have hsolved := h.solved_of_least lawful hweights hmem (fun e he => ?_) hdestination
    · exact hsolved
    · rcases List.mem_cons.mp (hperm.mem_iff.mp he) with rfl | he
      · exact le_refl _
      · exact hvalue e he
  right
  rw [if_neg hdestination]
  have hle : task.policy.rank value best ≤ task.policy.rank value label := by
    rcases hcases with rfl | hworse
    · exact le_refl _
    · exact hworse.le
  simp only [hbest]
  by_cases hstale : task.policy.stale (some best) label = true
  · rw [if_pos hstale]
    have hworse := (lawful.stale_some (h.isLabel hbest).1 hlabel hle).mp hstale
    refine ⟨_, settled, node, rfl, h.drop hperm hheap fun l hl hq => ?_, ?_⟩
    · obtain rfl : best = l := Option.some.inj (hbest.symm.trans hl)
      exact absurd (congrArg value hq) (ne_of_gt hworse)
    · unfold Task.passes
      simp only [hlength]
      omega
  rw [if_neg hstale]
  obtain rfl : label = best := by
    refine hcases.resolve_right fun hworse => hstale ?_
    exact (lawful.stale_some (h.isLabel hbest).1 hlabel hle).mpr hworse
  have hlinks : ∀ neighbor ∈ linksFrom task.graph n,
      IsLink task.graph ⟨n, neighbor.1, neighbor.2⟩ ∧ IsWeight neighbor.2 :=
    fun neighbor hn => ⟨hn, hweights ⟨n, neighbor.1, neighbor.2⟩ hn⟩
  by_cases hn : n ∈ settled
  · -- its links have been followed already, so nothing changes
    have hinv := h.drop hperm hheap fun _ _ _ => hn
    refine ⟨_, settled, node, rfl, ?_⟩
    rw [hinv.foldl_relax_eq_self lawful hn hbest hlinks]
    refine ⟨hinv, ?_⟩
    unfold Task.passes
    simp only [hlength]
    omega
  · have hinv := h.expand hperm hheap hvalue hbest hn hdestination
    have hlast : ∀ p ∈ n :: settled, ∀ a, s.best.get? p = some a →
        task.policy.rank value a ≤ task.policy.rank value label := by
      intro p hp a ha
      rcases List.mem_cons.mp hp with rfl | hp
      · exact le_of_eq (congrArg _ (Option.some.inj (ha.symm.trans hbest)))
      · exact h.ahead hp ha hmem
    obtain ⟨hinv', hpushed⟩ := foldl_relax lawful List.mem_cons_self hinv hbest hlast hlinks
    refine ⟨_, n :: settled, n, rfl, hinv', task.passes_expand hn ?_⟩
    simp only at hpushed
    omega

/-- What holds before the first pass. -/
theorem Task.inv_init (lawful : task.policy.Lawful lt? value IsLabel IsWeight) :
    task.Inv heapq IsLabel [] task.source [] task.init := by
  -- only the source has a label
  have hget : ∀ {n l}, task.init.best.get? n = some l →
      n = task.source ∧ l = task.policy.start := by
    intro n l hl
    rw [Task.init, Dict.get?_set] at hl
    by_cases hn : n = task.source
    · rw [if_pos hn] at hl
      exact ⟨hn, (Option.some.inj hl).symm⟩
    · rw [if_neg hn] at hl
      cases hl
  have hkeys : [(task.policy.enqueue task.policy.start, task.source)].KeyedBy lt?
      (entryKey value) := List.pairwise_singleton _ _
  exact
    { isHeap := by
        have hpush := heapq.isHeap_heappush heapq.isHeap_nil hkeys
        rwa [List.perm_singleton.mp (heapq.heappush_perm heapq.isHeap_nil hkeys)] at hpush
      best_source := Dict.get?_set_self _ _ _
      isLabel := fun hl => by
        obtain ⟨-, rfl⟩ := hget hl
        exact ⟨lawful.isLabel_start, le_refl _⟩
      entry := fun he => by
        obtain rfl := List.mem_singleton.mp he
        exact ⟨_, _, rfl, lawful.isLabel_start, Dict.get?_set_self _ _ _, Or.inl rfl⟩
      parent := fun hl hne => absurd (hget hl).1 hne
      chained := trivial
      nodup := List.nodup_nil
      exists_best := by simp
      relaxed := by simp
      queued := fun hl _ => by
        obtain ⟨rfl, rfl⟩ := hget hl
        exact List.mem_singleton_self _
      ahead := by simp
      destination := by simp }

/-- The search ends with the result. -/
theorem Task.search_spec (lawful : task.policy.Lawful lt? value IsLabel IsWeight)
    (hweights : ∀ link, IsLink task.graph link → IsWeight link.weight) :
    ∃ s, task.search heapq = some s ∧ task.Solved value s := by
  refine Loop.run_of_bound (fun n s => ∃ settled node, task.Inv heapq IsLabel settled node [] s ∧
    task.passes settled s = n) (task.Solved value) ?_ ⟨[], task.source, inv_init lawful, rfl⟩ ?_
  · rintro n s ⟨settled, node, hinv, rfl⟩
    refine (hinv.pass lawful hweights).imp_right ?_
    rintro ⟨s', settled', node', hs', hinv', hlt⟩
    exact ⟨s', _, hs', ⟨settled', node', hinv', rfl⟩, hlt⟩
  · have hpasses : task.passes [] task.init =
        1 + linkCount task.graph task.graph.keys.toFinset := by
      simp [Task.passes, Task.init]
    omega

/-- The best route to the destination with its label, if there is one. -/
def Task.bestRoute (heapq : HeapQueue lt? (entryKey value)) (task : Task N L W) :
    Option (Option (List N × L)) := do
  let found ← task.search heapq
  match found.best.get? task.destination with
  | none => return none
  | some label => return some (← traceBack found.parent task.source task.destination, label)

variable (heapq task) in
/-- The best route is a simple path with the best label, and there is one if there is a path. -/
theorem Task.bestRoute_spec (lawful : task.policy.Lawful lt? value IsLabel IsWeight)
    {links : List (Link N W)} (hgraph : task.graph = graphOf links)
    (hweights : ∀ link ∈ links, IsWeight link.weight) :
    (task.bestRoute heapq = some none ∧
      ∀ path, ¬ Path (· ∈ links) task.source path task.destination) ∨
    ∃ path, Path (· ∈ links) task.source path task.destination ∧
      task.bestRoute heapq = some (some (nodes task.source path, task.policy.label path)) ∧
      (nodes task.source path).Nodup ∧
      ∀ other, Path (· ∈ links) task.source other task.destination →
        task.policy.rank value (task.policy.label path) ≤
          task.policy.rank value (task.policy.label other) := by
  have hlink : ∀ link, IsLink task.graph link ↔ link ∈ links := fun link => by
    rw [hgraph, isLink_graphOf]
  obtain ⟨found, hsearch, hsolved⟩ := task.search_spec lawful fun link h =>
    hweights link ((hlink link).mp h)
  unfold Task.bestRoute
  -- what the search finds is traced back from the destination
  rw [hsearch]
  rcases hsolved with ⟨hnone, hno⟩ | ⟨path, hpath, hbest, hnodup, hback, hleast⟩
  · left
    refine ⟨?_, fun path hpath => hno path (hpath.imp fun link => (hlink link).mpr)⟩
    simp only [bind, Option.bind_some, hnone, pure]
  · right
    refine ⟨path, hpath.imp fun link => (hlink link).mp, ?_, hnodup, fun other hother =>
      hleast other (hother.imp fun link => (hlink link).mpr)⟩
    simp only [bind, Option.bind_some, hbest, hback, pure]

end

end BestFirst
