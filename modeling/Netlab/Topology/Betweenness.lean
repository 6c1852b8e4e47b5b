import Netlab.Prelude.Betweenness
import Netlab.Topology.Centrality
import Netlab.Topology.Undirected

/-!
# Betweenness is exact

In exact arithmetic `_brandes_betweenness` computes the betweenness of every node of a graph that is
small enough. The search from a source counts the shortest routes to the nodes as it comes to them
(`Counts.sigma_eq`), and the way back along its stack adds up the dependencies of the source
(`exists_accumulate`).
-/

namespace Netlab

variable {α : Type} [DecidableEq α] {nodes : List α}

/-! ## Tables -/

/-- A dictionary has the nodes as its keys, and the values of a function. -/
structure Tabulates {β : Type} (nodes : List α) (table : Dict α β) (f : α → β) : Prop where
  keys : table.keys = nodes
  get? : ∀ a ∈ nodes, table.get? a = some (f a)

namespace Tabulates

variable {β : Type} {table : Dict α β} {f g : α → β} {a : α}

/-- Storing a value changes the function at one node. -/
theorem set (h : Tabulates nodes table f) (ha : a ∈ nodes) {value : β} (hself : g a = value)
    (hother : ∀ b ≠ a, g b = f b) : Tabulates nodes (table.set a value) g := by
  refine ⟨?_, fun b hb => ?_⟩
  · rw [Dict.keys_set_of_mem _ (h.keys ▸ ha), h.keys]
  · rw [Dict.get?_set]
    split
    · rename_i heq
      rw [heq, hself]
    · rename_i hne
      rw [h.get? b hb, hother b hne]

theorem congr (h : Tabulates nodes table f) (heq : ∀ a ∈ nodes, g a = f a) :
    Tabulates nodes table g :=
  ⟨h.keys, fun a ha => by rw [h.get? a ha, heq a ha]⟩

end Tabulates

theorem tabulates_tableOf {β : Type} (hnodup : nodes.Nodup) (value : β) :
    Tabulates nodes (tableOf nodes value) fun _ => value := by
  refine ⟨?_, fun a ha => get?_tableOf ha value⟩
  have hkeys : (nodes.map fun node => (node, value)).map Prod.fst = nodes := by
    rw [List.map_map]
    exact List.map_id nodes
  rw [tableOf, Dict.keys, Dict.entries_ofList (hkeys.symm ▸ hnodup), hkeys]

/-! ## A node is taken from the queue -/

/-- The tables of a search have the values of functions. -/
structure Tables (nodes : List α) (state : BrandesSearch α ℚ) (distance : α → ℤ) (sigma : α → ℚ)
    (before : α → List α) : Prop where
  distance : Tabulates nodes state.distance distance
  sigma : Tabulates nodes state.sigma sigma
  predecessors : Tabulates nodes state.predecessors before

/-- The distances after a node has looked at others. -/
def reach (distance : α → ℤ) (node : α) (seen : List α) (a : α) : ℤ :=
  if a ∈ seen ∧ distance a < 0 then distance node + 1 else distance a

/-- A node that is seen is one step farther than the node that looks at it. -/
def Farther (distance : α → ℤ) (node : α) (seen : List α) (a : α) : Prop :=
  a ∈ seen ∧ (distance a < 0 ∨ distance a = distance node + 1)

instance (distance : α → ℤ) (node : α) (seen : List α) (a : α) :
    Decidable (Farther distance node seen a) :=
  inferInstanceAs (Decidable (_ ∧ _))

variable {state : BrandesSearch α ℚ} {distance : α → ℤ} {sigma : α → ℚ} {before : α → List α}
  {node nxt : α}

/-- Looking at a node. -/
theorem Tables.exists_relax (h : Tables nodes state distance sigma before) (hnode : node ∈ nodes)
    (hnxt : nxt ∈ nodes) :
    ∃ state', state.relax node nxt = some state' ∧ state'.stack = state.stack ∧
      state'.queue = state.queue ++ [nxt].filter (distance · < 0) ∧
      Tables nodes state' (reach distance node [nxt])
        (fun a => if Farther distance node [nxt] a then sigma a + sigma node else sigma a)
        fun a => if Farther distance node [nxt] a then before a ++ [node] else before a := by
  have hother : ∀ a ≠ nxt, reach distance node [nxt] a = distance a ∧
      ¬Farther distance node [nxt] a := fun a ha =>
    ⟨if_neg fun hmem => ha (List.mem_singleton.mp hmem.1), fun hmem =>
      ha (List.mem_singleton.mp hmem.1)⟩
  -- the two tests of the loop body in turn: first seen, then one step further
  let reached : BrandesSearch α ℚ :=
    if distance nxt < 0 then { state with
      queue := state.queue ++ [nxt], distance := state.distance.set nxt (distance node + 1) }
    else state
  have hreached : reached.stack = state.stack ∧
      reached.queue = state.queue ++ [nxt].filter (distance · < 0) ∧
      Tables nodes reached (reach distance node [nxt]) sigma before := by
    dsimp only [reached]
    split
    · rename_i hneg
      refine ⟨rfl, by simp [hneg], ?_, h.sigma, h.predecessors⟩
      exact h.distance.set hnxt (if_pos ⟨List.mem_cons_self, hneg⟩) fun a ha => (hother a ha).1
    · rename_i hnonneg
      refine ⟨rfl, by simp [hnonneg], h.distance.congr fun a ha => ?_, h.sigma, h.predecessors⟩
      by_cases heq : a = nxt
      · exact if_neg fun hmem => hnonneg (heq ▸ hmem.2)
      · exact (hother a heq).1
  obtain ⟨hstack, hqueue, htables⟩ := hreached
  have hrelax : state.relax node nxt = some (if reach distance node [nxt] nxt = distance node + 1
      then { reached with
        sigma := reached.sigma.set nxt (sigma nxt + sigma node)
        predecessors := reached.predecessors.set nxt (before nxt ++ [node]) }
      else reached) := by
    rw [BrandesSearch.relax]
    simp only [h.distance.get? node hnode, h.distance.get? nxt hnxt, Option.bind_eq_bind,
      Option.bind_some]
    show (reached.distance.get? nxt).bind _ = _
    rw [htables.distance.get? nxt hnxt, Option.bind_some]
    split
    · show ((reached.sigma.get? nxt).bind fun _ => _) = _
      rw [htables.sigma.get? nxt hnxt, Option.bind_some]
      show ((reached.sigma.get? node).bind fun _ => _) = _
      rw [htables.sigma.get? node hnode, Option.bind_some]
      show ((reached.predecessors.get? nxt).bind fun _ => _) = _
      rw [htables.predecessors.get? nxt hnxt]
      rfl
    · rfl
  have hfarther : Farther distance node [nxt] nxt ↔
      reach distance node [nxt] nxt = distance node + 1 := by
    rw [Farther, reach]
    by_cases hneg : distance nxt < 0 <;> simp [hneg]
  refine ⟨_, hrelax, ?_⟩
  by_cases hahead : reach distance node [nxt] nxt = distance node + 1
  · have hself := hfarther.mpr hahead
    rw [if_pos hahead]
    refine ⟨hstack, hqueue, htables.distance, htables.sigma.set hnxt (if_pos hself) fun a ha => ?_,
      htables.predecessors.set hnxt (if_pos hself) fun a ha => ?_⟩
    · exact if_neg (hother a ha).2
    · exact if_neg (hother a ha).2
  · have hself := hfarther.not.mpr hahead
    have hnone : ∀ a, ¬Farther distance node [nxt] a := by
      intro a hmem
      by_cases heq : a = nxt
      · exact hself (heq ▸ hmem)
      · exact (hother a heq).2 hmem
    rw [if_neg hahead]
    exact ⟨hstack, hqueue, htables.distance, htables.sigma.congr fun a _ => if_neg (hnone a),
      htables.predecessors.congr fun a _ => if_neg (hnone a)⟩

/-- Looking at several nodes, one after the other. -/
theorem Tables.exists_foldlM_relax {seen : List α} (h : Tables nodes state distance sigma before)
    (hnode : node ∈ nodes) (hseen : ∀ a ∈ seen, a ∈ nodes) (hnodup : seen.Nodup)
    (hnonneg : 0 ≤ distance node) :
    ∃ state', seen.foldlM (BrandesSearch.relax node) state = some state' ∧
      state'.stack = state.stack ∧ state'.queue = state.queue ++ seen.filter (distance · < 0) ∧
      Tables nodes state' (reach distance node seen)
        (fun a => if Farther distance node seen a then sigma a + sigma node else sigma a)
        fun a => if Farther distance node seen a then before a ++ [node] else before a := by
  induction seen generalizing state distance sigma before with
  | nil =>
      refine ⟨state, rfl, rfl, by simp, ?_⟩
      have hnone : ∀ a, ¬Farther distance node [] a := fun a ha => List.not_mem_nil ha.1
      exact ⟨h.distance.congr fun a _ => if_neg fun ha => List.not_mem_nil ha.1,
        h.sigma.congr fun a _ => if_neg (hnone a), h.predecessors.congr fun a _ => if_neg (hnone a)⟩
  | cons nxt rest ih =>
      obtain ⟨hnxt, hrest⟩ := List.forall_mem_cons.mp hseen
      obtain ⟨hnew, hnodup⟩ := List.nodup_cons.mp hnodup
      obtain ⟨between, hbetween, hstack, hqueue, htables⟩ := h.exists_relax hnode hnxt
      -- the node that looks is neither reached by itself nor farther than itself
      have hself : reach distance node [nxt] node = distance node := if_neg fun hmem => by
        have := hmem.2
        omega
      have hselfish : ¬Farther distance node [nxt] node := by
        rintro ⟨-, hneg | heq⟩ <;> omega
      obtain ⟨state', hstate', hstack', hqueue', htables'⟩ :=
        ih htables hrest hnodup (hself ▸ hnonneg)
      have hsame : ∀ a, a ≠ nxt → reach distance node [nxt] a = distance a := fun a ha =>
        if_neg fun hmem => ha (List.mem_singleton.mp hmem.1)
      -- a node gains when it is looked at, which happens once
      have hgain : ∀ {β : Type} (gain : β → β) (x : β) (a : α),
          (if Farther distance node (nxt :: rest) a then gain x else x) =
            if Farther (reach distance node [nxt]) node rest a then
              gain (if Farther distance node [nxt] a then gain x else x)
            else if Farther distance node [nxt] a then gain x else x := by
        intro β gain x a
        by_cases ha : a = nxt
        · obtain rfl := ha
          simp [Farther, hnew]
        · simp [Farther, ha, hself, hsame a ha]
      refine ⟨state', ?_, hstack'.trans hstack, ?_, htables'.distance.congr fun a _ => ?_,
        htables'.sigma.congr fun a _ => ?_, htables'.predecessors.congr fun a _ => ?_⟩
      · rw [List.foldlM_cons, hbetween]
        exact hstate'
      · have hfilter : rest.filter (reach distance node [nxt] · < 0) =
            rest.filter (distance · < 0) := by
          refine List.filter_congr fun a ha => ?_
          rw [hsame a fun heq => hnew (heq ▸ ha)]
        rw [hqueue', hqueue, hfilter, List.append_assoc, ← List.filter_append]
        rfl
      · by_cases ha : a = nxt
        · obtain rfl := ha
          simp [reach, hnew]
        · rw [reach, reach, hself, hsame a ha]
          simp [ha]
      · rw [hgain (· + sigma node), if_neg hselfish]
      · exact hgain (· ++ [node]) (before a) a

/-! ## The search counts the shortest routes -/

/-- What holds while a search runs: it goes breadth first, and keeps for each node the nodes one
step nearer to the source that it has taken, and how many shortest routes lead through these. -/
structure Counts (G : SimpleGraph α) (nodes : List α) (source : α) (state : BrandesSearch α ℚ)
    (distance : α → ℤ) (sigma : α → ℚ) (before : α → List α) : Prop where
  tables : Tables nodes state distance sigma before
  breadth : Breadth G.Adj source (fun a => (distance a).toNat) state.stack state.queue
  reached : ∀ a, 0 ≤ distance a ↔ a ∈ state.stack ++ state.queue
  mem : ∀ a ∈ state.stack ++ state.queue, a ∈ nodes
  mem_before : ∀ a b, b ∈ before a ↔
    b ∈ state.stack ∧ G.Adj b a ∧ distance a = distance b + 1
  nodup : ∀ a, (before a).Nodup
  sigma : ∀ a, sigma a = (if a = source then 1 else 0) +
    ((before a).map fun b => ((shortestRoutes G.Adj source b).ncard : ℚ)).sum

namespace Counts

variable {G : SimpleGraph α} {graph : Graph α} {source a : α}

/-- What the search has come to is as far as its distance says. -/
theorem distance_stack (h : Counts G nodes source state distance sigma before)
    (ha : a ∈ state.stack) : Distance G.Adj source a (distance a).toNat ∧ 0 ≤ distance a :=
  ⟨h.breadth.distance ha, (h.reached a).mpr (List.mem_append_left _ ha)⟩

/-- Once the search has taken all that is nearer, it has counted the shortest routes to a node. -/
theorem sigma_eq (h : Counts G nodes source state distance sigma before)
    (hnodes : ∀ a b, G.Adj a b → b ∈ nodes) {n : ℕ} (ha : Distance G.Adj source a n)
    (hdistance : distance a = n)
    (hnear : ∀ b k, Distance G.Adj source b k → k < n → b ∈ state.stack) :
    sigma a = (shortestRoutes G.Adj source a).ncard := by
  have hsource := h.mem source h.breadth.source_mem
  have hlabel : (distance source).toNat = 0 := h.breadth.source_label
  have hfinite : ∀ t, (shortestRoutes G.Adj source t).Finite :=
    finite_shortestRoutes nodes.finite_toSet hsource hnodes
  rw [h.sigma]
  cases n with
  -- the source has one route to itself and no predecessor
  | zero =>
      obtain rfl := ha.eq_of_zero
      have hnil : before source = [] := List.eq_nil_iff_forall_not_mem.mpr fun b hb => by
        obtain ⟨hb, -, heq⟩ := (h.mem_before source b).mp hb
        have := (h.distance_stack hb).2
        omega
      rw [if_pos rfl, hnil, shortestRoutes_self, Set.ncard_singleton]
      simp
  | succ k =>
      have hne : a ≠ source := by
        rintro rfl
        omega
      -- the predecessors are the neighbours one step nearer, all of them already on the stack
      have hbefore : ∀ b, b ∈ (before a).toFinset ↔ G.Adj b a ∧ Distance G.Adj source b k := by
        intro b
        rw [List.mem_toFinset, h.mem_before]
        constructor
        · rintro ⟨hb, hba, heq⟩
          obtain ⟨hfar, hnonneg⟩ := h.distance_stack hb
          have hk : (distance b).toNat = k := by omega
          exact ⟨hba, hk ▸ hfar⟩
        · rintro ⟨hba, hfar⟩
          have hb := hnear b k hfar (Nat.lt_succ_self k)
          obtain ⟨hfar', hnonneg⟩ := h.distance_stack hb
          have hk := hfar.unique hfar'
          exact ⟨hb, hba, by omega⟩
      rw [if_neg hne, zero_add, ncard_shortestRoutes_succ ha hbefore hfinite, Nat.cast_sum,
        List.sum_toFinset _ (h.nodup a)]

/-- A node is taken from the queue. -/
theorem exists_step (h : Counts G nodes source state distance sigma before)
    (order : SetOrder α) (hgraph : ∀ a b, a ≠ b → (graph.Adj a b ↔ G.Adj a b))
    (hclosed : ∀ a b, graph.Adj a b → b ∈ nodes) {queue : List α}
    (hqueue : state.queue = node :: queue) :
    ∃ state', brandesStep order graph state = some (.inl state') ∧
      ∃ distance sigma before, Counts G nodes source state' distance sigma before := by
  have hnodes : ∀ a b, G.Adj a b → b ∈ nodes := fun a b hab =>
    hclosed a b ((hgraph a b hab.ne).mpr hab)
  obtain ⟨htables, hbreadth, hreached, hmem, hbefore, hnodup, hsigma⟩ := id h
  rw [hqueue] at hbreadth hreached hmem
  have hnode := hmem node (by simp)
  have hnonneg := (hreached node).mpr (by simp)
  have hnotin : node ∉ state.stack := fun hin =>
    (List.nodup_append.mp hbreadth.nodup).2.2 node hin node List.mem_cons_self rfl
  let seen := order.list [node] (graph.successors node)
  have hseen : ∀ a, a ∈ seen ↔ graph.Adj node a := fun a => order.mem_list _ _ _
  have htaken : Tables nodes { state with stack := state.stack ++ [node], queue } distance sigma
      before := ⟨htables.distance, htables.sigma, htables.predecessors⟩
  obtain ⟨state', hstate', hstack', hqueue', htables'⟩ := htaken.exists_foldlM_relax hnode
    (fun a ha => hclosed node a ((hseen a).mp ha)) (order.nodup _ _) hnonneg
  have hold : ∀ a ∈ state.stack ++ node :: queue, reach distance node seen a = distance a :=
    fun a ha => if_neg fun hnew => absurd ((hreached a).mpr ha) (not_le.mpr hnew.2)
  have hadj : ∀ a, node ≠ a → (a ∈ seen ↔ G.Adj node a) := fun a ha =>
    (hseen a).trans (hgraph node a ha)
  have hfresh : ∀ a, a ∈ seen.filter (distance · < 0) ↔
      G.Adj node a ∧ a ∉ state.stack ++ node :: queue := by
    intro a
    rw [List.mem_filter, decide_eq_true_iff, ← hreached, not_le]
    refine and_congr_left fun hneg => hadj a ?_
    rintro rfl
    omega
  have hnew : ∀ a ∈ seen.filter (distance · < 0), reach distance node seen a = distance node + 1 :=
    fun a ha => if_pos ⟨(List.mem_filter.mp ha).1, by simpa using (List.mem_filter.mp ha).2⟩
  have hfarther : ∀ a, Farther distance node seen a ↔
      G.Adj node a ∧ reach distance node seen a = distance node + 1 := by
    intro a
    constructor
    · rintro ⟨ha, hneg | heq⟩
      · exact ⟨((hfresh a).mp (List.mem_filter.mpr ⟨ha, by simpa using hneg⟩)).1,
          if_pos ⟨ha, hneg⟩⟩
      · have hne : node ≠ a := by
          rintro rfl
          omega
        exact ⟨(hadj a hne).mp ha, (if_neg fun hneg => by omega).trans heq⟩
    · rintro ⟨hab, heq⟩
      have ha := (hadj a hab.ne).mpr hab
      refine ⟨ha, ?_⟩
      by_cases hneg : distance a < 0
      · exact Or.inl hneg
      · exact Or.inr ((if_neg fun hnew => hneg hnew.2).symm.trans heq)
  -- all that is nearer has been taken, so the routes to the node have been counted
  have hcount : sigma node = (shortestRoutes G.Adj source node).ncard :=
    h.sigma_eq hnodes hbreadth.distance_head (Int.toNat_of_nonneg hnonneg).symm
      fun b k hb hk => hbreadth.mem_done_of_lt hb hk
  have hvisit : Breadth G.Adj source (fun a => (reach distance node seen a).toNat)
      state'.stack state'.queue := by
    rw [hstack', hqueue']
    refine hbreadth.visit ((order.nodup _ _).filter _) hfresh (fun a ha => ?_) fun a ha => ?_
    · rw [hold a ha]
    · rw [hnew a ha]
      omega
  have hsplit : ∀ a, a ∈ state'.stack ++ state'.queue ↔
      a ∈ state.stack ++ node :: queue ∨ a ∈ seen.filter (distance · < 0) := by
    intro a
    rw [hstack', hqueue']
    simp only [List.mem_append, List.mem_cons, List.not_mem_nil, or_false]
    tauto
  refine ⟨state', ?_, _, _, _, htables', hvisit, ?_, ?_, ?_, ?_, ?_⟩
  · rw [brandesStep, hqueue]
    dsimp only
    rw [hstate']
    rfl
  · intro a
    rw [hsplit, ← hreached, reach]
    by_cases ha : a ∈ seen ∧ distance a < 0
    · have hin : a ∈ seen.filter (distance · < 0) :=
        List.mem_filter.mpr ⟨ha.1, by simpa using ha.2⟩
      simp only [if_pos ha, hin, or_true, iff_true]
      omega
    · have hout : a ∉ seen.filter (distance · < 0) := fun hin =>
        ha ⟨(List.mem_filter.mp hin).1, by simpa using (List.mem_filter.mp hin).2⟩
      simp only [if_neg ha, hout, or_false]
  · intro a ha
    rcases (hsplit a).mp ha with ha | ha
    · exact hmem a ha
    · exact hnodes node a ((hfresh a).mp ha).1
  · intro a b
    rw [hstack', List.mem_append, List.mem_singleton]
    by_cases hb : b = node
    · obtain rfl := hb
      have hno : b ∉ before a := fun hb => hnotin ((hbefore a b).mp hb).1
      rw [hold b (by simp), ← hfarther a]
      by_cases hgain : Farther distance b seen a <;> simp [hgain, hno]
    · have hsame : b ∈ (if Farther distance node seen a then before a ++ [node] else before a) ↔
          b ∈ before a := by
        split
        · simp [hb]
        · rfl
      rw [hsame, hbefore, or_iff_left hb]
      refine and_congr_right fun hin => and_congr_right fun hba => ?_
      -- what is next to a node that was taken before has been reached
      rw [hold b (List.mem_append_left _ hin), hold a (hbreadth.closed b hin a hba).1]
  · intro a
    split
    · refine List.nodup_append.mpr ⟨hnodup a, List.nodup_singleton node, fun b hb c hc heq => ?_⟩
      rw [List.mem_singleton.mp hc] at heq
      exact hnotin (heq ▸ ((hbefore a b).mp hb).1)
    · exact hnodup a
  · intro a
    split
    · rw [List.map_append, List.sum_append, ← add_assoc, ← hsigma, hcount]
      simp
    · exact hsigma a

/-- At the start the search has come to the source only. -/
theorem start (G : SimpleGraph α) (hnodup : nodes.Nodup) (hsource : source ∈ nodes) :
    Counts G nodes source {
        stack := []
        predecessors := tableOf nodes []
        sigma := (tableOf nodes 0.0).set source 1.0
        distance := (tableOf nodes (-1)).set source 0
        queue := [source] }
      (fun a => if a = source then 0 else -1) (fun a => if a = source then 1 else 0)
      fun _ => [] := by
  refine ⟨⟨?_, ?_, tabulates_tableOf hnodup []⟩, .start _ _ (by simp), ?_, ?_, ?_, ?_, ?_⟩
  · exact (tabulates_tableOf hnodup (-1)).set hsource (if_pos rfl) fun a ha => if_neg ha
  · refine (tabulates_tableOf hnodup (0.0 : ℚ)).set hsource ?_ fun a ha => ?_
    · rw [if_pos rfl]
      norm_num
    · rw [if_neg ha]
      norm_num
  · intro a
    by_cases ha : a = source <;> simp [ha]
  · simpa using hsource
  · simp
  · exact fun _ => List.nodup_nil
  · simp

end Counts

/-- Whatever the search from a source ends with, it has counted the shortest routes. -/
theorem brandesSearch_counts {G : SimpleGraph α} {graph : Graph α} {source : α}
    (order : SetOrder α) (hnodup : nodes.Nodup)
    (hgraph : ∀ a b, a ≠ b → (graph.Adj a b ↔ G.Adj a b))
    (hclosed : ∀ a b, graph.Adj a b → b ∈ nodes) (hsource : source ∈ nodes) {fuel : ℕ}
    {search : BrandesSearch α ℚ} (h : brandesSearch order fuel graph nodes source = some search) :
    search.queue = [] ∧
      ∃ distance sigma before, Counts G nodes source search distance sigma before := by
  -- the loop ends with an empty queue
  refine Loop.post_of_run
    (fun state : BrandesSearch α ℚ =>
      ∃ distance sigma before, Counts G nodes source state distance sigma before)
    (fun state => state.queue = [] ∧
      ∃ distance sigma before, Counts G nodes source state distance sigma before)
    ?_ ?_ ⟨_, _, _, .start G hnodup hsource⟩ h
  · rintro state next ⟨distance, sigma, before, hstate⟩ hnext
    cases hqueue : state.queue with
    | nil =>
        rw [brandesStep, hqueue] at hnext
        cases hnext
    | cons node queue =>
        obtain ⟨state', hstate', hcounts⟩ := hstate.exists_step order hgraph hclosed hqueue
        rw [hstate'] at hnext
        obtain rfl := Sum.inl.inj (Option.some.inj hnext)
        exact hcounts
  · rintro state result ⟨distance, sigma, before, hstate⟩ hresult
    cases hqueue : state.queue with
    | nil =>
        rw [brandesStep, hqueue] at hresult
        obtain rfl := Sum.inr.inj (Option.some.inj hresult)
        exact ⟨hqueue, distance, sigma, before, hstate⟩
    | cons node queue =>
        obtain ⟨state', hstate', -⟩ := hstate.exists_step order hgraph hclosed hqueue
        rw [hstate'] at hresult
        cases hresult

/-! ## The way back adds up the dependencies -/

variable {G : SimpleGraph α} {graph : Graph α} {source v : α} {search : BrandesSearch α ℚ}

/-- The dependency of a node is passed on to the nodes before it. -/
theorem Tables.exists_passDependency (h : Tables nodes search distance sigma before)
    (hnode : node ∈ nodes) (hpositive : 0 < sigma node) {previous : List α}
    (hprevious : ∀ a ∈ previous, a ∈ nodes) (hnodup : previous.Nodup) (hself : node ∉ previous)
    {table : Dict α ℚ} {f : α → ℚ} (htable : Tabulates nodes table f) :
    ∃ table', previous.foldlM (passDependency search node) table = some table' ∧
      Tabulates nodes table' fun a =>
        f a + if a ∈ previous then sigma a / sigma node * (1 + f node) else 0 := by
  induction previous generalizing table f with
  | nil => exact ⟨table, rfl, htable.congr fun a _ => by simp⟩
  | cons p rest ih =>
      obtain ⟨hp, hrest⟩ := List.forall_mem_cons.mp hprevious
      obtain ⟨hnew, hnodup⟩ := List.nodup_cons.mp hnodup
      obtain ⟨hne, hself⟩ := not_or.mp (List.mem_cons.not.mp hself)
      -- the pass reads four entries, all of which exist, and divides by a positive count
      have hpass : passDependency search node table p =
          some (table.set p (f p + sigma p / sigma node * (1 + f node))) := by
        have hlt : PyFloat.lt 0.0 (sigma node) = true := decide_eq_true (by norm_num [hpositive])
        have hone : (1.0 : ℚ) = 1 := by norm_num
        have hdiv : PyFloat.quotient (sigma p) (sigma node) = sigma p / sigma node :=
          congrArg (Option.getD · 0.0) (if_neg hpositive.ne')
        rw [passDependency]
        simp only [h.sigma.get? node hnode, h.sigma.get? p hp, htable.get? p hp,
          htable.get? node hnode, Option.bind_eq_bind, Option.bind_some, hlt, if_true, hdiv]
        rw [← hone]
        rfl
      have htable' : Tabulates nodes (table.set p (f p + sigma p / sigma node * (1 + f node)))
          fun a => if a = p then f p + sigma p / sigma node * (1 + f node) else f a :=
        htable.set hp (if_pos rfl) fun a ha => if_neg ha
      obtain ⟨table'', hfold, hvalues⟩ := ih hrest hnodup hself htable'
      refine ⟨table'', by rw [List.foldlM_cons, hpass]; exact hfold, hvalues.congr fun a _ => ?_⟩
      rw [if_neg hne]
      by_cases ha : a = p
      · obtain rfl := ha
        simp [hnew]
      · simp [ha]

/-- What the nodes taken off the stack pass on to a node before them. -/
noncomputable def passed (G : SimpleGraph α) (nodes : List α) (source : α) (before : α → List α)
    (done : List α) (v : α) : ℚ :=
  ∑ w ∈ done.toFinset with v ∈ before w, (shortestRoutes G.Adj source v).ncard /
    (shortestRoutes G.Adj source w).ncard * (1 + dependency G nodes.toFinset source w)

/-- The contribution of a source to the nodes taken off the stack. -/
noncomputable def credited (G : SimpleGraph α) (nodes : List α) (source : α) (done : List α)
    (v : α) : ℚ :=
  if v ∈ done ∧ v ≠ source then dependency G nodes.toFinset source v else 0

namespace Counts

/-- Once the queue is empty, the stack holds what the source reaches. -/
theorem mem_stack_iff (h : Counts G nodes source search distance sigma before)
    (hqueue : search.queue = []) : v ∈ search.stack ↔ ∃ n, Distance G.Adj source v n := by
  have hbreadth := h.breadth
  rw [hqueue] at hbreadth
  rw [hbreadth.mem_done_iff, ← exists_route_iff]
  constructor
  · rintro ⟨route, hroute⟩
    exact hroute.exists_distance
  · rintro ⟨n, ⟨route, hroute, -⟩, -⟩
    exact ⟨route, hroute⟩

/-- Once the queue is empty, the shortest routes to all nodes have been counted. -/
theorem sigma_stack (h : Counts G nodes source search distance sigma before)
    (hqueue : search.queue = []) (hnodes : ∀ a b, G.Adj a b → b ∈ nodes)
    (hv : v ∈ search.stack) : sigma v = (shortestRoutes G.Adj source v).ncard := by
  obtain ⟨hfar, hnonneg⟩ := h.distance_stack hv
  exact h.sigma_eq hnodes hfar (Int.toNat_of_nonneg hnonneg).symm fun b k hb _ =>
    (h.mem_stack_iff hqueue).mpr ⟨k, hb⟩

/-- When a node is taken off the stack, all that it is owed has been passed on to it. -/
theorem passed_eq (h : Counts G nodes source search distance sigma before)
    (hqueue : search.queue = []) (hnodes : ∀ a b, G.Adj a b → b ∈ nodes) {rest done : List α}
    (hstack : search.stack = rest ++ node :: done) :
    passed G nodes source before done node = dependency G nodes.toFinset source node := by
  have hin : node ∈ search.stack := by simp [hstack]
  have hsource := h.mem source h.breadth.source_mem
  obtain ⟨hfar, hnonneg⟩ := h.distance_stack hin
  refine (dependency_eq (fun a b hab => List.mem_toFinset.mpr (hnodes a b hab))
    (List.mem_toFinset.mpr hsource) hfar fun w => ?_).symm
  rw [Finset.mem_filter, List.mem_toFinset, h.mem_before]
  constructor
  · rintro ⟨hw, -, hadj, heq⟩
    obtain ⟨hfar', -⟩ := h.distance_stack (a := w) (by simp [hstack, hw])
    have hstep : (distance w).toNat = (distance node).toNat + 1 := by omega
    exact ⟨hadj, hstep ▸ hfar'⟩
  · rintro ⟨hadj, hfar'⟩
    have hw := (h.mem_stack_iff hqueue).mpr ⟨_, hfar'⟩
    obtain ⟨hlabel, hnonneg'⟩ := h.distance_stack hw
    have hstep := hlabel.unique hfar'
    refine ⟨?_, hin, hadj, by omega⟩
    -- the stack is ordered by distance, so a node farther away comes later
    have hsorted := h.breadth.sorted
    rw [hqueue, List.append_nil, hstack] at hsorted
    rw [hstack] at hw
    obtain ⟨-, htail, hcross⟩ := List.pairwise_append.mp hsorted
    rcases List.mem_append.mp hw with hw | hw
    · have hle := hcross w hw node List.mem_cons_self
      omega
    · rcases List.mem_cons.mp hw with rfl | hw
      · omega
      · exact hw

/-- A node is taken off the stack. -/
theorem exists_accumulate (h : Counts G nodes source search distance sigma before)
    (hqueue : search.queue = []) (hnodes : ∀ a b, G.Adj a b → b ∈ nodes) {rest done : List α}
    (hstack : search.stack = rest ++ node :: done) {state : Dict α ℚ × Dict α ℚ} {c : α → ℚ}
    (hpassed : Tabulates nodes state.1 (passed G nodes source before done))
    (hcredited : Tabulates nodes state.2 fun v => c v + credited G nodes source done v) :
    ∃ state', accumulate search source state node = some state' ∧
      Tabulates nodes state'.1 (passed G nodes source before (node :: done)) ∧
      Tabulates nodes state'.2 fun v => c v + credited G nodes source (node :: done) v := by
  have hin : node ∈ search.stack := by simp [hstack]
  have hnode : node ∈ nodes := h.mem node (List.mem_append_left _ hin)
  have hsource := h.mem source h.breadth.source_mem
  -- every node is taken from the stack once
  have hnotin : node ∉ done := by
    have hnodup := h.breadth.nodup
    rw [hqueue, List.append_nil, hstack] at hnodup
    exact (List.nodup_cons.mp (List.nodup_append.mp hnodup).2.1).1
  have hself : node ∉ before node := fun hmem => by
    have := ((h.mem_before node node).mp hmem).2.2
    omega
  have hprevious : ∀ a ∈ before node, a ∈ search.stack := fun a ha =>
    ((h.mem_before node a).mp ha).1
  have hpositive : 0 < sigma node := by
    obtain ⟨hfar, -⟩ := h.distance_stack hin
    rw [h.sigma_stack hqueue hnodes hin]
    refine lt_of_le_of_ne (Nat.cast_nonneg _) (ncard_shortestRoutes_ne_zero ?_ hfar).symm
    exact finite_shortestRoutes nodes.finite_toSet hsource hnodes node
  -- all that depends on the node has been passed to it by now
  have howed := h.passed_eq hqueue hnodes hstack
  obtain ⟨table, hfold, htable⟩ := h.tables.exists_passDependency hnode hpositive
    (fun a ha => h.mem a (List.mem_append_left _ (hprevious a ha))) (h.nodup node) hself hpassed
  have htable' : Tabulates nodes table (passed G nodes source before (node :: done)) := by
    refine htable.congr fun a _ => ?_
    rw [passed, List.toFinset_cons, Finset.filter_insert]
    by_cases ha : a ∈ before node
    · rw [if_pos ha, if_pos ha, Finset.sum_insert (by simp [hnotin]), howed,
        h.sigma_stack hqueue hnodes (hprevious a ha), h.sigma_stack hqueue hnodes hin, add_comm]
      rfl
    · rw [if_neg ha, if_neg ha, add_zero]
      rfl
  have hvalue : table.get? node = some (dependency G nodes.toFinset source node) := by
    rw [htable.get? node hnode, if_neg hself, add_zero, howed]
  have hother : ∀ a ≠ node, credited G nodes source (node :: done) a =
      credited G nodes source done a := fun a ha => by simp [credited, ha]
  rw [accumulate]
  simp only [h.tables.predecessors.get? node hnode, hfold, hcredited.get? node hnode, hvalue,
    Option.bind_eq_bind, Option.bind_some]
  -- the source is not credited with its own dependency
  by_cases hne : node = source
  · refine ⟨_, if_neg (not_not.mpr hne), htable', hcredited.congr fun a _ => ?_⟩
    by_cases ha : a = node
    · simp [credited, ha, hne]
    · rw [hother a ha]
  · refine ⟨_, if_pos hne, htable', hcredited.set hnode ?_ fun a ha => by rw [hother a ha]⟩
    simp [credited, hne, hnotin]

/-- The way back along the stack. -/
theorem exists_foldlM_accumulate (h : Counts G nodes source search distance sigma before)
    (hqueue : search.queue = []) (hnodes : ∀ a b, G.Adj a b → b ∈ nodes) {c : α → ℚ}
    {rest done : List α} (hstack : search.stack = rest ++ done) (state : Dict α ℚ × Dict α ℚ)
    (hpassed : Tabulates nodes state.1 (passed G nodes source before done))
    (hcredited : Tabulates nodes state.2 fun v => c v + credited G nodes source done v) :
    ∃ state', rest.reverse.foldlM (accumulate search source) state = some state' ∧
      Tabulates nodes state'.2 fun v => c v + credited G nodes source search.stack v := by
  induction rest using List.reverseRecOn generalizing done state with
  | nil => exact ⟨state, rfl, hstack ▸ hcredited⟩
  | append_singleton rest node ih =>
      rw [List.append_assoc, List.singleton_append] at hstack
      obtain ⟨next, hnext, hpassed', hcredited'⟩ :=
        h.exists_accumulate hqueue hnodes hstack hpassed hcredited
      obtain ⟨state', hstate', hvalues⟩ := ih hstack next hpassed' hcredited'
      refine ⟨state', ?_, hvalues⟩
      rw [List.reverse_append, List.reverse_singleton, List.singleton_append, List.foldlM_cons, hnext]
      exact hstate'

end Counts

/-- What a source contributes to all other nodes. -/
theorem exists_addSource (order : SetOrder α) (hnodup : nodes.Nodup)
    (hgraph : ∀ a b, a ≠ b → (graph.Adj a b ↔ G.Adj a b))
    (hclosed : ∀ a b, graph.Adj a b → b ∈ nodes) (hsource : source ∈ nodes) {fuel : ℕ}
    (hsearch : brandesSearch (order.within source) fuel graph nodes source = some search)
    {centrality : Dict α ℚ} {c : α → ℚ} (hcentrality : Tabulates nodes centrality c) :
    ∃ after, addSource order fuel graph nodes centrality source = some after ∧
      Tabulates nodes after fun v =>
        c v + if v ≠ source then dependency G nodes.toFinset source v else 0 := by
  have hnodes : ∀ a b, G.Adj a b → b ∈ nodes := fun a b hab =>
    hclosed a b ((hgraph a b hab.ne).mpr hab)
  obtain ⟨hqueue, distance, sigma, before, hcounts⟩ :=
    brandesSearch_counts _ hnodup hgraph hclosed hsource hsearch
  have hzero : (0.0 : ℚ) = 0 := by norm_num
  have hpassed : Tabulates nodes (tableOf nodes (0.0 : ℚ)) (passed G nodes source before []) :=
    (tabulates_tableOf hnodup 0.0).congr fun a _ => by simp [passed, hzero]
  have hcredited : Tabulates nodes centrality fun v => c v + credited G nodes source [] v :=
    hcentrality.congr fun a _ => by simp [credited]
  obtain ⟨⟨dependencies, after⟩, hfold, hvalues⟩ := hcounts.exists_foldlM_accumulate hqueue hnodes
    (List.append_nil _).symm (tableOf nodes 0.0, centrality) hpassed hcredited
  refine ⟨after, ?_, hvalues.congr fun v _ => ?_⟩
  · rw [addSource, hsearch, Option.bind_eq_bind, Option.bind_some, hfold]
    rfl
  · -- a source does not depend on what it does not reach
    rw [credited]
    by_cases hv : v ∈ search.stack
    · simp [hv]
    · have hnone : dependency G nodes.toFinset source v = 0 := dependency_eq_zero fun n hn =>
        hv ((hcounts.mem_stack_iff hqueue).mpr ⟨n, hn⟩)
      simp [hv, hnone]

/-- What several sources contribute. -/
theorem exists_foldlM_addSource (order : SetOrder α) (hnodup : nodes.Nodup)
    (hgraph : ∀ a b, a ≠ b → (graph.Adj a b ↔ G.Adj a b))
    (hclosed : ∀ a b, graph.Adj a b → b ∈ nodes) {fuel : ℕ}
    (hfuel : ∀ (order : SetOrder α), ∀ source ∈ nodes, ∃ search : BrandesSearch α ℚ,
      brandesSearch order fuel graph nodes source = some search) {sources : List α}
    (hsources : ∀ a ∈ sources, a ∈ nodes) {centrality : Dict α ℚ} {c : α → ℚ}
    (hcentrality : Tabulates nodes centrality c) :
    ∃ after, sources.foldlM (addSource order fuel graph nodes) centrality = some after ∧
      Tabulates nodes after fun v => c v + (sources.map fun source =>
        if v ≠ source then dependency G nodes.toFinset source v else 0).sum := by
  induction sources generalizing centrality c with
  | nil => exact ⟨centrality, rfl, hcentrality.congr fun a _ => by simp⟩
  | cons source rest ih =>
      obtain ⟨hsource, hrest⟩ := List.forall_mem_cons.mp hsources
      obtain ⟨search, hsearch⟩ := hfuel (order.within source) source hsource
      obtain ⟨next, hnext, hvalues⟩ :=
        exists_addSource order hnodup hgraph hclosed hsource hsearch hcentrality
      obtain ⟨after, hafter, hvalues'⟩ := ih hrest hvalues
      refine ⟨after, by rw [List.foldlM_cons, hnext]; exact hafter, hvalues'.congr fun v _ => ?_⟩
      rw [List.map_cons, List.sum_cons, add_assoc]

/-- The number of pairs of other nodes, by which betweenness is divided if there is one. -/
def pairCount (size : ℕ) : ℚ := if 2 < size then ((size : ℚ) - 1) * (size - 2) / 2 else 1

/-- The scale takes back that the dependencies count every pair twice, and divides by the number of
pairs. -/
theorem two_mul_brandesScale (size : ℕ) (x : ℚ) :
    2 * x * brandesScale size size = x / pairCount size := by
  have hcount : ∀ n : ℕ, (PyFloat.ofCount n : ℚ) = n := fun n => by
    show Rat.ofScientific n false 0 = n
    rw [Rat.ofScientific_false_def]
    simp
  have hquotient : ∀ x y : ℚ, y ≠ 0 → PyFloat.quotient x y = x / y := fun x y hy =>
    congrArg (Option.getD · 0.0) (if_neg hy)
  -- all nodes are sources, so the correction for sampled sources is one
  have hcorrection : (if size = 0 then (1.0 : ℚ)
      else PyFloat.quotient (PyFloat.ofCount size) (PyFloat.ofCount size)) = 1 := by
    split
    · norm_num
    · rename_i hne
      have hne : (size : ℚ) ≠ 0 := Nat.cast_ne_zero.mpr hne
      rw [hcount, hquotient _ _ hne, div_self hne]
  have hhalf : (0.5 : ℚ) * 1 = 1 / 2 := by norm_num
  rw [brandesScale, pairCount, hcorrection]
  split
  · rename_i hsize
    have hlt : (2 : ℚ) < size := by exact_mod_cast hsize
    have hne : ((size : ℚ) - 1) * (size - 2) ≠ 0 :=
      mul_ne_zero (by linarith) (by linarith)
    have hpairs : PyFloat.quotient (PyFloat.ofCount ((size - 1) * (size - 2))) (2.0 : ℚ) =
        ((size : ℚ) - 1) * (size - 2) / 2 := by
      have htwo : (2.0 : ℚ) = 2 := by norm_num
      rw [hquotient _ _ (by norm_num), hcount, Nat.cast_mul, Nat.cast_sub (by omega),
        Nat.cast_sub (by omega), htwo]
      rfl
    rw [hpairs, hquotient _ _ (div_ne_zero hne two_ne_zero), hhalf]
    ring
  · rw [hhalf]
    ring

/-- In exact arithmetic, and as long as the nodes are few enough, every node is assigned its
betweenness: the shares of the shortest routes that lead through it, summed over the pairs of other
nodes, and divided by the number of these pairs. -/
theorem brandesBetweenness_exact (order : SetOrder α) (hnodup : nodes.Nodup)
    {edges : List (α × α)} (hedges : ∀ edge ∈ edges, edge.1 ∈ nodes ∧ edge.2 ∈ nodes)
    {maxExactNodes : ℕ} (hsize : nodes.length ≤ maxExactNodes) (sampleSources : ℕ) :
    ∀ᶠ fuel in Filter.atTop, ∃ values : Dict α ℚ,
      brandesBetweenness order fuel nodes edges maxExactNodes sampleSources =
        some (values, "exact_brandes", nodes.length) ∧
      values.keys = nodes ∧ ∀ v ∈ nodes, values.get? v =
        some (betweenness (edgeGraph edges) nodes.toFinset v / pairCount nodes.length) := by
  have hgraph : ∀ a b, a ≠ b →
      ((adjacency nodes edges false).Adj a b ↔ (edgeGraph edges).Adj a b) := fun a b hab => by
    rw [adj_undirected, edgeGraph_adj, and_iff_right hab]
  have hclosed : ∀ a b, (adjacency nodes edges false).Adj a b → b ∈ nodes := fun a b hab =>
    (adj_undirected.mp hab).elim (fun h => (hedges _ h).2) fun h => (hedges _ h).1
  refine (brandesSearch_isSome (F := ℚ) hclosed).mono fun fuel hsearch => ?_
  have hzero : Tabulates nodes (tableOf nodes (0.0 : ℚ)) fun _ => 0 :=
    (tabulates_tableOf hnodup 0.0).congr fun _ _ => by norm_num
  obtain ⟨centrality, hcentrality, hvalues⟩ := exists_foldlM_addSource order hnodup hgraph hclosed
    (fun order source hsource => (hsearch order source hsource).imp fun _ h => h.1)
    (fun a ha => ha) hzero
  have hsources : brandesSources nodes maxExactNodes sampleSources =
      some (nodes, "exact_brandes") := if_neg fun hsampled => by omega
  refine ⟨_, by rw [brandesBetweenness, hsources]; simp [hcentrality]; rfl, ?_, fun v hv => ?_⟩
  · rw [Dict.keys_map, hvalues.keys]
  · -- each pair has been counted from both of its ends
    have hsum : (nodes.map fun source =>
        if v ≠ source then dependency (edgeGraph edges) nodes.toFinset source v else 0).sum =
        2 * betweenness (edgeGraph edges) nodes.toFinset v := by
      rw [← List.sum_toFinset _ hnodup, ← Finset.sum_filter, Finset.filter_ne, sum_dependency]
    rw [Dict.get?_map, hvalues.get? v hv, zero_add, hsum, Option.map_some]
    exact congrArg some (two_mul_brandesScale _ _)

theorem brandesBetweenness_exact_diamond : ∀ᶠ fuel in Filter.atTop, ∃ values : Dict ℕ ℚ,
    brandesBetweenness .sorted fuel [0, 1, 2, 3] [(0, 1), (0, 2), (1, 3), (3, 2)] 256 128 =
        some (values, "exact_brandes", 4) ∧
      values.keys = [0, 1, 2, 3] ∧ ∀ v ∈ [0, 1, 2, 3], values.get? v =
        some (betweenness (edgeGraph [(0, 1), (0, 2), (1, 3), (3, 2)]) [0, 1, 2, 3].toFinset v /
          pairCount 4) :=
  brandesBetweenness_exact .sorted (by decide) (by decide) (by decide) 128

end Netlab
