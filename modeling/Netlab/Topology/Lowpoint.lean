import Netlab.Topology.Graph

/-!
# Cut nodes and bridges

`articulation_points` and `bridge_edges` are depth-first searches that number the nodes as they
discover them and keep for each the lowest number that its subtree reaches. They differ in what they
note when they come back from a node (`noteArticulation`, `noteBridge`).
-/

namespace Netlab

variable {α ρ : Type} [DecidableEq α]

/-- What a search knows about the nodes: when they were discovered, the lowest number that they
reach, where they were discovered from, and what it has noted. -/
structure Lowpoint (α ρ : Type) where
  discovery : Dict α ℕ
  low : Dict α ℕ
  parent : Dict α (Option α)
  counter : ℕ
  noted : Finset ρ

/-- What is noted on the way back from `nxt` to `node`, which then has `children` children. -/
abbrev Note (α ρ : Type) := Lowpoint α ρ → α → α → ℕ → Option (Finset ρ)

namespace Lowpoint

/-- Whether a search has discovered a node. -/
def Discovered (state : Lowpoint α ρ) (node : α) : Prop := node ∈ state.discovery.keys

instance (state : Lowpoint α ρ) (node : α) : Decidable (state.Discovered node) :=
  inferInstanceAs (Decidable (node ∈ state.discovery.keys))

/-- The node that a node was discovered from; none for a root. -/
def parentOf (state : Lowpoint α ρ) (node : α) : Option α := (state.parent.get? node).join

/-- Number a node that is discovered. -/
def discover (state : Lowpoint α ρ) (node : α) : Lowpoint α ρ :=
  { state with
    counter := state.counter + 1
    discovery := state.discovery.set node (state.counter + 1)
    low := state.low.set node (state.counter + 1) }

/-- Lower the number that a node reaches. -/
def lower (state : Lowpoint α ρ) (node : α) (number : ℕ) : Option (Lowpoint α ρ) := do
  return { state with low := state.low.set node (min (← state.low.get? node) number) }

end Lowpoint

/-- Look at the nodes next to a node, where `dfs` searches on from one of them. -/
def lowpointScan (note : Note α ρ) (dfs : α → Lowpoint α ρ → Option (Lowpoint α ρ)) (node : α) :
    List α → ℕ → Lowpoint α ρ → Option (Lowpoint α ρ)
  | [], _, state => some state
  | nxt :: rest, children, state =>
      if ¬state.Discovered nxt then do
        let state ← dfs nxt { state with parent := state.parent.set nxt (some node) }
        let state ← state.lower node (← state.low.get? nxt)
        let noted ← note state node nxt (children + 1)
        lowpointScan note dfs node rest (children + 1) { state with noted }
      -- the edge to the parent is no back edge
      else if some nxt ≠ state.parentOf node then do
        let state ← state.lower node (← state.discovery.get? nxt)
        lowpointScan note dfs node rest children state
      else lowpointScan note dfs node rest children state

/-- Search on from a node. -/
def lowpointDfs (note : Note α ρ) (order : SetOrder α) (graph : Graph α) :
    ℕ → α → Lowpoint α ρ → Option (Lowpoint α ρ)
  | 0, _, _ => none
  | fuel + 1, node, state =>
      lowpointScan note (lowpointDfs note order graph fuel) node
        (order.list [node] (graph.successors node)) 0 (state.discover node)

/-- Search from every node that has not been discovered. -/
def lowpoints (note : Note α ρ) (order : SetOrder α) (fuel : ℕ) (graph : Graph α) :
    Option (Lowpoint α ρ) :=
  graph.keys.foldlM (fun state node =>
    if state.Discovered node then some state
    else lowpointDfs note order graph fuel node
      { state with parent := state.parent.set node none })
    { discovery := .empty, low := .empty, parent := .empty, counter := 0, noted := ∅ }

/-- A root with two children is a cut node, and so is a node from whose child nothing higher is
reached. -/
def noteArticulation (state : Lowpoint α α) (node nxt : α) (children : ℕ) :
    Option (Finset α) :=
  match state.parentOf node with
  | none => some (if 1 < children then insert node state.noted else state.noted)
  | some _ => do
      return if (← state.discovery.get? node) ≤ (← state.low.get? nxt) then insert node state.noted
        else state.noted

/-- The nodes without which the graph falls apart (`articulation_points`). -/
def articulationPoints (order : SetOrder α) (fuel : ℕ) (nodes : List α) (edges : List (α × α)) :
    Option (Finset α) :=
  (lowpoints noteArticulation order fuel (adjacency nodes edges false)).map Lowpoint.noted

section

variable [LE α] [DecidableLE α]

/-- Two nodes in order (`tuple(sorted(...))`). -/
def sortedPair (a b : α) : α × α := if a ≤ b then (a, b) else (b, a)

/-- An edge from whose far end the near end is not reached is a bridge. -/
def noteBridge (state : Lowpoint α (α × α)) (node nxt : α) (_ : ℕ) :
    Option (Finset (α × α)) := do
  return if (← state.discovery.get? node) < (← state.low.get? nxt) then
    insert (sortedPair node nxt) state.noted
  else state.noted

/-- The edges without which the graph falls apart, each with its smaller end first
(`bridge_edges`). -/
def bridgeEdges (order : SetOrder α) (fuel : ℕ) (nodes : List α) (edges : List (α × α)) :
    Option (Finset (α × α)) :=
  (lowpoints noteBridge order fuel (adjacency nodes edges false)).map Lowpoint.noted

end

/-! ## The searches end -/

namespace Lowpoint

/-- A search keeps both numbers of every node that it has discovered. -/
def Tracked (state : Lowpoint α ρ) : Prop := ∀ a, a ∈ state.low.keys ↔ state.Discovered a

/-- What a search comes to from a state: it has discovered what was discovered before. -/
structure Extends (before after : Lowpoint α ρ) : Prop where
  tracked : after.Tracked
  discovered : ∀ a, before.Discovered a → after.Discovered a

omit [DecidableEq α] in
theorem Extends.trans {before between after : Lowpoint α ρ} (h : before.Extends between)
    (h' : between.Extends after) : before.Extends after :=
  ⟨h'.tracked, fun a ha => h'.discovered a (h.discovered a ha)⟩

/-- A node that is discovered. -/
theorem discovered_discover {state : Lowpoint α ρ} {node a : α} :
    (state.discover node).Discovered a ↔ state.Discovered a ∨ a = node :=
  Dict.mem_keys_set

theorem Tracked.discover {state : Lowpoint α ρ} (h : state.Tracked) (node : α) :
    (state.discover node).Tracked := fun a => by
  rw [discovered_discover, ← h a]
  exact Dict.mem_keys_set

/-- The number of a node that has been discovered can be lowered. -/
theorem exists_lower_eq_some {state : Lowpoint α ρ} (h : state.Tracked) {node : α}
    (hnode : state.Discovered node) (number : ℕ) :
    ∃ state', state.lower node number = some state' ∧ state.Extends state' := by
  obtain ⟨low, hlow⟩ := Dict.mem_keys_iff.mp ((h node).mpr hnode)
  refine ⟨{ state with low := state.low.set node (min low number) }, by rw [lower, hlow]; rfl,
    fun a => ?_, fun a ha => ha⟩
  refine Iff.trans ?_ (h a)
  rw [Dict.keys_set_of_mem _ ((h node).mpr hnode)]

/-- The nodes that a search has not discovered. -/
def undiscovered (state : Lowpoint α ρ) (graph : Graph α) : Finset α :=
  graph.nodes \ state.discovery.keys.toFinset

theorem mem_undiscovered {state : Lowpoint α ρ} {graph : Graph α} {a : α} :
    a ∈ state.undiscovered graph ↔ a ∈ graph.nodes ∧ ¬state.Discovered a := by
  rw [undiscovered, Finset.mem_sdiff, List.mem_toFinset]
  rfl

theorem Extends.undiscovered_subset {before after : Lowpoint α ρ} (h : before.Extends after)
    (graph : Graph α) : after.undiscovered graph ⊆ before.undiscovered graph := by
  intro a ha
  obtain ⟨hnode, hnew⟩ := mem_undiscovered.mp ha
  exact mem_undiscovered.mpr ⟨hnode, fun hold => hnew (h.discovered a hold)⟩

end Lowpoint

open Lowpoint

/-- A note that can be taken about any two nodes that have been discovered. -/
def Note.Total (note : Note α ρ) : Prop :=
  ∀ (state : Lowpoint α ρ) (node nxt : α) (children : ℕ), state.Tracked → state.Discovered node →
    state.Discovered nxt → ∃ noted, note state node nxt children = some noted

theorem noteArticulation_total : Note.Total (noteArticulation : Note α α) := by
  intro state node nxt children htracked hnode hnxt
  obtain ⟨_, hdiscovery⟩ := Dict.mem_keys_iff.mp hnode
  obtain ⟨_, hlow⟩ := Dict.mem_keys_iff.mp ((htracked nxt).mpr hnxt)
  rw [noteArticulation]
  split
  · exact ⟨_, rfl⟩
  · exact ⟨_, by rw [hdiscovery, hlow]; rfl⟩

theorem noteBridge_total [LE α] [DecidableLE α] :
    Note.Total (noteBridge : Note α (α × α)) := by
  intro state node nxt children htracked hnode hnxt
  obtain ⟨_, hdiscovery⟩ := Dict.mem_keys_iff.mp hnode
  obtain ⟨_, hlow⟩ := Dict.mem_keys_iff.mp ((htracked nxt).mpr hnxt)
  exact ⟨_, by rw [noteBridge, hdiscovery, hlow]; rfl⟩

/-- Looking at the nodes next to a node ends, if every search from one of them does. -/
theorem exists_lowpointScan_eq_some {note : Note α ρ} (hnote : note.Total) {graph : Graph α}
    {dfs : α → Lowpoint α ρ → Option (Lowpoint α ρ)} {bound : ℕ}
    (hdfs : ∀ state nxt, state.Tracked → nxt ∈ state.undiscovered graph →
      (state.undiscovered graph).card ≤ bound →
      ∃ state', dfs nxt state = some state' ∧ state.Extends state' ∧ state'.Discovered nxt)
    {node : α} {successors : List α} (hsuccessors : ∀ a ∈ successors, a ∈ graph.nodes)
    {state : Lowpoint α ρ} (htracked : state.Tracked) (hnode : state.Discovered node)
    (hbound : (state.undiscovered graph).card ≤ bound) (children : ℕ) :
    ∃ state', lowpointScan note dfs node successors children state = some state' ∧
      state.Extends state' := by
  induction successors generalizing state children with
  | nil => exact ⟨state, rfl, htracked, fun _ ha => ha⟩
  | cons nxt rest ih =>
      have hrest : ∀ a ∈ rest, a ∈ graph.nodes := fun a ha =>
        hsuccessors a (List.mem_cons_of_mem _ ha)
      have hgo : ∀ {between : Lowpoint α ρ} (children : ℕ), state.Extends between →
          ∃ state', lowpointScan note dfs node rest children between = some state' ∧
            state.Extends state' := by
        intro between children hextends
        obtain ⟨state', hstate', hextends'⟩ := ih hrest hextends.tracked
          (hextends.discovered node hnode)
          ((Finset.card_le_card (hextends.undiscovered_subset graph)).trans hbound) children
        exact ⟨state', hstate', hextends.trans hextends'⟩
      rw [lowpointScan]
      by_cases hnew : state.Discovered nxt
      · rw [if_neg (not_not.mpr hnew)]
        split
        · obtain ⟨number, hnumber⟩ := Dict.mem_keys_iff.mp hnew
          obtain ⟨lowered, hlowered, hextends⟩ := exists_lower_eq_some htracked hnode number
          obtain ⟨state', hstate', hextends'⟩ := hgo children hextends
          exact ⟨state', by simp [hnumber, hlowered, hstate'], hextends'⟩
        · exact hgo children ⟨htracked, fun _ ha => ha⟩
      · rw [if_pos hnew]
        -- come back from the search, lower the number, and take the note
        obtain ⟨searched, hsearched, hextends, hdiscovered⟩ :=
          hdfs { state with parent := state.parent.set nxt (some node) } nxt htracked
            (mem_undiscovered.mpr ⟨hsuccessors nxt List.mem_cons_self, hnew⟩) hbound
        obtain ⟨number, hnumber⟩ :=
          Dict.mem_keys_iff.mp ((hextends.tracked nxt).mpr hdiscovered)
        obtain ⟨lowered, hlowered, hextends'⟩ :=
          exists_lower_eq_some hextends.tracked (hextends.discovered node hnode) number
        have hboth := hextends.trans hextends'
        obtain ⟨noted, hnoted⟩ := hnote lowered node nxt (children + 1) hboth.tracked
          (hboth.discovered node hnode) (hextends'.discovered nxt hdiscovered)
        obtain ⟨state', hstate', hextends''⟩ :=
          @hgo { lowered with noted } (children + 1) ⟨hboth.tracked, hboth.discovered⟩
        exact ⟨state', by simp [hsearched, hnumber, hlowered, hnoted, hstate'], hextends''⟩

/-- A search from a node ends. -/
theorem exists_lowpointDfs_eq_some {note : Note α ρ} (hnote : note.Total) (order : SetOrder α)
    (graph : Graph α) {fuel : ℕ} {state : Lowpoint α ρ} {node : α} (htracked : state.Tracked)
    (hnode : node ∈ state.undiscovered graph) (hfuel : (state.undiscovered graph).card ≤ fuel) :
    ∃ state', lowpointDfs note order graph fuel node state = some state' ∧ state.Extends state' ∧
      state'.Discovered node := by
  induction fuel generalizing state node with
  | zero => simp [Finset.card_eq_zero.mp (Nat.le_zero.mp hfuel)] at hnode
  | succ fuel ih =>
      have hself : (state.discover node).Discovered node := discovered_discover.mpr (Or.inr rfl)
      have hextends : state.Extends (state.discover node) :=
        ⟨htracked.discover node, fun a ha => discovered_discover.mpr (Or.inl ha)⟩
      have hcard : ((state.discover node).undiscovered graph).card ≤ fuel := by
        refine Nat.le_of_lt_succ (lt_of_lt_of_le (Finset.card_lt_card ?_) hfuel)
        refine (Finset.ssubset_iff_of_subset (hextends.undiscovered_subset graph)).mpr
          ⟨node, hnode, fun hmem => (mem_undiscovered.mp hmem).2 hself⟩
      obtain ⟨state', hstate', hextends'⟩ := exists_lowpointScan_eq_some hnote
        (fun _ _ htracked hnxt hbound => ih htracked hnxt hbound)
        (fun a ha => Dict.successors_subset_nodes graph node ((order.mem_list [node] _ a).mp ha))
        hextends.tracked hself hcard 0
      exact ⟨state', hstate', hextends.trans hextends', hextends'.discovered node hself⟩

/-- A search from every node ends. -/
theorem lowpoints_isSome {note : Note α ρ} (hnote : note.Total) (order : SetOrder α)
    (graph : Graph α) : ∀ᶠ fuel in Filter.atTop, ∃ state,
      lowpoints note order fuel graph = some state := by
  refine (Filter.eventually_ge_atTop graph.nodes.card).mono fun fuel hfuel => ?_
  have hstep : ∀ state : Lowpoint α ρ, ∀ node ∈ graph.keys, state.Tracked → ∃ state',
      (if state.Discovered node then some state
        else lowpointDfs note order graph fuel node
          { state with parent := state.parent.set node none }) = some state' ∧ state'.Tracked := by
    intro state node hkey htracked
    by_cases hold : state.Discovered node
    · exact ⟨state, if_pos hold, htracked⟩
    · rw [if_neg hold]
      have hnode : node ∈ graph.nodes := Finset.mem_union_left _ (List.mem_toFinset.mpr hkey)
      obtain ⟨state', hstate', hextends, -⟩ := @exists_lowpointDfs_eq_some _ _ _ _ hnote order graph
        fuel { state with parent := state.parent.set node none } node htracked
        (mem_undiscovered.mpr ⟨hnode, hold⟩) ((Finset.card_le_card Finset.sdiff_subset).trans hfuel)
      exact ⟨state', hstate', hextends.tracked⟩
  have hstart : ({ discovery := .empty, low := .empty, parent := .empty, counter := 0, noted := ∅ } :
      Lowpoint α ρ).Tracked := fun _ => Iff.rfl
  obtain ⟨state, hstate, -⟩ := List.exists_foldlM_eq_some Tracked hstep hstart
  exact ⟨state, hstate⟩

/-- `articulation_points` ends. -/
theorem articulationPoints_isSome (order : SetOrder α) (nodes : List α) (edges : List (α × α)) :
    ∀ᶠ fuel in Filter.atTop, ∃ points, articulationPoints order fuel nodes edges = some points :=
  (lowpoints_isSome noteArticulation_total order (adjacency nodes edges false)).mono
    fun _ ⟨state, hstate⟩ => ⟨state.noted, by rw [articulationPoints, hstate]; rfl⟩

/-- `bridge_edges` ends. -/
theorem bridgeEdges_isSome [LE α] [DecidableLE α] (order : SetOrder α) (nodes : List α)
    (edges : List (α × α)) :
    ∀ᶠ fuel in Filter.atTop, ∃ bridges, bridgeEdges order fuel nodes edges = some bridges :=
  (lowpoints_isSome noteBridge_total order (adjacency nodes edges false)).mono
    fun _ ⟨state, hstate⟩ => ⟨state.noted, by rw [bridgeEdges, hstate]; rfl⟩

end Netlab
