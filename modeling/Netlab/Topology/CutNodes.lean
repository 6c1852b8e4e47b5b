import Netlab.Prelude.Components
import Netlab.Topology.MetricsSearch
import Netlab.Topology.Undirected

/-!
# Cut nodes and bridges are exact

The searches of `netlab/topology.py` and of `netlab/topology_metrics.py` find the nodes and the
edges without which the undirected simple graph has more connected components. The searches leave a
depth-first forest, whose low points tell both (`DepthFirst.separates_iff`,
`DepthFirst.cutsOff_iff`).
-/

namespace Netlab

open Lowpoint

variable {α ρ : Type} [DecidableEq α] {nodes : List α} {edges : List (α × α)} {graph : Graph α}
  {order : SetOrder α} {fuel : ℕ}

/-! ## What the graph falls apart without -/

/-- The nodes given, and the ends of the edges. -/
def vertices {α : Type} (nodes : List α) (edges : List (α × α)) : Set α :=
  {a | a ∈ nodes ∨ ∃ edge ∈ edges, a = edge.1 ∨ a = edge.2}

/-- A node without which the undirected simple graph has more connected components. -/
structure IsCutNode {α : Type} (nodes : List α) (edges : List (α × α)) (v : α) : Prop where
  mem : v ∈ vertices nodes edges
  more : (edgeGraph edges).componentCount (vertices nodes edges) <
    (edgeGraph edges).componentCount (vertices nodes edges \ {v})

/-- An edge without which the undirected simple graph has more connected components. -/
structure IsBridgeEdge {α : Type} (nodes : List α) (edges : List (α × α)) (e : Sym2 α) : Prop where
  mem : e ∈ (edgeGraph edges).edgeSet
  more : (edgeGraph edges).componentCount (vertices nodes edges) <
    ((edgeGraph edges).deleteEdges {e}).componentCount (vertices nodes edges)

omit [DecidableEq α] in
theorem finite_vertices : (vertices nodes edges).Finite := by
  classical
  refine (Set.toFinite (nodes ++ edges.map Prod.fst ++ edges.map Prod.snd).toFinset).subset ?_
  rintro a (ha | ⟨edge, hedge, rfl | rfl⟩)
  · simp [ha]
  · simp only [List.coe_toFinset, Set.mem_ofPred_eq, List.mem_append]
    exact Or.inl (Or.inr (List.mem_map_of_mem hedge))
  · simp only [List.coe_toFinset, Set.mem_ofPred_eq, List.mem_append]
    exact Or.inr (List.mem_map_of_mem hedge)

omit [DecidableEq α] in
theorem mem_vertices_of_adj {a b : α} (h : (edgeGraph edges).Adj a b) : a ∈ vertices nodes edges := by
  rcases h.2 with hedge | hedge
  · exact Or.inr ⟨_, hedge, Or.inl rfl⟩
  · exact Or.inr ⟨_, hedge, Or.inr rfl⟩

omit [DecidableEq α] in
theorem isCutNode_iff {v : α} :
    IsCutNode nodes edges v ↔ v ∈ vertices nodes edges ∧ Separates (edgeGraph edges).Adj v := by
  rw [← SimpleGraph.componentCount_lt_iff_separates finite_vertices fun _ _ => mem_vertices_of_adj]
  exact ⟨fun h => ⟨h.mem, h.more⟩, fun h => ⟨h.1, h.2⟩⟩

omit [DecidableEq α] in
theorem isBridgeEdge_iff {x y : α} :
    IsBridgeEdge nodes edges s(x, y) ↔
      (edgeGraph edges).Adj x y ∧ CutsOff (edgeGraph edges).Adj x y := by
  constructor
  · rintro ⟨hmem, hmore⟩
    have hxy := (SimpleGraph.mem_edgeSet _).mp hmem
    exact ⟨hxy, (SimpleGraph.componentCount_lt_iff_cutsOff finite_vertices
      (fun _ _ => mem_vertices_of_adj) hxy).mp hmore⟩
  · rintro ⟨hxy, hcut⟩
    exact ⟨(SimpleGraph.mem_edgeSet _).mpr hxy, (SimpleGraph.componentCount_lt_iff_cutsOff
      finite_vertices (fun _ _ => mem_vertices_of_adj) hxy).mpr hcut⟩

/-! ## What the searches note -/

/-- A graph has the nodes and the edges given, the edges in both directions. -/
structure Represents (graph : Graph α) (nodes : List α) (edges : List (α × α)) : Prop where
  adj_iff : ∀ a b, graph.Adj a b ↔ (a, b) ∈ edges ∨ (b, a) ∈ edges
  mem_keys_iff : ∀ a, a ∈ graph.keys ↔ a ∈ vertices nodes edges

theorem represents_adjacency (nodes : List α) (edges : List (α × α)) :
    Represents (adjacency nodes edges false) nodes edges :=
  ⟨fun _ _ => adj_undirected, fun _ => mem_keys_adjacency⟩

/-- Both modules build the same graph. -/
theorem exists_represents (nodes : List α) (edges : List (α × α)) :
    ∃ graph, GraphMetrics.adjacency nodes edges false = some graph ∧
      Represents graph nodes edges := by
  obtain ⟨graph, hgraph, hadj, hkeys⟩ := GraphMetrics.adjacency_eq_some nodes edges
  exact ⟨graph, hgraph, hadj, hkeys⟩

/-- What is next to a node is a node. -/
theorem Represents.mem_keys_of_adj (hgraph : Represents graph nodes edges) {a b : α}
    (h : graph.Adj a b) : b ∈ graph.keys := by
  refine (hgraph.mem_keys_iff b).mpr (Or.inr ?_)
  rcases (hgraph.adj_iff a b).mp h with hedge | hedge
  · exact ⟨_, hedge, Or.inr rfl⟩
  · exact ⟨_, hedge, Or.inl rfl⟩

/-- The rule of cut nodes. -/
def articulationRule : Rule α α := fun parent number low many p _ x =>
  x = p ∧ ((parent = none ∧ many) ∨ (parent ≠ none ∧ number ≤ low))

/-- The rule of bridges, which are written down in one way or another. -/
def bridgeRule (pair : α → α → ρ) : Rule α ρ := fun _ number low _ p c x =>
  number < low ∧ x = pair p c

theorem noteArticulation_follows : Note.Follows (noteArticulation : Note α α) articulationRule := by
  intro state node nxt children noted h x
  rw [noteArticulation] at h
  cases hparent : state.parentOf node with
  | none =>
      rw [hparent] at h
      obtain rfl := Option.some.inj h
      split_ifs with hmany <;> simp [articulationRule, hmany, or_comm]
  | some p =>
      rw [hparent] at h
      obtain ⟨number, hnumber, h⟩ := Option.bind_eq_some_iff.mp h
      obtain ⟨low, hlow, h⟩ := Option.bind_eq_some_iff.mp h
      obtain rfl := Option.some.inj h
      have heq : state.number node = number := by rw [Lowpoint.number, hnumber]; rfl
      have heq' : state.lowOf nxt = low := by rw [lowOf, hlow]; rfl
      split_ifs with hle <;> simp [articulationRule, heq, heq', hle, or_comm]

/-- A bridge is noted as it was found. -/
def noteFound (state : Lowpoint α (α × α)) (node nxt : α) (_ : ℕ) : Option (Finset (α × α)) := do
  return if (← state.discovery.get? node) < (← state.low.get? nxt) then
    insert (node, nxt) state.noted
  else state.noted

theorem noteFound_total : Note.Total (noteFound : Note α (α × α)) := by
  intro state node nxt children htracked hnode hnxt
  obtain ⟨_, hdiscovery⟩ := Dict.mem_keys_iff.mp hnode
  obtain ⟨_, hlow⟩ := Dict.mem_keys_iff.mp ((htracked nxt).mpr hnxt)
  exact ⟨_, by rw [noteFound, hdiscovery, hlow]; rfl⟩

/-- A note that writes a bridge down in some way follows the rule. -/
theorem follows_bridgeRule {pair : α → α → α × α} {note : Note α (α × α)}
    (hnote : ∀ state node nxt children, note state node nxt children = do
      return if (← state.discovery.get? node) < (← state.low.get? nxt) then
        insert (pair node nxt) state.noted
      else state.noted) : note.Follows (bridgeRule pair) := by
  intro state node nxt children noted h x
  rw [hnote] at h
  obtain ⟨number, hnumber, h⟩ := Option.bind_eq_some_iff.mp h
  obtain ⟨low, hlow, h⟩ := Option.bind_eq_some_iff.mp h
  obtain rfl := Option.some.inj h
  have heq : state.number node = number := by rw [Lowpoint.number, hnumber]; rfl
  have heq' : state.lowOf nxt = low := by rw [lowOf, hlow]; rfl
  split_ifs with hlt <;> simp [bridgeRule, heq, heq', hlt, or_comm]

theorem noteFound_follows : Note.Follows (noteFound : Note α (α × α)) (bridgeRule Prod.mk) :=
  follows_bridgeRule fun _ _ _ _ => rfl

theorem noteBridge_follows [LE α] [DecidableLE α] :
    Note.Follows (noteBridge : Note α (α × α)) (bridgeRule sortedPair) :=
  follows_bridgeRule fun _ _ _ _ => rfl

/-- The forest that a search leaves is one of the undirected simple graph. -/
theorem Represents.depthFirst {note : Note α ρ} {rule : Rule α ρ} {state : Lowpoint α ρ}
    (hgraph : Represents graph nodes edges) (hnote : note.Follows rule)
    (h : lowpoints note order fuel graph = some state) :
    DepthFirst (edgeGraph edges).Adj {a | state.Discovered a} state.parentOf state.number
        state.lowOf ∧
      (∀ a ∈ vertices nodes edges, state.Discovered a) ∧
      ∀ x, x ∈ state.noted ↔ ∃ c p, state.Found c p ∧ state.Tells rule p c x := by
  have hsymm : ∀ a b, graph.Adj a b → graph.Adj b a := fun a b hab =>
    (hgraph.adj_iff b a).mpr ((hgraph.adj_iff a b).mp hab).symm
  obtain ⟨hforest, hkeys, hnoted⟩ := lowpoints_spec hnote hsymm h
  have hadj : (fun a b => a ≠ b ∧ graph.Adj a b) = (edgeGraph edges).Adj := by
    ext a b
    rw [edgeGraph_adj, hgraph.adj_iff]
  rw [hadj] at hforest
  exact ⟨hforest, fun a ha => hkeys a ((hgraph.mem_keys_iff a).mpr ha), hnoted⟩

/-- What is noted by the rule of cut nodes are the cut nodes. -/
theorem Represents.mem_noted_iff {note : Note α α} {state : Lowpoint α α}
    (hgraph : Represents graph nodes edges) (hnote : note.Follows articulationRule)
    (h : lowpoints note order fuel graph = some state) (v : α) :
    v ∈ state.noted ↔ IsCutNode nodes edges v := by
  obtain ⟨hforest, hdiscovered, hnoted⟩ := hgraph.depthFirst hnote h
  rw [hnoted, isCutNode_iff]
  constructor
  · rintro ⟨c, p, hc, rfl, hcut⟩
    obtain ⟨hp, hadj, -⟩ := hforest.parent_rel c v hc
    exact ⟨mem_vertices_of_adj hadj, (hforest.separates_iff hp).mpr ⟨c, hc, hcut⟩⟩
  · rintro ⟨hv, hseparates⟩
    obtain ⟨c, hc, hcut⟩ := (hforest.separates_iff (hdiscovered v hv)).mp hseparates
    exact ⟨c, v, hc, rfl, hcut⟩

/-- The edge that a pair of nodes stands for. -/
def toEdge {α : Type} (pair : α × α) : Sym2 α := s(pair.1, pair.2)

/-- What is noted by the rule of bridges are the bridges, each once. -/
theorem Represents.bijOn_noted {pair : α → α → α × α} (hpair : ∀ a b, toEdge (pair a b) = s(a, b))
    {note : Note α (α × α)} {state : Lowpoint α (α × α)} (hgraph : Represents graph nodes edges)
    (hnote : note.Follows (bridgeRule pair)) (h : lowpoints note order fuel graph = some state) :
    Set.BijOn toEdge state.noted {e | IsBridgeEdge nodes edges e} := by
  obtain ⟨hforest, -, hnoted⟩ := hgraph.depthFirst hnote h
  refine ⟨fun x hx => ?_, fun x hx y hy hxy => ?_, fun e he => ?_⟩
  · obtain ⟨c, p, hc, hlow, rfl⟩ := (hnoted x).mp hx
    obtain ⟨-, hadj, -⟩ := hforest.parent_rel c p hc
    rw [hpair]
    exact isBridgeEdge_iff.mpr ⟨hadj, (hforest.cutsOff_iff hadj hadj.ne).mpr ⟨p, c, hc, hlow, rfl⟩⟩
  · obtain ⟨c, p, hc, -, rfl⟩ := (hnoted x).mp hx
    obtain ⟨c', p', hc', -, rfl⟩ := (hnoted y).mp hy
    rw [hpair, hpair] at hxy
    have hlt := (hforest.parent_rel c p hc).2.2
    have hlt' := (hforest.parent_rel c' p' hc').2.2
    rcases Sym2.eq_iff.mp hxy with ⟨rfl, rfl⟩ | ⟨rfl, rfl⟩
    · rfl
    · omega
  · induction e using Sym2.ind with | _ x y =>
    obtain ⟨hadj, hcut⟩ := isBridgeEdge_iff.mp he
    obtain ⟨p, c, hc, hlow, heq⟩ := (hforest.cutsOff_iff hadj hadj.ne).mp hcut
    exact ⟨pair p c, (hnoted _).mpr ⟨c, p, hc, hlow, rfl⟩, (hpair p c).trans heq⟩

/-! ## The searches of both modules -/

/-- Both modules note the same cut nodes. -/
theorem noteArticulation_agree : GraphMetrics.NotesAgree (fun out noted => out = noted)
    (GraphMetrics.noteArticulation : GraphMetrics.Note α (Finset α)) noteArticulation := by
  intro state mirror u v children noted hmirrors h
  have hparent := hmirrors.parent u
  have hnoted : state.out = mirror.noted := hmirrors.noted
  rw [noteArticulation, hmirrors.discovery, hmirrors.low, ← hnoted] at h
  cases hp : state.parent.get? u with
  | none =>
      have hroot : u ∉ state.parent.keys := fun hmem => by
        obtain ⟨p, hp'⟩ := Dict.mem_keys_iff.mp hmem
        rw [hp] at hp'
        cases hp'
      rw [hp] at hparent
      rw [hparent] at h
      obtain rfl := Option.some.inj h
      refine ⟨_, ?_, rfl⟩
      simp [GraphMetrics.noteArticulation, hroot]
  | some p =>
      have hchild : u ∈ state.parent.keys := Dict.mem_keys_iff.mpr ⟨p, hp⟩
      rw [hp] at hparent
      rw [hparent] at h
      refine ⟨noted, ?_, rfl⟩
      simpa [GraphMetrics.noteArticulation, hchild] using h

/-- The bridges that the metrics list are those that are noted as they were found. -/
theorem noteBridge_agree : GraphMetrics.NotesAgree (fun out noted => out.toFinset = noted)
    (GraphMetrics.noteBridge : GraphMetrics.Note α (List (α × α))) noteFound := by
  intro state mirror u v children noted hmirrors h
  have hnoted : state.out.toFinset = mirror.noted := hmirrors.noted
  rw [noteFound, hmirrors.discovery, hmirrors.low] at h
  obtain ⟨number, hnumber, h⟩ := Option.bind_eq_some_iff.mp h
  obtain ⟨low, hlow, h⟩ := Option.bind_eq_some_iff.mp h
  obtain rfl := Option.some.inj h
  refine ⟨_, by rw [GraphMetrics.noteBridge, hnumber, hlow]; rfl, ?_⟩
  split
  · rw [List.toFinset_append, hnoted, Finset.union_comm]
    rfl
  · exact hnoted

/-- Whatever the order in which the neighbours are visited, both modules find exactly the nodes
without which the undirected simple graph has more connected components. -/
theorem cutNodes_exact (order order' : SetOrder α) (str : α → String) (nodes : List α)
    (edges : List (α × α)) : ∀ᶠ fuel in Filter.atTop,
      (∃ points, articulationPoints order fuel nodes edges = some points ∧
        ∀ v, v ∈ points ↔ IsCutNode nodes edges v) ∧
      ∃ points, GraphMetrics.articulationPoints str order' fuel nodes edges = some points ∧
        points.Nodup ∧ ∀ v, v ∈ points ↔ IsCutNode nodes edges v := by
  have hrepresents := represents_adjacency nodes edges
  obtain ⟨graph, hgraph, hrepresents'⟩ := exists_represents nodes edges
  refine ((lowpoints_isSome noteArticulation_total order (adjacency nodes edges false)).and
    (lowpoints_isSome noteArticulation_total order' graph)).mono ?_
  rintro fuel ⟨⟨state, hstate⟩, ⟨mirror, hmirror⟩⟩
  constructor
  · exact ⟨state.noted, by rw [articulationPoints, hstate]; rfl,
      hrepresents.mem_noted_iff noteArticulation_follows hstate⟩
  · obtain ⟨state', hstate', hmirrors⟩ := GraphMetrics.search_mirrors noteArticulation_agree
      (fun _ _ h => hrepresents'.mem_keys_of_adj h) rfl hmirror
    have hout : state'.out = mirror.noted := hmirrors.noted
    refine ⟨_, by rw [GraphMetrics.articulationPoints, hgraph, Option.bind_eq_bind,
      Option.bind_some, hstate']; rfl, ?_, fun v => ?_⟩
    · exact (List.perm_insertionSort _ _).nodup_iff.mpr (order'.nodup _ _)
    · rw [(List.perm_insertionSort _ _).mem_iff, order'.mem_list, hout]
      exact hrepresents'.mem_noted_iff noteArticulation_follows hmirror v

/-- Whatever the order in which the neighbours are visited, both modules find exactly the edges
without which the undirected simple graph has more connected components, each once and in one
direction. -/
theorem bridges_exact [LE α] [DecidableLE α] (order order' : SetOrder α) (nodes : List α)
    (edges : List (α × α)) : ∀ᶠ fuel in Filter.atTop,
      (∃ bridges, bridgeEdges order fuel nodes edges = some bridges ∧
        Set.BijOn toEdge (bridges : Set (α × α)) {e | IsBridgeEdge nodes edges e}) ∧
      ∃ bridges, GraphMetrics.bridges order' fuel nodes edges = some bridges ∧
        bridges.Nodup ∧ Set.BijOn toEdge {pair | pair ∈ bridges} {e | IsBridgeEdge nodes edges e} := by
  have hrepresents := represents_adjacency nodes edges
  obtain ⟨graph, hgraph, hrepresents'⟩ := exists_represents nodes edges
  -- sorting the ends does not change the edge
  have hsorted : ∀ a b : α, toEdge (sortedPair a b) = s(a, b) := fun a b => by
    rw [sortedPair]
    split
    · rfl
    · exact Sym2.eq_swap
  refine ((lowpoints_isSome noteBridge_total order (adjacency nodes edges false)).and
    (lowpoints_isSome noteFound_total order' graph)).mono ?_
  rintro fuel ⟨⟨state, hstate⟩, ⟨mirror, hmirror⟩⟩
  constructor
  · exact ⟨state.noted, by rw [bridgeEdges, hstate]; rfl,
      hrepresents.bijOn_noted hsorted noteBridge_follows hstate⟩
  · obtain ⟨state', hstate', hmirrors⟩ := GraphMetrics.search_mirrors noteBridge_agree
      (fun _ _ h => hrepresents'.mem_keys_of_adj h) List.toFinset_nil hmirror
    have hout : state'.out.toFinset = mirror.noted := hmirrors.noted
    refine ⟨state'.out, by rw [GraphMetrics.bridges, hgraph]; simp [hstate'],
      GraphMetrics.search_nodup hstate', ?_⟩
    have hbij := hrepresents'.bijOn_noted (fun _ _ => rfl) noteFound_follows hmirror
    rw [← hout, List.coe_toFinset] at hbij
    exact hbij

end Netlab
