import Netlab.Topology.LowpointSpec

/-!
# The searches of the metrics

`netlab/topology_metrics.py` has searches of its own for cut nodes and bridges. They build the graph
in two passes, remember no parent for a root instead of an empty one, and list the bridges in the
direction in which they were found. Apart from that they go the way of the searches of
`netlab/topology.py` (`search_mirrors`).
-/

namespace Netlab

namespace GraphMetrics

variable {α σ : Type} [DecidableEq α]

/-- The graph of nodes and edges, where the edges back are added in a second pass (`adjacency`). -/
def adjacency (nodes : List α) (edges : List (α × α)) (directed : Bool) : Option (Graph α) :=
  let a := edges.foldl (Dict.addEdge true) (.ofList (nodes.map fun n => (n, ∅)))
  edges.foldlM (fun (a : Graph α) edge =>
    if directed then some a
    else do return a.set edge.2 (insert edge.1 (← a.get? edge.2))) a

/-- What a search knows about the nodes: when they were discovered, the lowest number that they
reach, and the node that they were discovered from, which a root does not have. -/
structure Search (α σ : Type) where
  time : ℕ
  disc : Dict α ℕ
  low : Dict α ℕ
  parent : Dict α α
  out : σ

/-- What is noted on the way back from a node to the node that it was discovered from, which then
has `children` children. -/
abbrev Note (α σ : Type) := Search α σ → α → α → ℕ → Option σ

/-- Number a node that is discovered. -/
def Search.discover (state : Search α σ) (u : α) : Search α σ :=
  { state with
    time := state.time + 1
    disc := state.disc.set u (state.time + 1)
    low := state.low.set u (state.time + 1) }

/-- Lower the number that a node reaches. -/
def Search.lower (state : Search α σ) (u : α) (number : ℕ) : Option (Search α σ) := do
  return { state with low := state.low.set u (min (← state.low.get? u) number) }

/-- Look at the nodes next to a node, where `dfs` searches on from one of them. -/
def scan (note : Note α σ) (dfs : α → Search α σ → Option (Search α σ)) (u : α) :
    List α → ℕ → Search α σ → Option (Search α σ)
  | [], _, state => some state
  | v :: rest, children, state =>
      if v ∉ state.disc.keys then do
        let state ← dfs v { state with parent := state.parent.set v u }
        let state ← state.lower u (← state.low.get? v)
        -- the child has been searched by now, and is counted
        let out ← note state u v (children + 1)
        scan note dfs u rest (children + 1) { state with out }
      else if state.parent.get? u ≠ some v then do
        let state ← state.lower u (← state.disc.get? v)
        scan note dfs u rest children state
      else scan note dfs u rest children state

/-- Search on from a node. -/
def dfs (note : Note α σ) (order : SetOrder α) (graph : Graph α) :
    ℕ → α → Search α σ → Option (Search α σ)
  | 0, _, _ => none
  | fuel + 1, u, state => do
      scan note (dfs note order graph fuel) u (order.list [u] (← graph.get? u)) 0
        (state.discover u)

/-- Search from every node that has not been discovered. -/
def search (note : Note α σ) (order : SetOrder α) (fuel : ℕ) (graph : Graph α) (nothing : σ) :
    Option (Search α σ) :=
  graph.keys.foldlM (fun state n =>
    if n ∈ state.disc.keys then some state else dfs note order graph fuel n state)
    { time := 0, disc := .empty, low := .empty, parent := .empty, out := nothing }

/-- A root with two children is a cut node, and so is a node from whose child nothing higher is
reached. -/
def noteArticulation (state : Search α (Finset α)) (u v : α) (children : ℕ) :
    Option (Finset α) := do
  let points := if u ∉ state.parent.keys ∧ 1 < children then insert u state.out else state.out
  if u ∈ state.parent.keys then
    return if (← state.disc.get? u) ≤ (← state.low.get? v) then insert u points else points
  else return points

/-- The nodes without which the graph falls apart, in the order of their texts
(`articulation_points`). -/
def articulationPoints (str : α → String) (order : SetOrder α) (fuel : ℕ) (nodes : List α)
    (edges : List (α × α)) : Option (List α) := do
  let state ← search noteArticulation order fuel (← adjacency nodes edges false) ∅
  return (order.list [] state.out).insertionSort fun a b => str a ≤ str b

/-- An edge from whose far end the near end is not reached is a bridge. -/
def noteBridge (state : Search α (List (α × α))) (u v : α) (_ : ℕ) : Option (List (α × α)) := do
  return if (← state.disc.get? u) < (← state.low.get? v) then state.out ++ [(u, v)] else state.out

/-- The edges without which the graph falls apart, from the end that was discovered first
(`bridges`). -/
def bridges (order : SetOrder α) (fuel : ℕ) (nodes : List α) (edges : List (α × α)) :
    Option (List (α × α)) := do
  let state ← search noteBridge order fuel (← adjacency nodes edges false) []
  return state.out

/-! ## The graph -/

/-- The second pass adds the edges back. -/
theorem adjacency_eq_some (nodes : List α) (edges : List (α × α)) :
    ∃ graph, adjacency nodes edges false = some graph ∧
      (∀ a b, graph.Adj a b ↔ (a, b) ∈ edges ∨ (b, a) ∈ edges) ∧
      ∀ a, a ∈ graph.keys ↔ a ∈ nodes ∨ ∃ edge ∈ edges, a = edge.1 ∨ a = edge.2 := by
  -- the edges back are added to a table that has an entry for every node already
  have hback : ∀ (back : List (α × α)) (a : Graph α), (∀ edge ∈ back, edge.2 ∈ a.keys) →
      ∃ graph, back.foldlM (fun (a : Graph α) edge => if false then some a
          else do return a.set edge.2 (insert edge.1 (← a.get? edge.2))) a = some graph ∧
        (∀ u v, graph.Adj u v ↔ a.Adj u v ∨ (v, u) ∈ back) ∧ graph.keys = a.keys := by
    intro back
    induction back with
    | nil => exact fun a _ => ⟨a, rfl, by simp, rfl⟩
    | cons edge rest ih =>
        intro a hkeys
        obtain ⟨hkey, hrest⟩ := List.forall_mem_cons.mp hkeys
        obtain ⟨s, hs⟩ := Dict.mem_keys_iff.mp hkey
        have hset := Dict.keys_set_of_mem (insert edge.1 s) hkey
        obtain ⟨graph, hgraph, hadj, hsame⟩ := ih (a.set edge.2 (insert edge.1 s))
          fun e he => hset ▸ hrest e he
        refine ⟨graph, ?_, fun u v => ?_, hsame.trans hset⟩
        · rw [List.foldlM_cons, hs]
          exact hgraph
        · have hsucc : a.successors edge.2 = s := by rw [Dict.successors, hs]; rfl
          rw [hadj, Dict.Adj, Dict.Adj, Dict.successors_set, List.mem_cons]
          by_cases hu : u = edge.2
          · rw [if_pos hu, Finset.mem_insert, hu, hsucc]
            constructor
            · rintro ((rfl | hv) | hv)
              · exact Or.inr (Or.inl rfl)
              · exact Or.inl hv
              · exact Or.inr (Or.inr hv)
            · rintro (hv | hv | hv)
              · exact Or.inl (Or.inr hv)
              · exact Or.inl (Or.inl (congrArg Prod.fst hv))
              · exact Or.inr hv
          · rw [if_neg hu]
            refine or_congr_right ⟨Or.inr, fun hv => hv.resolve_left fun heq => hu ?_⟩
            exact congrArg Prod.snd heq
  obtain ⟨graph, hgraph, hadj, hkeys⟩ := hback edges (Netlab.adjacency nodes edges true)
    fun edge hedge => mem_keys_adjacency.mpr (Or.inr ⟨edge, hedge, Or.inr rfl⟩)
  refine ⟨graph, hgraph, fun a b => ?_, fun a => by rw [hkeys, mem_keys_adjacency]⟩
  rw [hadj, adj_adjacency]
  simp

/-! ## Both searches go the same way -/

section

variable {ρ : Type} {agree : σ → Finset ρ → Prop} {note : Note α σ} {note' : Netlab.Note α ρ}
  {order : SetOrder α} {graph : Graph α}

/-- Two searches know the same about the nodes, and what they have noted agrees. -/
structure Mirrors (agree : σ → Finset ρ → Prop) (state : Search α σ) (mirror : Lowpoint α ρ) :
    Prop where
  discovery : mirror.discovery = state.disc
  low : mirror.low = state.low
  counter : mirror.counter = state.time
  parent : ∀ a, mirror.parentOf a = state.parent.get? a
  parented : ∀ a ∈ state.parent.keys, a ∈ state.disc.keys
  noted : agree state.out mirror.noted

/-- Two notes agree about all that two searches that know the same can ask. -/
def NotesAgree (agree : σ → Finset ρ → Prop) (note : Note α σ) (note' : Netlab.Note α ρ) : Prop :=
  ∀ (state : Search α σ) (mirror : Lowpoint α ρ) (u v : α) (children : ℕ) (noted : Finset ρ),
    Mirrors agree state mirror → note' mirror u v children = some noted →
      ∃ out, note state u v children = some out ∧ agree out noted

/-- Numbering a node that has been entered. -/
theorem Mirrors.discover {state : Search α σ} {mirror mirror' : Lowpoint α ρ}
    (h : Mirrors agree state mirror) {v : α} (parent : Dict α α)
    (hparent : ∀ a, mirror'.parentOf a = parent.get? a)
    (hparented : ∀ a ∈ parent.keys, a ∈ state.disc.keys ∨ a = v)
    (hsame : mirror'.discovery = mirror.discovery ∧ mirror'.low = mirror.low ∧
      mirror'.counter = mirror.counter ∧ mirror'.noted = mirror.noted) :
    Mirrors agree ({ state with parent }.discover v) (mirror'.discover v) := by
  obtain ⟨hdiscovery, hlow, hcounter, hnoted⟩ := hsame
  constructor
  · show mirror'.discovery.set v (mirror'.counter + 1) = state.disc.set v (state.time + 1)
    rw [hdiscovery, hcounter, h.discovery, h.counter]
  · show mirror'.low.set v (mirror'.counter + 1) = state.low.set v (state.time + 1)
    rw [hlow, hcounter, h.low, h.counter]
  · show mirror'.counter + 1 = state.time + 1
    rw [hcounter, h.counter]
  · exact hparent
  · exact fun a ha => Dict.mem_keys_set.mpr (hparented a ha)
  · show agree state.out mirror'.noted
    rw [hnoted]
    exact h.noted

/-- Lowering the number that a node reaches. -/
theorem Mirrors.lower {state : Search α σ} {mirror lowered : Lowpoint α ρ}
    (h : Mirrors agree state mirror) {u : α} {number : ℕ}
    (hlower : mirror.lower u number = some lowered) :
    ∃ after, state.lower u number = some after ∧ Mirrors agree after lowered := by
  obtain ⟨low, hlow, hlower⟩ := Option.bind_eq_some_iff.mp hlower
  obtain rfl := Option.some.inj hlower
  rw [h.low] at hlow
  refine ⟨{ state with low := state.low.set u (min low number) }, by rw [Search.lower, hlow]; rfl,
    { h with low := ?_ }⟩
  show mirror.low.set u _ = state.low.set u _
  rw [h.low]

/-- Looking at the nodes next to a node. -/
theorem scan_mirrors (hnote : NotesAgree agree note note')
    {dfs : α → Search α σ → Option (Search α σ)}
    {dfs' : α → Lowpoint α ρ → Option (Lowpoint α ρ)}
    (hdfs : ∀ {v state mirror after}, v ∈ graph.keys →
      Mirrors agree (state.discover v) (mirror.discover v) → dfs' v mirror = some after →
      ∃ state', dfs v state = some state' ∧ Mirrors agree state' after)
    {u : α} {rest : List α} (hrest : ∀ a ∈ rest, a ∈ graph.keys) {children : ℕ}
    {state : Search α σ} {mirror after : Lowpoint α ρ} (h : Mirrors agree state mirror)
    (hafter : lowpointScan note' dfs' u rest children mirror = some after) :
    ∃ state', scan note dfs u rest children state = some state' ∧ Mirrors agree state' after := by
  induction rest generalizing children state mirror with
  | nil =>
      obtain rfl := Option.some.inj hafter
      exact ⟨state, rfl, h⟩
  | cons v rest ih =>
      obtain ⟨hv, hrest⟩ := List.forall_mem_cons.mp hrest
      have hdiscovered : mirror.Discovered v ↔ v ∈ state.disc.keys := by
        rw [Lowpoint.Discovered, h.discovery]
      rw [lowpointScan] at hafter
      rw [scan]
      by_cases hnew : mirror.Discovered v
      · rw [if_neg (not_not.mpr hnew)] at hafter
        rw [if_neg (not_not.mpr (hdiscovered.mp hnew))]
        by_cases hback : some v ≠ mirror.parentOf u
        · rw [if_pos hback] at hafter
          rw [if_pos (h.parent u ▸ hback.symm)]
          obtain ⟨number, hnumber, hafter⟩ := Option.bind_eq_some_iff.mp hafter
          obtain ⟨lowered, hlower, hafter⟩ := Option.bind_eq_some_iff.mp hafter
          obtain ⟨state', hstate', hmirrors⟩ := h.lower hlower
          obtain ⟨final, hfinal, hmirrors'⟩ := ih hrest hmirrors hafter
          exact ⟨final, by rw [← h.discovery]; simp [hnumber, hstate', hfinal], hmirrors'⟩
        · rw [if_neg hback] at hafter
          rw [if_neg (h.parent u ▸ fun heq => hback (Ne.symm heq))]
          exact ih hrest h hafter
      · rw [if_pos hnew] at hafter
        rw [if_pos (hdiscovered.not.mp hnew)]
        obtain ⟨between, hbetween, hafter⟩ := Option.bind_eq_some_iff.mp hafter
        obtain ⟨low, hlow, hafter⟩ := Option.bind_eq_some_iff.mp hafter
        obtain ⟨lowered, hlower, hafter⟩ := Option.bind_eq_some_iff.mp hafter
        obtain ⟨noted, hnoted, hafter⟩ := Option.bind_eq_some_iff.mp hafter
        -- the node that the search goes on from is remembered by both
        have hentered : Mirrors agree ({ state with parent := state.parent.set v u }.discover v)
            ((mirror.adopt v (some u)).discover v) := by
          refine h.discover _ (fun a => ?_) (fun a ha => ?_) ⟨rfl, rfl, rfl, rfl⟩
          · rw [Lowpoint.parentOf_adopt, Dict.get?_set, h.parent]
          · exact (Dict.mem_keys_set.mp ha).imp_left (h.parented a)
        obtain ⟨searched, hsearched, hmirrors⟩ := hdfs hv hentered hbetween
        obtain ⟨state', hstate', hmirrors'⟩ := hmirrors.lower hlower
        obtain ⟨out, hout, hagree⟩ := hnote _ _ _ _ _ _ hmirrors' hnoted
        have hnotedBoth : Mirrors agree { state' with out } { lowered with noted } :=
          { hmirrors' with noted := hagree }
        obtain ⟨final, hfinal, hmirrors''⟩ := ih hrest hnotedBoth hafter
        rw [hmirrors.low] at hlow
        exact ⟨final, by simp [hsearched, hlow, hstate', hout, hfinal], hmirrors''⟩

/-- Searching on from a node. -/
theorem dfs_mirrors (hnote : NotesAgree agree note note')
    (hgraph : ∀ a b, graph.Adj a b → b ∈ graph.keys) {fuel : ℕ} {v : α} (hv : v ∈ graph.keys)
    {state : Search α σ} {mirror after : Lowpoint α ρ}
    (h : Mirrors agree (state.discover v) (mirror.discover v))
    (hafter : lowpointDfs note' order graph fuel v mirror = some after) :
    ∃ state', dfs note order graph fuel v state = some state' ∧ Mirrors agree state' after := by
  induction fuel generalizing v state mirror after with
  | zero => cases hafter
  | succ fuel ih =>
      obtain ⟨successors, hsuccessors⟩ := Dict.mem_keys_iff.mp hv
      have heq : graph.successors v = successors := by rw [Dict.successors, hsuccessors]; rfl
      rw [lowpointDfs, heq] at hafter
      rw [dfs, hsuccessors]
      refine scan_mirrors hnote (fun hv h hafter => ih hv h hafter) (fun a ha => ?_) h hafter
      exact hgraph v a (by rw [Dict.Adj, heq]; exact (order.mem_list _ _ _).mp ha)

/-- Where the search of the topology ends, the search of the metrics ends too, and has noted the
same. -/
theorem search_mirrors (hnote : NotesAgree agree note note')
    (hgraph : ∀ a b, graph.Adj a b → b ∈ graph.keys) {fuel : ℕ} {nothing : σ}
    (hnothing : agree nothing ∅) {after : Lowpoint α ρ}
    (hafter : lowpoints note' order fuel graph = some after) :
    ∃ state, search note order fuel graph nothing = some state ∧ Mirrors agree state after := by
  have hall : ∀ (keys : List α) (state : Search α σ) (mirror : Lowpoint α ρ),
      (∀ a ∈ keys, a ∈ graph.keys) → Mirrors agree state mirror →
      keys.foldlM (fun state node => if state.Discovered node then some state
        else lowpointDfs note' order graph fuel node
          { state with parent := state.parent.set node none }) mirror = some after →
      ∃ state', keys.foldlM (fun state n => if n ∈ state.disc.keys then some state
        else dfs note order graph fuel n state) state = some state' ∧
          Mirrors agree state' after := by
    intro keys
    induction keys with
    | nil =>
        intro state mirror _ h hafter
        obtain rfl := Option.some.inj hafter
        exact ⟨state, rfl, h⟩
    | cons n rest ih =>
        intro state mirror hkeys h hafter
        obtain ⟨hn, hrest⟩ := List.forall_mem_cons.mp hkeys
        have hdiscovered : mirror.Discovered n ↔ n ∈ state.disc.keys := by
          rw [Lowpoint.Discovered, h.discovery]
        rw [List.foldlM_cons] at hafter ⊢
        obtain ⟨between, hbetween, hafter⟩ := Option.bind_eq_some_iff.mp hafter
        by_cases hold : mirror.Discovered n
        · rw [if_pos hold] at hbetween
          obtain rfl := Option.some.inj hbetween
          rw [if_pos (hdiscovered.mp hold)]
          exact ih state mirror hrest h hafter
        · rw [if_neg hold] at hbetween
          rw [if_neg (hdiscovered.not.mp hold)]
          -- no parent is remembered for a node that has not been discovered
          have hroot : n ∉ state.parent.keys := fun hmem =>
            hold (hdiscovered.mpr (h.parented n hmem))
          have hentered : Mirrors agree (state.discover n) ((mirror.adopt n none).discover n) := by
            refine h.discover state.parent (fun a => ?_)
              (fun a ha => Or.inl (h.parented a ha)) ⟨rfl, rfl, rfl, rfl⟩
            rw [Lowpoint.parentOf_adopt, h.parent]
            split
            · rename_i heq
              rw [heq]
              exact (Option.eq_none_iff_forall_ne_some.mpr fun p hp =>
                hroot (Dict.mem_keys_iff.mpr ⟨p, hp⟩)).symm
            · rfl
          obtain ⟨state', hstate', hmirrors⟩ := dfs_mirrors hnote hgraph hn hentered hbetween
          rw [hstate']
          exact ih state' between hrest hmirrors hafter
  refine hall graph.keys _ _ (fun a ha => ha) ⟨rfl, rfl, rfl, fun a => rfl, ?_, hnothing⟩ hafter
  exact fun a ha => absurd ha List.not_mem_nil

end

/-! ## The list of bridges -/

section

variable {order : SetOrder α} {graph : Graph α}

/-- What a search adds to the list: edges whose far ends it has discovered since, each once. -/
structure Lists (before after : Search α (List (α × α))) : Prop where
  disc : ∀ a ∈ before.disc.keys, a ∈ after.disc.keys
  out : ∃ added, after.out = before.out ++ added ∧
    (∀ e ∈ added, e.2 ∉ before.disc.keys ∧ e.2 ∈ after.disc.keys) ∧ (added.map Prod.snd).Nodup

omit [DecidableEq α] in
theorem Lists.refl (state : Search α (List (α × α))) : Lists state state :=
  ⟨fun _ ha => ha, [], by simp⟩

omit [DecidableEq α] in
theorem Lists.trans {before between after : Search α (List (α × α))} (h : Lists before between)
    (h' : Lists between after) : Lists before after := by
  obtain ⟨added, hout, hfresh, hnodup⟩ := h.out
  obtain ⟨added', hout', hfresh', hnodup'⟩ := h'.out
  refine ⟨fun a ha => h'.disc a (h.disc a ha), added ++ added', ?_, ?_, ?_⟩
  · rw [hout', hout, List.append_assoc]
  · intro e he
    rcases List.mem_append.mp he with he | he
    · exact ⟨(hfresh e he).1, h'.disc _ (hfresh e he).2⟩
    · exact ⟨fun hmem => (hfresh' e he).1 (h.disc _ hmem), (hfresh' e he).2⟩
  · rw [List.map_append, List.nodup_append]
    refine ⟨hnodup, hnodup', fun a ha b hb hab => ?_⟩
    obtain ⟨e, he, rfl⟩ := List.mem_map.mp ha
    obtain ⟨e', he', rfl⟩ := List.mem_map.mp hb
    exact (hfresh' e' he').1 (hab ▸ (hfresh e he).2)

/-- Lowering a number adds nothing. -/
theorem lower_out {state after : Search α (List (α × α))} {u : α} {number : ℕ}
    (h : state.lower u number = some after) : after.disc = state.disc ∧ after.out = state.out := by
  obtain ⟨low, -, h⟩ := Option.bind_eq_some_iff.mp h
  obtain rfl := Option.some.inj h
  exact ⟨rfl, rfl⟩

/-- Looking at the nodes next to a node. -/
theorem scan_lists {dfs : α → Search α (List (α × α)) → Option (Search α (List (α × α)))}
    (hdfs : ∀ {v state after}, dfs v state = some after → Lists (state.discover v) after)
    {u : α} {rest : List α} {children : ℕ} {state after : Search α (List (α × α))}
    (h : scan noteBridge dfs u rest children state = some after) : Lists state after := by
  induction rest generalizing children state with
  | nil =>
      obtain rfl := Option.some.inj h
      exact .refl state
  | cons v rest ih =>
      rw [scan] at h
      by_cases hnew : v ∈ state.disc.keys
      · rw [if_neg (not_not.mpr hnew)] at h
        split at h
        · obtain ⟨number, -, h⟩ := Option.bind_eq_some_iff.mp h
          obtain ⟨lowered, hlower, h⟩ := Option.bind_eq_some_iff.mp h
          obtain ⟨hdisc, hout⟩ := lower_out hlower
          refine Lists.trans ⟨fun a ha => hdisc ▸ ha, [], ?_, by simp, by simp⟩ (ih h)
          rw [hout, List.append_nil]
        · exact ih h
      · rw [if_pos hnew] at h
        obtain ⟨between, hbetween, h⟩ := Option.bind_eq_some_iff.mp h
        obtain ⟨low, -, h⟩ := Option.bind_eq_some_iff.mp h
        obtain ⟨lowered, hlower, h⟩ := Option.bind_eq_some_iff.mp h
        obtain ⟨out, hnoted, h⟩ := Option.bind_eq_some_iff.mp h
        obtain ⟨discU, -, hnoted⟩ := Option.bind_eq_some_iff.mp hnoted
        obtain ⟨lowV, -, hnoted⟩ := Option.bind_eq_some_iff.mp hnoted
        obtain ⟨hdisc, hlowered⟩ := lower_out hlower
        have hlists := hdfs hbetween
        obtain ⟨added, hadded, hfresh, hnodup⟩ := hlists.out
        have hdiscover : ∀ a, a ∈ (state.disc.set v (state.time + 1)).keys ↔
            a ∈ state.disc.keys ∨ a = v := fun a => Dict.mem_keys_set
        have hv : v ∈ between.disc.keys := hlists.disc v ((hdiscover v).mpr (Or.inr rfl))
        -- the edge to the node is new, as what was added since does not end there
        have hfresh' : ∀ e ∈ added, (e.2 ∉ state.disc.keys ∧ e.2 ∈ between.disc.keys) ∧ e.2 ≠ v :=
          fun e he => ⟨⟨fun hmem => (hfresh e he).1 ((hdiscover _).mpr (Or.inl hmem)),
            (hfresh e he).2⟩, fun heq => (hfresh e he).1 ((hdiscover _).mpr (Or.inr heq))⟩
        have hstep : Lists state { lowered with out } := ?_
        · exact hstep.trans (ih h)
        refine ⟨fun a ha => ?_, ?_⟩
        · rw [hdisc]
          exact hlists.disc a ((hdiscover a).mpr (Or.inl ha))
        · have hbefore : lowered.out = state.out ++ added := hlowered.trans hadded
          obtain rfl := Option.some.inj hnoted
          rw [hdisc, hbefore]
          split
          · refine ⟨added ++ [(u, v)], by rw [List.append_assoc], fun e he => ?_, ?_⟩
            · rcases List.mem_append.mp he with he | he
              · exact (hfresh' e he).1
              · rw [List.mem_singleton.mp he]
                exact ⟨hnew, hv⟩
            · rw [List.map_append, List.nodup_append]
              refine ⟨hnodup, by simp, fun a ha b hb hab => ?_⟩
              obtain ⟨e, he, rfl⟩ := List.mem_map.mp ha
              exact (hfresh' e he).2 (hab.trans (by simpa using hb))
          · exact ⟨added, rfl, fun e he => (hfresh' e he).1, hnodup⟩

/-- Searching on from a node. -/
theorem dfs_lists {fuel : ℕ} {v : α} {state after : Search α (List (α × α))}
    (h : dfs noteBridge order graph fuel v state = some after) :
    Lists (state.discover v) after := by
  induction fuel generalizing v state after with
  | zero => cases h
  | succ fuel ih =>
      obtain ⟨successors, -, h⟩ := Option.bind_eq_some_iff.mp h
      exact scan_lists (fun h => ih h) h

/-- No bridge is listed twice. -/
theorem search_nodup {fuel : ℕ} {after : Search α (List (α × α))}
    (h : search noteBridge order fuel graph [] = some after) : after.out.Nodup := by
  have hall : ∀ (keys : List α) (state : Search α (List (α × α))),
      keys.foldlM (fun state n => if n ∈ state.disc.keys then some state
        else dfs noteBridge order graph fuel n state) state = some after → Lists state after := by
    intro keys
    induction keys with
    | nil =>
        intro state h
        obtain rfl := Option.some.inj h
        exact .refl state
    | cons n rest ih =>
        intro state h
        rw [List.foldlM_cons] at h
        obtain ⟨between, hbetween, h⟩ := Option.bind_eq_some_iff.mp h
        refine Lists.trans ?_ (ih between h)
        split at hbetween
        · obtain rfl := Option.some.inj hbetween
          exact .refl state
        · obtain ⟨hdisc, added, hout, hfresh, hnodup⟩ := dfs_lists hbetween
          have hmono : ∀ a ∈ state.disc.keys, a ∈ (state.discover n).disc.keys := fun a ha =>
            Dict.mem_keys_set.mpr (Or.inl ha)
          -- a bridge is noted with an end that the search has just discovered
          exact ⟨fun a ha => hdisc a (hmono a ha), added, hout,
            fun e he => ⟨fun hmem => (hfresh e he).1 (hmono _ hmem), (hfresh e he).2⟩, hnodup⟩
  obtain ⟨added, hout, -, hnodup⟩ := (hall graph.keys _ h).out
  rw [hout, List.nil_append]
  exact hnodup.of_map

end

end GraphMetrics

end Netlab
