import Netlab.Topology.Graph
import Mathlib.Order.Filter.Finite

/-!
# What the searches find

With enough fuel, `reachable` returns exactly the nodes to which a walk leads from the source
(`reachable_spec`), and `hasCycle` tells whether the graph has a directed cycle (`hasCycle_spec`),
in whichever order sets are iterated over. The searches that remain end as well.
-/

namespace Netlab

open Relation

variable {α : Type} [DecidableEq α] {order : SetOrder α} {graph : Graph α}

/-! ## What can be reached -/

/-- What the search has done so far: what is seen or queued can be reached, and what is behind a
node that is seen is seen or queued. -/
structure Reaching (graph : Graph α) (source : α) (state : Finset α × List α) : Prop where
  sound : ∀ a, a ∈ state.1 ∨ a ∈ state.2 → ReflTransGen graph.Adj source a
  closed : ∀ a ∈ state.1, ∀ b, graph.Adj a b → b ∈ state.1 ∨ b ∈ state.2
  source_mem : source ∈ state.1 ∨ source ∈ state.2
  seen_subset : state.1 ⊆ insert source graph.nodes
  queue_subset : ∀ a ∈ state.2, a ∈ insert source graph.nodes

/-- How much the search has left to do. -/
def reachingMeasure (graph : Graph α) (source : α) (state : Finset α × List α) : ℕ :=
  (insert source graph.nodes \ state.1).card * (graph.nodes.card + 1) + state.2.length

/-- A queue that is empty leaves nothing that can be reached but is not seen. -/
theorem Reaching.mem_iff {source : α} {seen : Finset α} (h : Reaching graph source (seen, []))
    (a : α) : a ∈ seen ↔ ReflTransGen graph.Adj source a := by
  constructor
  · exact fun ha => h.sound a (Or.inl ha)
  · intro ha
    induction ha with
    | refl => exact h.source_mem.resolve_right List.not_mem_nil
    | tail _ hbc ih => exact (h.closed _ ih _ hbc).resolve_right List.not_mem_nil

/-- A node that has been seen is dropped from the queue. -/
theorem Reaching.drop {source node : α} {seen : Finset α} {queue : List α}
    (h : Reaching graph source (seen, node :: queue)) (hnode : node ∈ seen) :
    Reaching graph source (seen, queue) := by
  have hqueue : ∀ {a}, a ∈ seen ∨ a ∈ node :: queue → a ∈ seen ∨ a ∈ queue := by
    rintro a (ha | ha)
    · exact Or.inl ha
    · rcases List.mem_cons.mp ha with rfl | ha
      · exact Or.inl hnode
      · exact Or.inr ha
  exact {
    sound := fun a ha => h.sound a (ha.imp_right (List.mem_cons_of_mem _))
    closed := fun a ha b hab => hqueue (h.closed a ha b hab)
    source_mem := hqueue h.source_mem
    seen_subset := h.seen_subset
    queue_subset := fun a ha => h.queue_subset a (List.mem_cons_of_mem _ ha) }

/-- A node that is seen for the first time brings what is behind it into the queue. -/
theorem Reaching.visit {source node : α} {seen : Finset α} {queue : List α}
    (h : Reaching graph source (seen, node :: queue)) (occasion : List α) :
    Reaching graph source (insert node seen,
      queue ++ order.list occasion (graph.successors node \ insert node seen)) := by
  have hqueue : ∀ {a}, a ∈ seen ∨ a ∈ node :: queue → a ∈ insert node seen ∨ a ∈ queue := by
    rintro a (ha | ha)
    · exact Or.inl (Finset.mem_insert_of_mem ha)
    · rcases List.mem_cons.mp ha with rfl | ha
      · exact Or.inl (Finset.mem_insert_self _ _)
      · exact Or.inr ha
  have hnode := h.sound node (Or.inr List.mem_cons_self)
  constructor
  · intro a ha
    simp only [List.mem_append, SetOrder.mem_list, Finset.mem_sdiff] at ha
    rcases ha with ha | ha | ha
    · rcases Finset.mem_insert.mp ha with rfl | ha
      · exact hnode
      · exact h.sound a (Or.inl ha)
    · exact h.sound a (Or.inr (List.mem_cons_of_mem _ ha))
    · exact hnode.tail ha.1
  · intro a ha b hab
    simp only [List.mem_append, SetOrder.mem_list, Finset.mem_sdiff]
    -- a successor of the node is seen by now or has just been queued
    by_cases hb : b ∈ insert node seen
    · exact Or.inl hb
    rcases Finset.mem_insert.mp ha with rfl | ha
    · exact Or.inr (Or.inr ⟨hab, hb⟩)
    · exact (hqueue (h.closed a ha b hab)).imp_right Or.inl
  · exact (hqueue h.source_mem).imp_right (List.mem_append_left _)
  · exact Finset.insert_subset (h.queue_subset node List.mem_cons_self) h.seen_subset
  · intro a ha
    simp only [List.mem_append, SetOrder.mem_list, Finset.mem_sdiff] at ha
    rcases ha with ha | ha
    · exact h.queue_subset a (List.mem_cons_of_mem _ ha)
    · exact Finset.mem_insert_of_mem (Dict.successors_subset_nodes graph node ha.1)

/-- `reachable` returns what can be reached. -/
theorem reachable_spec (order : SetOrder α) (graph : Graph α) (source : α) :
    ∀ᶠ fuel in Filter.atTop, ∃ seen, reachable order fuel graph source = some seen ∧
      ∀ a, a ∈ seen ↔ ReflTransGen graph.Adj source a := by
  have hstart : Reaching graph source (∅, [source]) := {
    sound := by
      rintro a (ha | ha)
      · simp at ha
      · rw [List.mem_singleton.mp ha]
    closed := by simp
    source_mem := Or.inr List.mem_cons_self
    seen_subset := by simp
    queue_subset := by simp }
  refine (Filter.eventually_gt_atTop (reachingMeasure graph source (∅, [source]))).mono
    fun fuel hfuel => ?_
  refine Loop.run_of_measure (Reaching graph source) _ (reachingMeasure graph source) ?_ hstart hfuel
  rintro ⟨seen, queue⟩ hstate
  cases queue with
  | nil => exact Or.inl ⟨seen, rfl, hstate.mem_iff⟩
  | cons node queue =>
      refine Or.inr ?_
      by_cases hnode : node ∈ seen
      · refine ⟨(seen, queue), by simp [reachableStep, hnode], hstate.drop hnode, ?_⟩
        simp [reachingMeasure]
      · refine ⟨_, by simp [reachableStep, hnode]; rfl, hstate.visit [node], ?_⟩
        -- one node less remains to be seen, and no more than all nodes are queued
        have hcard : (insert source graph.nodes \ insert node seen).card + 1 =
            (insert source graph.nodes \ seen).card := by
          have hmem : node ∈ insert source graph.nodes \ seen :=
            Finset.mem_sdiff.mpr ⟨hstate.queue_subset node List.mem_cons_self, hnode⟩
          rw [Finset.sdiff_insert, Finset.card_erase_add_one hmem]
        have hqueued : (graph.successors node \ insert node seen).card ≤ graph.nodes.card :=
          Finset.card_le_card (Finset.sdiff_subset.trans (Dict.successors_subset_nodes graph node))
        simp only [reachingMeasure, List.length_append, SetOrder.length_list, List.length_cons,
          ← hcard, Nat.add_mul, Nat.one_mul]
        omega

/-! ## Cycles -/

/-- A directed cycle. -/
def HasCycle (graph : Graph α) : Prop := ∃ a, TransGen graph.Adj a a

/-- What the colours tell: the colours cover the nodes and exclude each other, and no walk leads
from a black node back to it, or to a node that is not black. -/
structure Colours.Sound (graph : Graph α) (colours : Colours α) : Prop where
  cover : ∀ a ∈ graph.keys, a ∈ colours.white ∨ a ∈ colours.gray ∨ a ∈ colours.black
  white_gray : ∀ a ∈ colours.white, a ∉ colours.gray
  white_black : ∀ a ∈ colours.white, a ∉ colours.black
  gray_black : ∀ a ∈ colours.gray, a ∉ colours.black
  closed : ∀ a ∈ colours.black, ∀ b, graph.Adj a b → b ∈ graph.keys → b ∈ colours.black
  acyclic : ∀ a ∈ colours.black, ¬TransGen graph.Adj a a

/-- What a visit that finds no cycle leaves behind: some more nodes are black. -/
structure Colours.Advance (graph : Graph α) (before after : Colours α) : Prop where
  sound : after.Sound graph
  white : after.white ⊆ before.white
  gray : after.gray = before.gray
  black : before.black ⊆ after.black

theorem Colours.Advance.refl {colours : Colours α} (h : colours.Sound graph) :
    colours.Advance graph colours :=
  ⟨h, Finset.Subset.refl _, rfl, Finset.Subset.refl _⟩

theorem Colours.Advance.trans {before between after : Colours α}
    (h : before.Advance graph between) (h' : between.Advance graph after) :
    before.Advance graph after :=
  ⟨h'.sound, h'.white.trans h.white, h'.gray.trans h.gray, h.black.trans h'.black⟩

/-- A walk from a black node stays among black nodes, as long as it meets nodes of the graph. -/
theorem Colours.Sound.mem_black {colours : Colours α} (h : colours.Sound graph) {a b : α}
    (ha : a ∈ colours.black) (hab : TransGen graph.Adj a b) (hb : b ∈ graph.keys) :
    b ∈ colours.black := by
  induction hab with
  | single hstep => exact h.closed _ ha _ hstep hb
  | tail _ hstep ih => exact h.closed _ (ih (Dict.mem_keys_of_adj hstep)) _ hstep hb

/-- A node that is being visited. -/
theorem Colours.Sound.enter {colours : Colours α} (h : colours.Sound graph) {node : α}
    (hnode : node ∈ colours.white) :
    Colours.Sound graph { colours with
      white := colours.white.erase node, gray := insert node colours.gray } := by
  constructor
  · intro a ha
    rcases h.cover a ha with hwhite | hgray | hblack
    · by_cases hane : a = node
      · exact Or.inr (Or.inl (hane ▸ Finset.mem_insert_self _ _))
      · exact Or.inl (Finset.mem_erase.mpr ⟨hane, hwhite⟩)
    · exact Or.inr (Or.inl (Finset.mem_insert_of_mem hgray))
    · exact Or.inr (Or.inr hblack)
  · intro a ha hgray
    obtain ⟨hane, hwhite⟩ := Finset.mem_erase.mp ha
    rcases Finset.mem_insert.mp hgray with heq | hgray
    · exact hane heq
    · exact h.white_gray a hwhite hgray
  · exact fun a ha => h.white_black a (Finset.mem_of_mem_erase ha)
  · intro a ha
    rcases Finset.mem_insert.mp ha with rfl | hgray
    · exact h.white_black a hnode
    · exact h.gray_black a hgray
  · exact h.closed
  · exact h.acyclic

/-- A node whose visit is over: what is behind it is black. -/
theorem Colours.Sound.leave {colours : Colours α} (h : colours.Sound graph) {node : α}
    (hnode : node ∈ colours.gray)
    (hbehind : ∀ b, graph.Adj node b → b ∈ graph.keys → b ∈ colours.black) :
    Colours.Sound graph { colours with
      gray := colours.gray.erase node, black := insert node colours.black } := by
  constructor
  · intro a ha
    rcases h.cover a ha with hwhite | hgray | hblack
    · exact Or.inl hwhite
    · by_cases hane : a = node
      · exact Or.inr (Or.inr (hane ▸ Finset.mem_insert_self _ _))
      · exact Or.inr (Or.inl (Finset.mem_erase.mpr ⟨hane, hgray⟩))
    · exact Or.inr (Or.inr (Finset.mem_insert_of_mem hblack))
  · exact fun a ha hgray => h.white_gray a ha (Finset.mem_of_mem_erase hgray)
  · intro a ha hblack
    rcases Finset.mem_insert.mp hblack with rfl | hblack
    · exact h.white_gray a ha hnode
    · exact h.white_black a ha hblack
  · intro a ha hblack
    obtain ⟨hane, hgray⟩ := Finset.mem_erase.mp ha
    rcases Finset.mem_insert.mp hblack with heq | hblack
    · exact hane heq
    · exact h.gray_black a hgray hblack
  · intro a ha b hab hb
    rcases Finset.mem_insert.mp ha with rfl | hblack
    · exact Finset.mem_insert_of_mem (hbehind b hab hb)
    · exact Finset.mem_insert_of_mem (h.closed a hblack b hab hb)
  · intro a ha hcycle
    rcases Finset.mem_insert.mp ha with rfl | hblack
    · -- a cycle through the node would come back to it from a black node
      have hkey : ∀ {b}, TransGen graph.Adj b a → b ∈ graph.keys := fun hba => by
        obtain ⟨_, hstep, -⟩ := TransGen.head'_iff.mp hba
        exact Dict.mem_keys_of_adj hstep
      obtain ⟨b, hstep, hback⟩ := TransGen.head'_iff.mp hcycle
      have hblack : b ∈ colours.black := by
        rcases reflTransGen_iff_eq_or_transGen.mp hback with rfl | hback
        · exact hbehind _ hstep (hkey hcycle)
        · exact hbehind b hstep (hkey hback)
      rcases reflTransGen_iff_eq_or_transGen.mp hback with rfl | hback
      · exact h.gray_black _ hnode hblack
      · exact h.gray_black _ hnode (h.mem_black hblack hback (hkey hcycle))
    · exact h.acyclic a hblack hcycle

/-- What a visit of nodes behind `current` comes to: a cycle, or more black nodes, among them the
nodes visited. -/
def VisitSpec (graph : Graph α) (colours : Colours α) (visited : List α)
    (outcome : Option (Bool × Colours α)) : Prop :=
  (∃ after, outcome = some (true, after) ∧ HasCycle graph) ∨
    ∃ after, outcome = some (false, after) ∧ colours.Advance graph after ∧
      ∀ a ∈ visited, a ∈ graph.keys → a ∈ after.black

/-- Looking at the nodes behind a node, if every visit does what it should. -/
theorem scanSuccessors_spec {visit : α → Colours α → Option (Bool × Colours α)} {bound : ℕ}
    {current : α}
    (hvisit : ∀ (colours : Colours α) (node : α), colours.Sound graph → node ∈ colours.white →
      colours.white.card ≤ bound → (∀ a ∈ colours.gray, ReflTransGen graph.Adj a node) →
      VisitSpec graph colours [node] (visit node colours))
    {successors : List α} (hsuccessors : ∀ a ∈ successors, graph.Adj current a)
    {colours : Colours α} (hsound : colours.Sound graph) (hbound : colours.white.card ≤ bound)
    (hgray : ∀ a ∈ colours.gray, ReflTransGen graph.Adj a current) :
    VisitSpec graph colours successors (scanSuccessors visit successors colours) := by
  induction successors generalizing colours with
  | nil => exact Or.inr ⟨colours, rfl, .refl hsound, by simp⟩
  | cons nxt rest ih =>
      have hadj := hsuccessors nxt List.mem_cons_self
      have hrest : ∀ a ∈ rest, graph.Adj current a := fun a ha =>
        hsuccessors a (List.mem_cons_of_mem _ ha)
      -- the rest, once the first node is black or outside the graph
      have hgo : ∀ {between : Colours α}, colours.Advance graph between →
          (nxt ∈ graph.keys → nxt ∈ between.black) →
          VisitSpec graph colours (nxt :: rest) (scanSuccessors visit rest between) := by
        intro between hadvance hfirst
        rcases ih hrest hadvance.sound ((Finset.card_le_card hadvance.white).trans hbound)
            (by rwa [hadvance.gray]) with hcycle | ⟨after, hafter, hadvance', hblack⟩
        · exact Or.inl hcycle
        · refine Or.inr ⟨after, hafter, hadvance.trans hadvance', ?_⟩
          intro a ha hkey
          rcases List.mem_cons.mp ha with rfl | ha
          · exact hadvance'.black (hfirst hkey)
          · exact hblack a ha hkey
      rw [scanSuccessors]
      by_cases hblack : nxt ∈ colours.black
      · rw [if_pos hblack]
        exact hgo (.refl hsound) fun _ => hblack
      rw [if_neg hblack]
      by_cases hback : nxt ∈ colours.gray
      · rw [if_pos hback]
        exact Or.inl ⟨colours, rfl, nxt, TransGen.tail' (hgray nxt hback) hadj⟩
      rw [if_neg hback]
      by_cases hwhite : nxt ∈ colours.white
      · rw [if_pos hwhite]
        rcases hvisit colours nxt hsound hwhite hbound fun a ha => (hgray a ha).tail hadj with
          ⟨after, hafter, hcycle⟩ | ⟨after, hafter, hadvance, hvisited⟩
        · exact Or.inl ⟨after, by rw [hafter], hcycle⟩
        · rw [hafter]
          exact hgo hadvance (hvisited nxt List.mem_cons_self)
      · rw [if_neg hwhite]
        exact hgo (.refl hsound) fun hkey =>
          absurd (hsound.cover nxt hkey) (by simp [hblack, hback, hwhite])

/-- Visiting a node. -/
theorem visit_spec (order : SetOrder α) (graph : Graph α) {fuel : ℕ} {colours : Colours α}
    {node : α} (hsound : colours.Sound graph) (hnode : node ∈ colours.white)
    (hfuel : colours.white.card ≤ fuel)
    (hgray : ∀ a ∈ colours.gray, ReflTransGen graph.Adj a node) :
    VisitSpec graph colours [node] (visit order graph fuel node colours) := by
  induction fuel generalizing colours node with
  | zero => simp [Finset.card_eq_zero.mp (Nat.le_zero.mp hfuel)] at hnode
  | succ fuel ih =>
      have hentered := hsound.enter hnode
      have hcard : (colours.white.erase node).card ≤ fuel := by
        rw [Finset.card_erase_of_mem hnode]
        omega
      have hbehind : ∀ a ∈ order.list [node] (graph.successors node), graph.Adj node a :=
        fun a ha => (order.mem_list _ _ _).mp ha
      -- the node is grey while its successors are scanned, and every grey node leads to them
      have hscan := scanSuccessors_spec (fun _ _ hsound hnode hfuel hgray =>
        ih hsound hnode hfuel hgray) hbehind hentered hcard (by
          intro a ha
          rcases Finset.mem_insert.mp ha with rfl | ha
          · exact .refl
          · exact hgray a ha)
      rw [visit]
      rcases hscan with ⟨after, hafter, hcycle⟩ | ⟨after, hafter, hadvance, hvisited⟩
      · exact Or.inl ⟨after, by simp only [hafter], hcycle⟩
      · have hgrayAfter : after.gray = insert node colours.gray := hadvance.gray
        have hleft := hadvance.sound.leave (hgrayAfter ▸ Finset.mem_insert_self _ _)
          fun b hadj hkey => hvisited b ((order.mem_list _ _ _).mpr hadj) hkey
        refine Or.inr ⟨_, by simp only [hafter], ⟨hleft, ?_, ?_, ?_⟩, ?_⟩
        · exact hadvance.white.trans (Finset.erase_subset _ _)
        · show after.gray.erase node = colours.gray
          rw [hgrayAfter, Finset.erase_insert (hsound.white_gray node hnode)]
        · exact hadvance.black.trans (Finset.subset_insert _ _)
        · intro a ha _
          rw [List.mem_singleton.mp ha]
          exact Finset.mem_insert_self _ _

/-- `hasCycle` tells whether there is a directed cycle. -/
theorem hasCycle_spec (order : SetOrder α) (graph : Graph α) :
    ∀ᶠ fuel in Filter.atTop, ∃ found, hasCycle order fuel graph = some found ∧
      (found = true ↔ HasCycle graph) := by
  refine (Filter.eventually_gt_atTop graph.keys.toFinset.card).mono fun fuel hfuel => ?_
  -- between two visits nothing is gray, and no more nodes are white than at the start
  refine Loop.run_of_measure (fun colours => colours.Sound graph ∧ colours.gray = ∅ ∧
    colours.white ⊆ graph.keys.toFinset) _ (fun colours => colours.white.card) ?_ ?_ hfuel
  · rintro colours ⟨hsound, hgray, hkeys⟩
    cases hlist : order.list [] colours.white with
    | nil =>
        refine Or.inl ⟨false, by simp [cycleStep, hlist], by simp, ?_⟩
        rintro ⟨a, hcycle⟩
        obtain ⟨_, hstep, -⟩ := TransGen.head'_iff.mp hcycle
        have hnone : a ∉ colours.white := by
          rw [← order.mem_list [], hlist]
          exact List.not_mem_nil
        have hblack := hsound.cover a (Dict.mem_keys_of_adj hstep)
        rw [hgray] at hblack
        exact absurd hcycle (hsound.acyclic a (by simpa [hnone] using hblack))
    | cons node rest =>
        have hnode : node ∈ colours.white := by
          rw [← order.mem_list [], hlist]
          exact List.mem_cons_self
        have hcard : colours.white.card ≤ fuel := (Finset.card_le_card hkeys).trans hfuel.le
        rcases visit_spec order graph hsound hnode hcard (by simp [hgray]) with
          ⟨after, hafter, hcycle⟩ | ⟨after, hafter, hadvance, hvisited⟩
        · exact Or.inl ⟨true, by simp [cycleStep, hlist, hafter], by simpa using hcycle⟩
        · refine Or.inr ⟨after, by simp [cycleStep, hlist, hafter], ⟨hadvance.sound,
            hadvance.gray.trans hgray, hadvance.white.trans hkeys⟩, ?_⟩
          have hblack := hvisited node List.mem_cons_self (List.mem_toFinset.mp (hkeys hnode))
          refine Finset.card_lt_card ((Finset.ssubset_iff_of_subset hadvance.white).mpr
            ⟨node, hnode, fun hwhite => hadvance.sound.white_black node hwhite hblack⟩)
  · exact ⟨⟨by simp, by simp, by simp, by simp, by simp, by simp⟩, rfl, Finset.Subset.refl _⟩

/-! ## The other searches end -/

/-- `connected_components` ends. -/
theorem connectedComponents_isSome (order : SetOrder α) (nodes : List α) (edges : List (α × α)) :
    ∀ᶠ fuel in Filter.atTop, ∃ components,
      connectedComponents order fuel nodes edges = some components := by
  let graph := adjacency nodes edges false
  have hall : ∀ᶠ fuel in Filter.atTop, ∀ start ∈ graph.keys.toFinset, ∃ seen,
      reachable (order.within start) fuel graph start = some seen ∧
        ∀ a, a ∈ seen ↔ ReflTransGen graph.Adj start a :=
    (Filter.eventually_all_finset _).mpr fun start _ => reachable_spec (order.within start) graph start
  refine (hall.and (Filter.eventually_gt_atTop graph.keys.toFinset.card)).mono
    fun fuel ⟨hreachable, hfuel⟩ => ?_
  refine Loop.exists_run_eq_some (fun state => state.1 ⊆ graph.keys.toFinset)
    (fun state => state.1.card) ?_ (Finset.Subset.refl _) hfuel
  rintro ⟨remaining, components⟩ hremaining
  cases hlist : order.list [] remaining with
  | nil => exact Or.inl ⟨components, by simp [componentsStep, hlist]⟩
  | cons start rest =>
      have hstart : start ∈ remaining := by
        rw [← order.mem_list [], hlist]
        exact List.mem_cons_self
      obtain ⟨component, hcomponent, hmem⟩ := hreachable start (hremaining hstart)
      have hstep : componentsStep order fuel graph (remaining, components) =
          some (.inl (remaining \ component, components ++ [component])) := by
        simp [componentsStep, hlist, hcomponent]
      refine Or.inr ⟨_, hstep, Finset.sdiff_subset.trans hremaining, ?_⟩
      -- a component has the node that it was started from
      refine Finset.card_lt_card ((Finset.ssubset_iff_of_subset Finset.sdiff_subset).mpr
        ⟨start, hstart, fun hmiss => ?_⟩)
      exact (Finset.mem_sdiff.mp hmiss).2 ((hmem start).mpr .refl)

/-- Queueing the nodes behind a node takes as many off the nodes that have not been seen. -/
theorem card_add_length_shortestPath {nodes : Finset α} {path successors : List α}
    (hsuccessors : ∀ a ∈ successors, a ∈ nodes) (state : List (α × List α) × Finset α) :
    let state' := successors.foldl (fun state nxt =>
      if nxt ∈ state.2 then state
      else (state.1 ++ [(nxt, path ++ [nxt])], insert nxt state.2)) state
    (nodes \ state'.2).card + state'.1.length = (nodes \ state.2).card + state.1.length := by
  induction successors generalizing state with
  | nil => rfl
  | cons nxt rest ih =>
      dsimp only
      rw [List.foldl_cons]
      refine (ih (fun a ha => hsuccessors a (List.mem_cons_of_mem _ ha)) _).trans ?_
      by_cases hseen : nxt ∈ state.2
      · rw [if_pos hseen]
      · rw [if_neg hseen, List.length_append, Finset.sdiff_insert]
        have hcard := Finset.card_erase_add_one
          (Finset.mem_sdiff.mpr ⟨hsuccessors nxt List.mem_cons_self, hseen⟩)
        simp only [List.length_singleton]
        omega

/-- `shortest_path` ends. -/
theorem shortestPath_isSome (order : SetOrder α) (graph : Graph α) (source target : α) :
    ∀ᶠ fuel in Filter.atTop, ∃ path, shortestPath order fuel graph source target = some path := by
  let measure (state : List (α × List α) × Finset α) : ℕ :=
    (graph.nodes \ state.2).card + state.1.length
  refine (Filter.eventually_gt_atTop (measure ([(source, [source])], {source}))).mono
    fun fuel hfuel => ?_
  refine Loop.exists_run_eq_some (fun _ => True) measure ?_ trivial hfuel
  rintro ⟨queue, seen⟩ -
  cases queue with
  | nil => exact Or.inl ⟨none, rfl⟩
  | cons entry queue =>
      obtain ⟨node, path⟩ := entry
      by_cases htarget : node = target
      · exact Or.inl ⟨some path, by simp [shortestPathStep, htarget]⟩
      · refine Or.inr ⟨_, by simp only [shortestPathStep, if_neg htarget]; rfl, trivial, ?_⟩
        have hbehind : ∀ a ∈ order.list [node] (graph.successors node), a ∈ graph.nodes := fun a ha =>
          Dict.successors_subset_nodes graph node ((order.mem_list _ _ _).mp ha)
        have hcount := @card_add_length_shortestPath _ _ _ path _ hbehind (queue, seen)
        dsimp only [measure] at hcount ⊢
        rw [hcount, List.length_cons]
        omega

/-- How many nodes a search for simple paths can still take off the stack before it is done with an
entry that leaves `k` nodes to be seen. -/
def pathWeight : ℕ → ℕ
  | 0 => 1
  | k + 1 => 1 + (k + 1) * pathWeight k

/-- How many it can still take off the stack. -/
def stackWeight (nodes : Finset α) (stack : List (α × Finset α)) : ℕ :=
  (stack.map fun entry => pathWeight (nodes \ entry.2).card).sum

/-- The entries for the nodes behind a node weigh less than the node's own. -/
theorem stackWeight_foldl {nodes seen : Finset α} {successors : List α} (hnodup : successors.Nodup)
    (hsuccessors : ∀ a ∈ successors, a ∈ nodes ∧ a ∉ seen) (stack : List (α × Finset α)) :
    stackWeight nodes (successors.foldl (fun stack nxt => (nxt, insert nxt seen) :: stack) stack) <
      pathWeight (nodes \ seen).card + stackWeight nodes stack := by
  -- each successor is one of the nodes that the path has not seen
  have hcard : successors.length ≤ (nodes \ seen).card := by
    rw [← List.toFinset_card_of_nodup hnodup]
    refine Finset.card_le_card fun a ha => ?_
    exact Finset.mem_sdiff.mpr (hsuccessors a (List.mem_toFinset.mp ha))
  have hsum : stackWeight nodes
        (successors.foldl (fun stack nxt => (nxt, insert nxt seen) :: stack) stack) =
      successors.length * pathWeight ((nodes \ seen).card - 1) + stackWeight nodes stack := by
    clear hcard hnodup
    induction successors generalizing stack with
    | nil => simp
    | cons nxt rest ih =>
        have hfirst := hsuccessors nxt List.mem_cons_self
        have hone : (nodes \ insert nxt seen).card = (nodes \ seen).card - 1 := by
          rw [Finset.sdiff_insert, Finset.card_erase_of_mem (Finset.mem_sdiff.mpr hfirst)]
        rw [List.foldl_cons, ih fun a ha => hsuccessors a (List.mem_cons_of_mem _ ha)]
        simp only [stackWeight, List.map_cons, List.sum_cons, hone, List.length_cons, Nat.add_mul]
        omega
  rw [hsum]
  cases hk : (nodes \ seen).card with
  | zero =>
      have hnone : successors.length = 0 := by omega
      simp [hnone, pathWeight]
  | succ k =>
      have hle := Nat.mul_le_mul_right (pathWeight k) (hk ▸ hcard)
      rw [Nat.add_sub_cancel, pathWeight]
      omega

/-- `_simple_path_count` ends. -/
theorem simplePathCount_isSome (order : SetOrder α) (graph : Graph α) (source sink : α)
    (limit : ℕ) : ∀ᶠ fuel in Filter.atTop, ∃ count,
      simplePathCount order fuel graph source sink limit = some count := by
  refine (Filter.eventually_gt_atTop (stackWeight graph.nodes [(source, {source})])).mono
    fun fuel hfuel => ?_
  refine Loop.exists_run_eq_some (fun _ => True) (fun state => stackWeight graph.nodes state.2) ?_
    trivial hfuel
  rintro ⟨count, stack⟩ -
  cases stack with
  | nil => exact Or.inl ⟨count, rfl⟩
  | cons entry stack =>
      obtain ⟨node, seen⟩ := entry
      -- a step takes an entry from the stack and replaces it by lighter ones
      by_cases hlimit : count < limit
      · refine Or.inr ?_
        have hpositive : 0 < pathWeight (graph.nodes \ seen).card := by
          cases (graph.nodes \ seen).card with
          | zero => exact Nat.one_pos
          | succ n => exact Nat.add_pos_left Nat.one_pos _
        by_cases hsink : node = sink
        · refine ⟨(count + 1, stack), by simp [simplePathStep, hlimit, hsink], trivial, ?_⟩
          simp only [stackWeight, List.map_cons, List.sum_cons]
          omega
        · refine ⟨_, by simp only [simplePathStep, if_pos hlimit, if_neg hsink]; rfl, trivial, ?_⟩
          refine stackWeight_foldl ((order.nodup _ _).filter _) (fun a ha => ?_) stack
          obtain ⟨hmem, hnew⟩ := List.mem_filter.mp ha
          exact ⟨Dict.successors_subset_nodes graph node ((order.mem_list _ _ _).mp hmem),
            by simpa using hnew⟩
      · exact Or.inl ⟨count, by simp [simplePathStep, hlimit]⟩

end Netlab
