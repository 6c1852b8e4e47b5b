import Netlab.Prelude.DepthFirst
import Netlab.Topology.Lowpoint

/-!
# What the depth-first searches leave

While a depth-first search runs, the nodes that it has not come back from lie on a path from a root,
the `stack`. `Searching` says what holds of the others: all nodes next to them are discovered, and
their low points are final. Coming back from a node takes it off the stack (`Searched`), and on the
way what is noted depends on nothing that still changes (`Tells`). At the end the search has left a
depth-first forest (`lowpoints_spec`).
-/

namespace Netlab

open Relation

variable {α ρ : Type} [DecidableEq α] {graph : Graph α}

namespace Lowpoint

/-- The number of a node. -/
def number (state : Lowpoint α ρ) (a : α) : ℕ := (state.discovery.get? a).getD 0

/-- The lowest number that a node is known to reach. -/
def lowOf (state : Lowpoint α ρ) (a : α) : ℕ := (state.low.get? a).getD 0

/-- A node was found from another. -/
abbrev Found (state : Lowpoint α ρ) : α → α → Prop :=
  FoundFrom {a | state.Discovered a} state.parentOf

/-- Each node of a path was found from the next, and the last from none. -/
def Linked (state : Lowpoint α ρ) : List α → Prop
  | [] => True
  | a :: stack => state.parentOf a = stack.head? ∧ state.Linked stack

/-- The low point of a node, as far as the nodes `seen` next to it tell. -/
structure LowPoint (graph : Graph α) (state : Lowpoint α ρ) (seen : Set α) (c : α) : Prop where
  le_self : state.lowOf c ≤ state.number c
  le_child : ∀ d, state.Found d c → state.lowOf c ≤ state.lowOf d
  le_back : ∀ w ∈ seen, state.parentOf c ≠ some w → state.lowOf c ≤ state.number w
  attained : state.lowOf c = state.number c ∨
    (∃ d, state.Found d c ∧ state.lowOf c = state.lowOf d) ∨
      ∃ w, graph.Adj c w ∧ state.Discovered w ∧ state.parentOf c ≠ some w ∧
        state.lowOf c = state.number w

/-- What holds while a search runs that has not come back from the nodes on the stack. -/
structure Searching (graph : Graph α) (stack : List α) (state : Lowpoint α ρ) : Prop where
  tracked : state.Tracked
  number_le : ∀ a, state.Discovered a → state.number a ≤ state.counter
  inj : ∀ a b, state.Discovered a → state.Discovered b → state.number a = state.number b → a = b
  found : ∀ c p, state.Found c p →
    state.Discovered p ∧ graph.Adj p c ∧ state.number p < state.number c
  on_stack : ∀ a ∈ stack, state.Discovered a
  linked : state.Linked stack
  finished : ∀ a, state.Discovered a → a ∉ stack → ∀ b, graph.Adj a b → state.Discovered b
  below : ∀ a b, state.Discovered a → state.Discovered b → graph.Adj a b →
    state.number a < state.number b → ReflTransGen state.Found b a
  low : ∀ c, state.Discovered c → c ∉ stack → state.LowPoint graph {w | graph.Adj c w} c

/-- What a search does not change any more about the nodes that it has discovered; others get larger
numbers. -/
structure Keeps (before after : Lowpoint α ρ) : Prop where
  discovered : ∀ a, before.Discovered a → after.Discovered a
  number : ∀ a, before.Discovered a → after.number a = before.number a
  low : ∀ a, before.Discovered a → after.lowOf a = before.lowOf a
  parent : ∀ a, before.Discovered a → after.parentOf a = before.parentOf a
  counter : before.counter ≤ after.counter
  fresh : ∀ a, after.Discovered a → ¬before.Discovered a → before.counter < after.number a

theorem Keeps.refl (state : Lowpoint α ρ) : state.Keeps state :=
  ⟨fun _ h => h, fun _ _ => rfl, fun _ _ => rfl, fun _ _ => rfl, le_rfl, fun _ h h' => absurd h h'⟩

theorem Keeps.trans {before between after : Lowpoint α ρ} (h : before.Keeps between)
    (h' : between.Keeps after) : before.Keeps after where
  discovered a ha := h'.discovered a (h.discovered a ha)
  number a ha := (h'.number a (h.discovered a ha)).trans (h.number a ha)
  low a ha := (h'.low a (h.discovered a ha)).trans (h.low a ha)
  parent a ha := (h'.parent a (h.discovered a ha)).trans (h.parent a ha)
  counter := h.counter.trans h'.counter
  fresh a ha hnew := by
    by_cases hbetween : between.Discovered a
    · rw [h'.number a hbetween]
      exact h.fresh a hbetween hnew
    · exact h.counter.trans_lt (h'.fresh a ha hbetween)

theorem Keeps.found {before after : Lowpoint α ρ} (h : before.Keeps after) {c p : α}
    (hc : before.Found c p) : after.Found c p :=
  ⟨h.discovered c hc.1, (h.parent c hc.1).trans hc.2⟩

/-- A node of a path was found from a node of the path. -/
theorem Linked.mem_of_parentOf {state : Lowpoint α ρ} {stack : List α} (h : state.Linked stack)
    {a p : α} (ha : a ∈ stack) (hp : state.parentOf a = some p) : p ∈ stack := by
  induction stack with
  | nil => cases ha
  | cons b stack ih =>
      obtain ⟨hb, hstack⟩ := h
      rcases List.mem_cons.mp ha with rfl | ha
      · exact List.mem_cons_of_mem _ (List.mem_of_head? (hb.symm.trans hp))
      · exact List.mem_cons_of_mem _ (ih hstack ha)

/-- A path depends on nothing but where its nodes were found. -/
theorem Linked.congr {before after : Lowpoint α ρ} {stack : List α} (h : before.Linked stack)
    (hparent : ∀ a ∈ stack, after.parentOf a = before.parentOf a) : after.Linked stack := by
  induction stack with
  | nil => trivial
  | cons a stack ih =>
      exact ⟨(hparent a List.mem_cons_self).trans h.1,
        ih h.2 fun b hb => hparent b (List.mem_cons_of_mem _ hb)⟩

/-- All nodes of a path are above its first. -/
theorem Linked.above {state : Lowpoint α ρ} {stack : List α} (h : state.Linked stack)
    (hstack : ∀ a ∈ stack, state.Discovered a) {top a : α} (htop : stack.head? = some top)
    (ha : a ∈ stack) : ReflTransGen state.Found top a := by
  induction stack generalizing top with
  | nil => cases ha
  | cons b stack ih =>
      obtain rfl : b = top := Option.some.inj htop
      rcases List.mem_cons.mp ha with rfl | ha
      · exact .refl
      · obtain ⟨next, hnext⟩ : ∃ next, stack.head? = some next := by
          cases stack with
          | nil => cases ha
          | cons next rest => exact ⟨next, rfl⟩
        exact (ih h.2 (fun c hc => hstack c (List.mem_cons_of_mem _ hc)) hnext ha).head
          ⟨hstack b List.mem_cons_self, h.1.trans hnext⟩

/-- A low point depends on nothing but what is known about the node, its children, and the nodes
seen. -/
theorem LowPoint.congr {before after : Lowpoint α ρ} {seen : Set α} {c : α}
    (h : before.LowPoint graph seen c) (hnumber : after.number c = before.number c)
    (hlow : after.lowOf c = before.lowOf c) (hparent : after.parentOf c = before.parentOf c)
    (hfound : ∀ d, after.Found d c ↔ before.Found d c)
    (hchild : ∀ d, before.Found d c → after.lowOf d = before.lowOf d)
    (hnode : ∀ w, before.Discovered w → after.Discovered w ∧ after.number w = before.number w)
    (hseen : ∀ w ∈ seen, before.Discovered w) : after.LowPoint graph seen c := by
  constructor
  · rw [hlow, hnumber]
    exact h.le_self
  · intro d hd
    have hd := (hfound d).mp hd
    rw [hlow, hchild d hd]
    exact h.le_child d hd
  · intro w hw hback
    rw [hlow, (hnode w (hseen w hw)).2]
    exact h.le_back w hw (hparent ▸ hback)
  · rw [hlow, hnumber, hparent]
    rcases h.attained with heq | ⟨d, hd, heq⟩ | ⟨w, hadj, hw, hback, heq⟩
    · exact Or.inl heq
    · exact Or.inr (Or.inl ⟨d, (hfound d).mpr hd, by rw [hchild d hd, heq]⟩)
    · exact Or.inr (Or.inr ⟨w, hadj, (hnode w hw).1, hback, by rw [(hnode w hw).2, heq]⟩)

/-- What changes nothing but low points on the stack, and nothing about discovered nodes, does not
disturb a search. -/
theorem Searching.congr {before after : Lowpoint α ρ} {stack : List α}
    (h : before.Searching graph stack) (hdiscovery : after.discovery = before.discovery)
    (hcounter : after.counter = before.counter) (htracked : after.Tracked)
    (hparent : ∀ a, before.Discovered a → after.parentOf a = before.parentOf a)
    (hlow : ∀ a, before.Discovered a → a ∉ stack → after.lowOf a = before.lowOf a) :
    after.Searching graph stack := by
  have hdiscovered : ∀ a, after.Discovered a ↔ before.Discovered a := fun a => by
    rw [Discovered, Discovered, hdiscovery]
  have hnumber : ∀ a, after.number a = before.number a := fun a => by
    rw [number, number, hdiscovery]
  have hfound : ∀ c p, after.Found c p ↔ before.Found c p := fun c p => by
    refine and_congr (hdiscovered c) Iff.rfl |>.trans (and_congr_right fun hc => ?_)
    rw [hparent c hc]
  constructor
  · exact htracked
  · intro a ha
    rw [hnumber, hcounter]
    exact h.number_le a ((hdiscovered a).mp ha)
  · intro a b ha hb hab
    rw [hnumber, hnumber] at hab
    exact h.inj a b ((hdiscovered a).mp ha) ((hdiscovered b).mp hb) hab
  · intro c p hc
    rw [hdiscovered, hnumber, hnumber]
    exact h.found c p ((hfound c p).mp hc)
  · exact fun a ha => (hdiscovered a).mpr (h.on_stack a ha)
  · exact h.linked.congr fun a ha => hparent a (h.on_stack a ha)
  · intro a ha hstack b hab
    exact (hdiscovered b).mpr (h.finished a ((hdiscovered a).mp ha) hstack b hab)
  · intro a b ha hb hab hlt
    rw [hnumber, hnumber] at hlt
    exact ReflTransGen.mono (fun c p hc => (hfound c p).mpr hc) _ _
      (h.below a b ((hdiscovered a).mp ha) ((hdiscovered b).mp hb) hab hlt)
  · intro c hc hstack
    have hc := (hdiscovered c).mp hc
    refine (h.low c hc hstack).congr (hnumber c) (hlow c hc hstack) (hparent c hc)
      (fun d => hfound d c) (fun d hd => hlow d hd.1 fun hmem => ?_)
      (fun w hw => ⟨(hdiscovered w).mpr hw, hnumber w⟩) fun w hw => h.finished c hc hstack w hw
    -- a child of a node that is finished is finished
    exact hstack (h.linked.mem_of_parentOf hmem hd.2)

/-- A node is entered that has just been found from the top of the stack, or from none. -/
structure Entering (graph : Graph α) (stack : List α) (node : α) (state : Lowpoint α ρ) : Prop where
  searching : state.Searching graph stack
  new : ¬state.Discovered node
  parent : state.parentOf node = stack.head?
  adj : ∀ p ∈ stack.head?, graph.Adj p node

theorem number_discover (state : Lowpoint α ρ) (node a : α) :
    (state.discover node).number a = if a = node then state.counter + 1 else state.number a := by
  rw [number, discover, Dict.get?_set]
  split <;> rfl

theorem lowOf_discover (state : Lowpoint α ρ) (node a : α) :
    (state.discover node).lowOf a = if a = node then state.counter + 1 else state.lowOf a := by
  rw [lowOf, discover, Dict.get?_set]
  split <;> rfl

/-- Numbering a node changes nothing about those that are discovered. -/
theorem keeps_discover {state : Lowpoint α ρ} {node : α} (hnew : ¬state.Discovered node) :
    state.Keeps (state.discover node) := by
  have hne : ∀ a, state.Discovered a → a ≠ node := fun a ha heq => hnew (heq ▸ ha)
  constructor
  · exact fun a ha => discovered_discover.mpr (Or.inl ha)
  · exact fun a ha => by rw [number_discover, if_neg (hne a ha)]
  · exact fun a ha => by rw [lowOf_discover, if_neg (hne a ha)]
  · exact fun a _ => rfl
  · exact Nat.le_succ _
  · intro a ha hold
    obtain rfl := (discovered_discover.mp ha).resolve_left hold
    rw [number_discover, if_pos rfl]
    exact Nat.lt_succ_self _

/-- A node that is entered goes on the stack. -/
theorem Entering.discover {state : Lowpoint α ρ} {stack : List α} {node : α}
    (h : state.Entering graph stack node) :
    (state.discover node).Searching graph (node :: stack) := by
  have hsearching := h.searching
  have hkeeps := keeps_discover h.new
  have hold : ∀ {a}, (state.discover node).Discovered a → a ≠ node → state.Discovered a :=
    fun ha hne => (discovered_discover.mp ha).resolve_right hne
  have hnode : (state.discover node).number node = state.counter + 1 := by
    rw [number_discover, if_pos rfl]
  have hlt : ∀ {a}, state.Discovered a →
      (state.discover node).number a < (state.discover node).number node := fun {a} ha => by
    rw [hkeeps.number a ha, hnode]
    exact Nat.lt_succ_of_le (hsearching.number_le a ha)
  -- the node was found from the top of the stack
  have htop : ∀ {p}, (state.discover node).parentOf node = some p → p ∈ stack ∧ graph.Adj p node :=
    fun {p} hp => by
      have hhead : stack.head? = some p := h.parent.symm.trans hp
      exact ⟨List.mem_of_head? hhead, h.adj p hhead⟩
  constructor
  · exact hsearching.tracked.discover node
  · intro a ha
    by_cases hane : a = node
    · rw [hane, hnode]
      rfl
    · rw [hkeeps.number a (hold ha hane)]
      exact (hsearching.number_le a (hold ha hane)).trans (Nat.le_succ _)
  · intro a b ha hb hab
    by_cases hane : a = node
    · by_cases hbne : b = node
      · rw [hane, hbne]
      · rw [hane] at hab
        exact absurd hab (hlt (hold hb hbne)).ne'
    · by_cases hbne : b = node
      · rw [hbne] at hab
        exact absurd hab (hlt (hold ha hane)).ne
      · rw [hkeeps.number a (hold ha hane), hkeeps.number b (hold hb hbne)] at hab
        exact hsearching.inj a b (hold ha hane) (hold hb hbne) hab
  · rintro c p ⟨hc, hp⟩
    by_cases hcne : c = node
    · obtain rfl := hcne
      obtain ⟨hmem, hadj⟩ := htop hp
      have hpold := hsearching.on_stack p hmem
      exact ⟨hkeeps.discovered p hpold, hadj, hlt hpold⟩
    · obtain ⟨hpold, hadj, hnumber⟩ := hsearching.found c p ⟨hold hc hcne, hp⟩
      refine ⟨hkeeps.discovered p hpold, hadj, ?_⟩
      rwa [hkeeps.number p hpold, hkeeps.number c (hold hc hcne)]
  · intro a ha
    rcases List.mem_cons.mp ha with rfl | ha
    · exact discovered_discover.mpr (Or.inr rfl)
    · exact hkeeps.discovered a (hsearching.on_stack a ha)
  · exact ⟨h.parent, hsearching.linked.congr fun a _ => rfl⟩
  · intro a ha hstack b hab
    obtain ⟨hane, hstack⟩ := not_or.mp (List.mem_cons.not.mp hstack)
    exact hkeeps.discovered b (hsearching.finished a (hold ha hane) hstack b hab)
  · intro a b ha hb hab hnumber
    by_cases hbne : b = node
    · -- an edge to the new node comes from the stack, as what is finished has no new neighbours
      obtain rfl := hbne
      have hane : a ≠ b := by
        rintro rfl
        exact absurd hnumber (lt_irrefl _)
      have hstack : a ∈ stack := by
        by_contra hfinished
        exact h.new (hsearching.finished a (hold ha hane) hfinished b hab)
      obtain ⟨top, htop⟩ : ∃ top, stack.head? = some top := by
        cases stack with
        | nil => cases hstack
        | cons top rest => exact ⟨top, rfl⟩
      have hup := hsearching.linked.above hsearching.on_stack htop hstack
      exact (ReflTransGen.mono (fun c p hc => hkeeps.found hc) _ _ hup).head
        ⟨hb, h.parent.trans htop⟩
    · have hane : a ≠ node := by
        rintro rfl
        exact absurd (hlt (hold hb hbne)) (not_lt.mpr hnumber.le)
      rw [hkeeps.number a (hold ha hane), hkeeps.number b (hold hb hbne)] at hnumber
      exact ReflTransGen.mono (fun c p hc => hkeeps.found hc) _ _
        (hsearching.below a b (hold ha hane) (hold hb hbne) hab hnumber)
  · intro c hc hstack
    obtain ⟨hcne, hoff⟩ := not_or.mp (List.mem_cons.not.mp hstack)
    have hc := hold hc hcne
    refine (hsearching.low c hc hoff).congr (hkeeps.number c hc) (hkeeps.low c hc) rfl
      (fun d => ⟨fun hd => ?_, hkeeps.found⟩) (fun d hd => hkeeps.low d hd.1)
      (fun w hw => ⟨hkeeps.discovered w hw, hkeeps.number w hw⟩)
      fun w hw => hsearching.finished c hc hoff w hw
    refine ⟨hold hd.1 ?_, hd.2⟩
    rintro rfl
    exact hoff (htop hd.2).1

/-! ## What is noted -/

/-- What is noted about the way back from a node to the node that it was found from, by where the
latter was found, its number, the former's low point, and whether it had other children before. -/
abbrev Rule (α ρ : Type) := Option α → ℕ → ℕ → Prop → α → α → ρ → Prop

/-- What a rule notes about a node and the node that it was found from. -/
def Tells (rule : Rule α ρ) (state : Lowpoint α ρ) (p c : α) (x : ρ) : Prop :=
  rule (state.parentOf p) (state.number p) (state.lowOf c)
    (∃ d, state.Found d p ∧ state.number d < state.number c) p c x

/-- What a rule notes about a node that the search has come back from does not change any more. -/
theorem Keeps.tells_iff {rule : Rule α ρ} {before after : Lowpoint α ρ} {stack : List α}
    (h : before.Keeps after) (hsearching : before.Searching graph stack) {p c : α}
    (hc : before.Found c p) (x : ρ) : after.Tells rule p c x ↔ before.Tells rule p c x := by
  have hp := (hsearching.found c p hc).1
  have hmany : (∃ d, after.Found d p ∧ after.number d < after.number c) ↔
      ∃ d, before.Found d p ∧ before.number d < before.number c := by
    constructor
    · rintro ⟨d, hd, hlt⟩
      rw [h.number c hc.1] at hlt
      by_cases hold : before.Discovered d
      · refine ⟨d, ⟨hold, (h.parent d hold).symm.trans hd.2⟩, ?_⟩
        rwa [← h.number d hold]
      · have hfresh := h.fresh d hd.1 hold
        have hle := hsearching.number_le c hc.1
        omega
    · rintro ⟨d, hd, hlt⟩
      exact ⟨d, h.found hd, by rwa [h.number d hd.1, h.number c hc.1]⟩
  rw [Tells, Tells, h.parent p hp, h.number p hp, h.low c hc.1, propext hmany]

/-- What a search has noted since a state, about the nodes that it has come back from but one. -/
def NotedSince (rule : Rule α ρ) (before : Lowpoint α ρ) (node : α) (after : Lowpoint α ρ) : Prop :=
  ∀ x, x ∈ after.noted ↔ x ∈ before.noted ∨
    ∃ c p, after.Found c p ∧ ¬before.Discovered c ∧ c ≠ node ∧ after.Tells rule p c x

/-- A search that has come back from a node. -/
structure Searched (graph : Graph α) (rule : Rule α ρ) (stack : List α) (node : α)
    (before after : Lowpoint α ρ) : Prop where
  searching : after.Searching graph stack
  discovered : after.Discovered node
  keeps : before.Keeps after
  parent : after.parentOf node = before.parentOf node
  found_new : ∀ a p, after.Found a p → ¬before.Discovered a → a ≠ node → ¬before.Discovered p
  noted : NotedSince rule before node after

/-- A search that has entered a node, and has looked at some of the nodes next to it. -/
structure Scanning (graph : Graph α) (rule : Rule α ρ) (stack : List α) (node : α)
    (before : Lowpoint α ρ) (seen : List α) (children : ℕ) (state : Lowpoint α ρ) : Prop where
  searching : state.Searching graph (node :: stack)
  keeps : before.Keeps state
  parent : state.parentOf node = before.parentOf node
  found_new : ∀ a p, state.Found a p → ¬before.Discovered a → a ≠ node → ¬before.Discovered p
  noted : NotedSince rule before node state
  seen_discovered : ∀ w ∈ seen, state.Discovered w
  low : state.LowPoint graph {w | w ∈ seen} node
  children_iff : 0 < children ↔ ∃ d, state.Found d node

/-- The search has entered a node. -/
theorem Entering.scanning {state : Lowpoint α ρ} {stack : List α} {node : α}
    (h : state.Entering graph stack node) (rule : Rule α ρ) :
    Scanning graph rule stack node state [] 0 (state.discover node) := by
  have hkeeps := keeps_discover h.new
  have hold : ∀ {a}, (state.discover node).Discovered a → a ≠ node → state.Discovered a :=
    fun ha hne => (discovered_discover.mp ha).resolve_right hne
  -- a node that is just discovered is nobody's parent
  have hchildless : ∀ d, ¬(state.discover node).Found d node := by
    rintro d ⟨hd, hparent⟩
    by_cases hdn : d = node
    · have hhead : stack.head? = some node := h.parent.symm.trans (hdn ▸ hparent)
      exact h.new (h.searching.on_stack node (List.mem_of_head? hhead))
    · exact h.new (h.searching.found d node ⟨hold hd hdn, hparent⟩).1
  have hself : (state.discover node).lowOf node = (state.discover node).number node := by
    rw [number_discover, lowOf_discover, if_pos rfl, if_pos rfl]
  constructor
  · exact h.discover
  · exact hkeeps
  · rfl
  · intro a p ha hnew hne
    exact absurd (hold ha.1 hne) hnew
  · intro x
    refine ⟨Or.inl, fun hx => hx.resolve_right ?_⟩
    rintro ⟨c, p, hc, hnew, hne, -⟩
    exact hnew (hold hc.1 hne)
  · simp
  · exact ⟨hself.le, fun d hd => absurd hd (hchildless d), by simp, Or.inl hself⟩
  · simp [hchildless]

/-- The number that a node reaches is lowered, and something is noted. -/
def lowered (state : Lowpoint α ρ) (node : α) (n : ℕ) (noted : Finset ρ) : Lowpoint α ρ :=
  { state with low := state.low.set node (min (state.lowOf node) n), noted }

theorem lower_eq_some {state after : Lowpoint α ρ} {node : α} {n : ℕ}
    (h : state.lower node n = some after) :
    node ∈ state.low.keys ∧ after = state.lowered node n state.noted := by
  obtain ⟨low, hlow, h⟩ := Option.bind_eq_some_iff.mp h
  obtain rfl := Option.some.inj h
  exact ⟨Dict.mem_keys_iff.mpr ⟨low, hlow⟩, by rw [lowered, lowOf, hlow]; rfl⟩

theorem lowOf_lowered (state : Lowpoint α ρ) (node : α) (n : ℕ) (noted : Finset ρ) (a : α) :
    (state.lowered node n noted).lowOf a =
      if a = node then min (state.lowOf node) n else state.lowOf a := by
  rw [lowOf, lowered, Dict.get?_set]
  split <;> rfl

/-- The number that the top of the stack reaches can be lowered. -/
theorem Searching.lowered {state : Lowpoint α ρ} {stack : List α} {node : α}
    (h : state.Searching graph (node :: stack)) (n : ℕ) (noted : Finset ρ) :
    (state.lowered node n noted).Searching graph (node :: stack) := by
  have hkey := (h.tracked node).mpr (h.on_stack node List.mem_cons_self)
  refine h.congr rfl rfl (fun a => ?_) (fun a _ => rfl) fun a _ ha => ?_
  · refine Iff.trans ?_ (h.tracked a)
    rw [Lowpoint.lowered, Dict.keys_set_of_mem _ hkey]
  · have hne : a ≠ node := fun heq => ha (heq ▸ List.mem_cons_self)
    rw [lowOf_lowered, if_neg hne]

theorem Keeps.lowered {before state : Lowpoint α ρ} (h : before.Keeps state) {node : α}
    (hnew : ¬before.Discovered node) (n : ℕ) (noted : Finset ρ) :
    before.Keeps (state.lowered node n noted) where
  discovered := h.discovered
  number := h.number
  low a ha := by
    have hne : a ≠ node := fun heq => hnew (heq ▸ ha)
    rw [lowOf_lowered, if_neg hne]
    exact h.low a ha
  parent := h.parent
  counter := h.counter
  fresh := h.fresh

/-- One more node next to a node tells about its low point. -/
theorem LowPoint.extend {before after : Lowpoint α ρ} {node nxt : α} {seen : List α} {n : ℕ}
    (h : before.LowPoint graph {w | w ∈ seen} node)
    (hkeeps : ∀ w, before.Discovered w → after.Discovered w ∧ after.number w = before.number w)
    (hseen : ∀ w ∈ seen, before.Discovered w) (hnode : before.Discovered node)
    (hlow : after.lowOf node = min (before.lowOf node) n)
    (hparent : after.parentOf node = before.parentOf node)
    (hold : ∀ d, before.Found d node → after.Found d node ∧ after.lowOf d = before.lowOf d)
    (hall : ∀ d, after.Found d node → before.Found d node ∨ n ≤ after.lowOf d)
    (hnxt : n ≤ after.number nxt)
    (hattained : (∃ d, after.Found d node ∧ n = after.lowOf d) ∨
      ∃ w, graph.Adj node w ∧ after.Discovered w ∧ after.parentOf node ≠ some w ∧
        n = after.number w) :
    after.LowPoint graph {w | w ∈ seen ++ [nxt]} node := by
  constructor
  · rw [hlow, (hkeeps node hnode).2]
    exact (min_le_left _ _).trans h.le_self
  · intro d hd
    rw [hlow]
    rcases hall d hd with hd | hle
    · rw [(hold d hd).2]
      exact (min_le_left _ _).trans (h.le_child d hd)
    · exact (min_le_right _ _).trans hle
  · intro w hw hback
    rw [hlow]
    rcases List.mem_append.mp hw with hw | hw
    · rw [(hkeeps w (hseen w hw)).2]
      exact (min_le_left _ _).trans (h.le_back w hw (hparent ▸ hback))
    · rw [List.mem_singleton.mp hw]
      exact (min_le_right _ _).trans hnxt
  · rw [hlow]
    -- either the old bound is attained, by what attained it before, or the new one is
    rcases min_choice (before.lowOf node) n with heq | heq
    · rw [heq, (hkeeps node hnode).2, hparent]
      rcases h.attained with hself | ⟨d, hd, hself⟩ | ⟨w, hadj, hw, hback, hself⟩
      · exact Or.inl hself
      · exact Or.inr (Or.inl ⟨d, (hold d hd).1, by rw [(hold d hd).2, hself]⟩)
      · exact Or.inr (Or.inr ⟨w, hadj, (hkeeps w hw).1, hback, by rw [(hkeeps w hw).2, hself]⟩)
    · rw [heq]
      exact Or.inr hattained

/-- A node that is not on the stack or is not the parent has been discovered before: its number is
reached. -/
theorem Scanning.back {rule : Rule α ρ} {stack : List α} {node nxt : α} {before state : Lowpoint α ρ}
    {seen : List α} {children : ℕ}
    (h : Scanning graph rule stack node before seen children state)
    (hnew : ¬before.Discovered node) (hadj : graph.Adj node nxt) (hnxt : state.Discovered nxt)
    (hback : state.parentOf node ≠ some nxt) :
    Scanning graph rule stack node before (seen ++ [nxt]) children
      (state.lowered node (state.number nxt) state.noted) := by
  have hnode := h.searching.on_stack node List.mem_cons_self
  -- a node is discovered after its parent
  have hne : ∀ {c p}, state.Found c p → c ≠ p := by
    rintro c p hc rfl
    exact absurd (h.searching.found c c hc).2.2 (lt_irrefl _)
  constructor
  · exact h.searching.lowered _ _
  · exact h.keeps.lowered hnew _ _
  · exact h.parent
  · exact h.found_new
  · intro x
    refine (h.noted x).trans (or_congr_right (exists_congr fun c => exists_congr fun p => ?_))
    refine and_congr_right fun _ => and_congr_right fun _ => and_congr_right fun hc => ?_
    rw [Tells, Tells, lowOf_lowered, if_neg hc]
    rfl
  · intro w hw
    rcases List.mem_append.mp hw with hw | hw
    · exact h.seen_discovered w hw
    · rw [List.mem_singleton.mp hw]
      exact hnxt
  · refine h.low.extend (n := state.number nxt) (fun w hw => ⟨hw, rfl⟩) h.seen_discovered hnode ?_
      rfl (fun d hd => ⟨hd, ?_⟩) (fun d hd => Or.inl hd) le_rfl
      (Or.inr ⟨nxt, hadj, hnxt, hback, rfl⟩)
    · rw [lowOf_lowered, if_pos rfl]
    · rw [lowOf_lowered, if_neg (hne hd)]
  · exact h.children_iff

/-- The node that a node was found from tells nothing about its low point. -/
theorem Scanning.skip {rule : Rule α ρ} {stack : List α} {node nxt : α} {before state : Lowpoint α ρ}
    {seen : List α} {children : ℕ}
    (h : Scanning graph rule stack node before seen children state) (hnxt : state.Discovered nxt)
    (hparent : state.parentOf node = some nxt) :
    Scanning graph rule stack node before (seen ++ [nxt]) children state := by
  refine { h with seen_discovered := fun w hw => ?_, low := { h.low with le_back := ?_ } }
  · rcases List.mem_append.mp hw with hw | hw
    · exact h.seen_discovered w hw
    · rw [List.mem_singleton.mp hw]
      exact hnxt
  · intro w hw hback
    rcases List.mem_append.mp hw with hw | hw
    · exact h.low.le_back w hw hback
    · rw [List.mem_singleton.mp hw] at hback
      exact absurd hparent hback

/-- A node is about to be entered from another, or from none. -/
def adopt (state : Lowpoint α ρ) (node : α) (from? : Option α) : Lowpoint α ρ :=
  { state with parent := state.parent.set node from? }

theorem parentOf_adopt (state : Lowpoint α ρ) (node : α) (from? : Option α) (a : α) :
    (state.adopt node from?).parentOf a = if a = node then from? else state.parentOf a := by
  rw [parentOf, adopt, Dict.get?_set]
  split <;> rfl

theorem keeps_adopt {state : Lowpoint α ρ} {node : α} (hnew : ¬state.Discovered node)
    (from? : Option α) : state.Keeps (state.adopt node from?) :=
  { Keeps.refl state with
    parent := fun a ha => by
      have hne : a ≠ node := fun heq => hnew (heq ▸ ha)
      rw [parentOf_adopt, if_neg hne] }

/-- A node that has not been discovered is about to be entered. -/
theorem Searching.adopt {state : Lowpoint α ρ} {stack : List α} {node : α}
    (h : state.Searching graph stack) (hnew : ¬state.Discovered node)
    (hadj : ∀ p ∈ stack.head?, graph.Adj p node) :
    (state.adopt node stack.head?).Entering graph stack node where
  searching := h.congr rfl rfl h.tracked (keeps_adopt hnew _).parent fun _ _ _ => rfl
  new := hnew
  parent := by rw [parentOf_adopt, if_pos rfl]
  adj := hadj

/-- The search has come back from a node to the one that it was entered from. -/
theorem Scanning.child {rule : Rule α ρ} {stack : List α} {node nxt : α}
    {before state between : Lowpoint α ρ} {seen : List α} {children : ℕ} {noted : Finset ρ}
    (h : Scanning graph rule stack node before seen children state)
    (hnew : ¬before.Discovered node) (hnxt : ¬state.Discovered nxt)
    (hsearched : Searched graph rule (node :: stack) nxt (state.adopt nxt (some node)) between)
    (hnoted : ∀ x, x ∈ noted ↔ x ∈ between.noted ∨ rule (between.parentOf node)
      (between.number node) (between.lowOf nxt) (1 < children + 1) node nxt x) :
    Scanning graph rule stack node before (seen ++ [nxt]) (children + 1)
      (between.lowered node (between.lowOf nxt) noted) := by
  have hnode := h.searching.on_stack node List.mem_cons_self
  have hkeeps : state.Keeps between := (keeps_adopt hnxt _).trans hsearched.keeps
  have hne : nxt ≠ node := fun heq => hnxt (heq ▸ hnode)
  have hparent : between.parentOf nxt = some node := by
    rw [hsearched.parent, parentOf_adopt, if_pos rfl]
  have hfound : between.Found nxt node := ⟨hsearched.discovered, hparent⟩
  have hback : ∀ {c p}, between.Found c p → state.Discovered c → state.Found c p :=
    fun hc hold => ⟨hold, (hkeeps.parent _ hold).symm.trans hc.2⟩
  -- the children are those that there were, and the node that the search has come back from
  have hchildren : ∀ {d}, between.Found d node → state.Found d node ∨ d = nxt := by
    intro d hd
    by_cases hold : state.Discovered d
    · exact Or.inl (hback hd hold)
    · by_contra hnot
      exact hsearched.found_new d node hd hold (fun heq => hnot (Or.inr heq)) hnode
  have hchild : ∀ {d}, between.Found d node → d ≠ node := by
    rintro d hd rfl
    exact absurd (hsearched.searching.found d d hd).2.2 (lt_irrefl _)
  have hlow : ∀ {a}, a ≠ node →
      (between.lowered node (between.lowOf nxt) noted).lowOf a = between.lowOf a := fun ha => by
    rw [lowOf_lowered, if_neg ha]
  have hmany : (∃ d, between.Found d node ∧ between.number d < between.number nxt) ↔
      1 < children + 1 := by
    rw [Nat.lt_add_left_iff_pos, h.children_iff]
    constructor
    · rintro ⟨d, hd, hlt⟩
      rcases hchildren hd with hd | rfl
      · exact ⟨d, hd⟩
      · exact absurd hlt (lt_irrefl _)
    · rintro ⟨d, hd⟩
      refine ⟨d, hkeeps.found hd, ?_⟩
      rw [hkeeps.number d hd.1]
      exact (h.searching.number_le d hd.1).trans_lt
        (hkeeps.fresh nxt hsearched.discovered hnxt)
  have htells : ∀ {c p : α} {x : ρ}, c ≠ node →
      ((between.lowered node (between.lowOf nxt) noted).Tells rule p c x ↔
        between.Tells rule p c x) := fun hc => by
    rw [Tells, Tells, hlow hc]
    rfl
  constructor
  · exact hsearched.searching.lowered _ _
  · exact (h.keeps.trans hkeeps).lowered hnew _ _
  · exact (hkeeps.parent node hnode).trans h.parent
  · intro a p ha hold hane
    by_cases hstate : state.Discovered a
    · exact h.found_new a p (hback ha hstate) hold hane
    · by_cases hanxt : a = nxt
      · obtain rfl : node = p := Option.some.inj (hparent.symm.trans (hanxt ▸ ha.2))
        exact hnew
      · exact fun hp => hsearched.found_new a p ha hstate hanxt (h.keeps.discovered p hp)
  · intro x
    refine (hnoted x).trans ?_
    rw [hsearched.noted x]
    have hstate : x ∈ (state.adopt nxt (some node)).noted ↔ _ := h.noted x
    rw [hstate]
    constructor
    · rintro (((hx | ⟨c, p, hc, hold, hcn, hx⟩) | ⟨c, p, hc, hold, hcn, hx⟩) | hx)
      · exact Or.inl hx
      · refine Or.inr ⟨c, p, hkeeps.found hc, hold, hcn, (htells hcn).mpr ?_⟩
        exact (hkeeps.tells_iff h.searching hc x).mpr hx
      · have hcnode : c ≠ node := fun heq => hold (heq ▸ hnode)
        exact Or.inr ⟨c, p, hc, fun hbefore => hold (h.keeps.discovered c hbefore), hcnode,
          (htells hcnode).mpr hx⟩
      · refine Or.inr ⟨nxt, node, hfound, fun hbefore => hnxt (h.keeps.discovered nxt hbefore), hne,
          (htells hne).mpr ?_⟩
        rwa [Tells, propext hmany]
    · rintro (hx | ⟨c, p, hc, hold, hcn, hx⟩)
      · exact Or.inl (Or.inl (Or.inl hx))
      · have htold := (htells hcn).mp hx
        by_cases hstate : state.Discovered c
        · have hc := hback hc hstate
          exact Or.inl (Or.inl (Or.inr ⟨c, p, hc, hold, hcn,
            (hkeeps.tells_iff h.searching hc x).mp htold⟩))
        · by_cases hcnxt : c = nxt
          · obtain rfl := hcnxt
            obtain rfl : node = p := Option.some.inj (hparent.symm.trans hc.2)
            rw [Tells, propext hmany] at htold
            exact Or.inr htold
          · exact Or.inl (Or.inr ⟨c, p, hc, hstate, hcnxt, htold⟩)
  · intro w hw
    rcases List.mem_append.mp hw with hw | hw
    · exact hkeeps.discovered w (h.seen_discovered w hw)
    · rw [List.mem_singleton.mp hw]
      exact hsearched.discovered
  · refine h.low.extend (n := between.lowOf nxt)
      (fun w hw => ⟨hkeeps.discovered w hw, hkeeps.number w hw⟩) h.seen_discovered hnode ?_
      (hkeeps.parent node hnode) (fun d hd => ⟨hkeeps.found hd, ?_⟩) (fun d hd => ?_) ?_
      (Or.inl ⟨nxt, hfound, (hlow hne).symm⟩)
    · rw [lowOf_lowered, if_pos rfl, hkeeps.low node hnode]
    · rw [hlow (hchild (hkeeps.found hd)), hkeeps.low d hd.1]
    · rcases hchildren hd with hd | rfl
      · exact Or.inl hd
      · exact Or.inr (hlow hne).ge
    · refine (hsearched.searching.low nxt hsearched.discovered fun hmem => ?_).le_self
      exact hnxt (h.searching.on_stack nxt hmem)
  · exact ⟨fun _ => ⟨nxt, hfound⟩, fun _ => Nat.succ_pos _⟩

/-- A search that has looked at all nodes next to one comes back from it. -/
theorem Scanning.searched {rule : Rule α ρ} {stack : List α} {node : α}
    {before after : Lowpoint α ρ} {seen : List α} {children : ℕ}
    (h : Scanning graph rule stack node before seen children after)
    (hseen : ∀ w, w ∈ seen ↔ graph.Adj node w) : Searched graph rule stack node before after := by
  have hsearching := h.searching
  have hnode := hsearching.on_stack node List.mem_cons_self
  refine ⟨?_, hnode, h.keeps, h.parent, h.found_new, h.noted⟩
  refine { hsearching with
    on_stack := fun a ha => hsearching.on_stack a (List.mem_cons_of_mem _ ha)
    linked := hsearching.linked.2
    finished := fun a ha hstack b hab => ?_
    low := fun c hc hstack => ?_ }
  · by_cases hane : a = node
    · exact h.seen_discovered b ((hseen b).mpr (hane ▸ hab))
    · exact hsearching.finished a ha (List.mem_cons.not.mpr (not_or.mpr ⟨hane, hstack⟩)) b hab
  · by_cases hcne : c = node
    · have hset : {w | w ∈ seen} = {w | graph.Adj node w} := Set.ext fun w => hseen w
      rw [hcne, ← hset]
      exact h.low
    · exact hsearching.low c hc (List.mem_cons.not.mpr (not_or.mpr ⟨hcne, hstack⟩))

end Lowpoint

/-! ## The searches -/

open Lowpoint

/-- What is noted is what a rule says. -/
def Note.Follows (note : Note α ρ) (rule : Rule α ρ) : Prop :=
  ∀ (state : Lowpoint α ρ) (node nxt : α) (children : ℕ) (noted : Finset ρ),
    note state node nxt children = some noted → ∀ x, x ∈ noted ↔ x ∈ state.noted ∨
      rule (state.parentOf node) (state.number node) (state.lowOf nxt) (1 < children) node nxt x

variable {note : Note α ρ} {rule : Rule α ρ} {order : SetOrder α}

/-- Looking at the nodes next to a node, if every search from one of them does what it should. -/
theorem lowpointScan_spec (hnote : note.Follows rule)
    {dfs : α → Lowpoint α ρ → Option (Lowpoint α ρ)}
    (hdfs : ∀ {stack node before after}, Entering graph stack node before →
      dfs node before = some after → Searched graph rule stack node before after)
    {stack : List α} {node : α} {before : Lowpoint α ρ} (hnew : ¬before.Discovered node)
    {rest : List α} (hrest : ∀ a ∈ rest, graph.Adj node a) {seen : List α} {children : ℕ}
    {state after : Lowpoint α ρ}
    (hstate : Scanning graph rule stack node before seen children state)
    (h : lowpointScan note dfs node rest children state = some after) :
    ∃ children, Scanning graph rule stack node before (seen ++ rest) children after := by
  induction rest generalizing seen children state with
  | nil =>
      obtain rfl := Option.some.inj h
      exact ⟨children, by rwa [List.append_nil]⟩
  | cons nxt rest ih =>
      have hadj := hrest nxt List.mem_cons_self
      have hrest := fun a ha => hrest a (List.mem_cons_of_mem nxt ha)
      have hsplit : seen ++ nxt :: rest = seen ++ [nxt] ++ rest := by simp
      rw [hsplit]
      rw [lowpointScan] at h
      by_cases hnxt : state.Discovered nxt
      · rw [if_neg (not_not.mpr hnxt)] at h
        by_cases hback : some nxt ≠ state.parentOf node
        · rw [if_pos hback] at h
          obtain ⟨number, hnumber, h⟩ := Option.bind_eq_some_iff.mp h
          obtain ⟨lowered, hlower, h⟩ := Option.bind_eq_some_iff.mp h
          obtain rfl := (lower_eq_some hlower).2
          have heq : number = state.number nxt := by rw [Lowpoint.number, hnumber]; rfl
          rw [heq] at h
          exact ih hrest (hstate.back hnew hadj hnxt (Ne.symm hback)) h
        · -- the edge to the parent does not lower the node
          rw [if_neg hback] at h
          exact ih hrest (hstate.skip hnxt (not_not.mp hback).symm) h
      · rw [if_pos hnxt] at h
        obtain ⟨between, hbetween, h⟩ := Option.bind_eq_some_iff.mp h
        obtain ⟨low, hlow, h⟩ := Option.bind_eq_some_iff.mp h
        obtain ⟨lowered, hlower, h⟩ := Option.bind_eq_some_iff.mp h
        obtain ⟨noted, hnoted, h⟩ := Option.bind_eq_some_iff.mp h
        obtain rfl := (lower_eq_some hlower).2
        have heq : low = between.lowOf nxt := by rw [lowOf, hlow]; rfl
        rw [heq] at h hnoted
        -- the child is searched with its parent on top of the stack
        have hentering : Entering graph (node :: stack) nxt (state.adopt nxt (some node)) :=
          hstate.searching.adopt hnxt fun p hp => by
            obtain rfl := Option.some.inj hp
            exact hadj
        have hne : nxt ≠ node := fun heq =>
          hnxt (heq ▸ hstate.searching.on_stack node List.mem_cons_self)
        refine ih hrest (hstate.child hnew hnxt (hdfs hentering hbetween) fun x => ?_) h
        refine (hnote _ node nxt _ noted hnoted x).trans ?_
        rw [lowOf_lowered, if_neg hne]
        rfl

/-- A search that is entered comes back from its node. -/
theorem lowpointDfs_spec (hnote : note.Follows rule) {fuel : ℕ} {stack : List α} {node : α}
    {before after : Lowpoint α ρ} (hentering : Entering graph stack node before)
    (h : lowpointDfs note order graph fuel node before = some after) :
    Searched graph rule stack node before after := by
  induction fuel generalizing stack node before after with
  | zero => cases h
  | succ fuel ih =>
      obtain ⟨children, hscanning⟩ := lowpointScan_spec hnote (fun hentering h => ih hentering h)
        hentering.new (fun a ha => (order.mem_list [node] _ a).mp ha) (hentering.scanning rule) h
      exact hscanning.searched fun w => order.mem_list [node] _ w

/-- What holds between two searches from roots: what has been noted is what the rule says about the
nodes that have been discovered. -/
structure Searches (graph : Graph α) (rule : Rule α ρ) (state : Lowpoint α ρ) : Prop where
  searching : state.Searching graph []
  noted : ∀ x, x ∈ state.noted ↔ ∃ c p, state.Found c p ∧ state.Tells rule p c x

/-- A search from one more root. -/
theorem Searches.root (hnote : note.Follows rule) {fuel : ℕ} {node : α}
    {before after : Lowpoint α ρ} (hbefore : Searches graph rule before)
    (hnew : ¬before.Discovered node)
    (h : lowpointDfs note order graph fuel node (before.adopt node none) = some after) :
    Searches graph rule after ∧ before.Keeps after ∧ after.Discovered node := by
  have hentering : Entering graph [] node (before.adopt node none) :=
    hbefore.searching.adopt hnew (by simp)
  have hsearched := lowpointDfs_spec hnote hentering h
  have hkeeps := (keeps_adopt hnew none).trans hsearched.keeps
  refine ⟨⟨hsearched.searching, fun x => ?_⟩, hkeeps, hsearched.discovered⟩
  have hold : x ∈ (before.adopt node none).noted ↔ _ := hbefore.noted x
  rw [hsearched.noted x, hold]
  constructor
  · rintro (⟨c, p, hc, hx⟩ | ⟨c, p, hc, -, -, hx⟩)
    · exact ⟨c, p, hkeeps.found hc, (hkeeps.tells_iff hbefore.searching hc x).mpr hx⟩
    · exact ⟨c, p, hc, hx⟩
  · rintro ⟨c, p, hc, hx⟩
    -- what an earlier tree tells about a node stays, and a root has no parent to tell about
    by_cases hcold : before.Discovered c
    · have hc' : before.Found c p := ⟨hcold, (hkeeps.parent c hcold).symm.trans hc.2⟩
      exact Or.inl ⟨c, p, hc', (hkeeps.tells_iff hbefore.searching hc' x).mp hx⟩
    · refine Or.inr ⟨c, p, hc, hcold, ?_, hx⟩
      rintro rfl
      have hroot : after.parentOf c = none := by
        rw [hsearched.parent, parentOf_adopt, if_pos rfl]
      exact absurd (hroot.symm.trans hc.2) (by simp)

/-- The searches from all roots. -/
theorem lowpoints_searches (hnote : note.Follows rule) {fuel : ℕ} {state : Lowpoint α ρ}
    (h : lowpoints note order fuel graph = some state) :
    Searches graph rule state ∧ ∀ a ∈ graph.keys, state.Discovered a := by
  -- one tree after the other, from each key that none of them has reached yet
  have hall : ∀ (keys : List α) (before : Lowpoint α ρ), Searches graph rule before →
      keys.foldlM (fun state node => if state.Discovered node then some state
        else lowpointDfs note order graph fuel node
          { state with parent := state.parent.set node none }) before = some state →
      Searches graph rule state ∧ (∀ a, before.Discovered a → state.Discovered a) ∧
        ∀ a ∈ keys, state.Discovered a := by
    intro keys
    induction keys with
    | nil =>
        intro before hbefore h
        obtain rfl := Option.some.inj h
        exact ⟨hbefore, fun a ha => ha, by simp⟩
    | cons node rest ih =>
        intro before hbefore h
        rw [List.foldlM_cons] at h
        obtain ⟨between, hbetween, h⟩ := Option.bind_eq_some_iff.mp h
        obtain ⟨hstep, hmono, hnode⟩ : Searches graph rule between ∧
            (∀ a, before.Discovered a → between.Discovered a) ∧ between.Discovered node := by
          by_cases hold : before.Discovered node
          · rw [if_pos hold] at hbetween
            obtain rfl := Option.some.inj hbetween
            exact ⟨hbefore, fun a ha => ha, hold⟩
          · rw [if_neg hold] at hbetween
            obtain ⟨hstep, hkeeps, hnode⟩ := hbefore.root hnote hold hbetween
            exact ⟨hstep, hkeeps.discovered, hnode⟩
        obtain ⟨hstate, hmono', hrest⟩ := ih between hstep h
        refine ⟨hstate, fun a ha => hmono' a (hmono a ha), fun a ha => ?_⟩
        rcases List.mem_cons.mp ha with rfl | ha
        · exact hmono' a hnode
        · exact hrest a ha
  have hnone : ∀ a, ¬(⟨.empty, .empty, .empty, 0, ∅⟩ : Lowpoint α ρ).Discovered a :=
    fun a ha => List.not_mem_nil ha
  -- before the first tree nothing is discovered
  refine (hall _ _ ⟨⟨fun _ => Iff.rfl, ?_, ?_, ?_, ?_, trivial, ?_, ?_, ?_⟩, ?_⟩ h).imp_right
    And.right
  · exact fun a ha => absurd ha (hnone a)
  · exact fun a b ha => absurd ha (hnone a)
  · exact fun c p hc => absurd hc.1 (hnone c)
  · exact fun a ha => absurd ha List.not_mem_nil
  · exact fun a ha => absurd ha (hnone a)
  · exact fun a b ha => absurd ha (hnone a)
  · exact fun c hc => absurd hc (hnone c)
  · intro x
    refine ⟨fun hx => absurd hx (Finset.notMem_empty x), ?_⟩
    rintro ⟨c, p, hc, -⟩
    exact absurd hc.1 (hnone c)

/-- A depth-first search of an undirected graph leaves a depth-first forest, and has noted what the
rule says about it. -/
theorem lowpoints_spec (hnote : note.Follows rule)
    (hsymm : ∀ a b, graph.Adj a b → graph.Adj b a) {fuel : ℕ} {state : Lowpoint α ρ}
    (h : lowpoints note order fuel graph = some state) :
    DepthFirst (fun a b => a ≠ b ∧ graph.Adj a b) {a | state.Discovered a} state.parentOf
        state.number state.lowOf ∧
      (∀ a ∈ graph.keys, state.Discovered a) ∧
      ∀ x, x ∈ state.noted ↔ ∃ c p, state.Found c p ∧ state.Tells rule p c x := by
  obtain ⟨⟨hsearching, hnoted⟩, hkeys⟩ := lowpoints_searches hnote h
  have hmem : ∀ {a b}, graph.Adj a b → state.Discovered a := fun hab =>
    hkeys _ (Dict.mem_keys_of_adj hab)
  have hlow : ∀ c, state.Discovered c → state.LowPoint graph {w | graph.Adj c w} c := fun c hc =>
    hsearching.low c hc List.not_mem_nil
  refine ⟨?_, hkeys, hnoted⟩
  constructor
  · exact fun a b hab => ⟨hab.1.symm, hsymm a b hab.2⟩
  · exact fun a b hab => hmem hab.2
  · exact fun a ha b hb => hsearching.inj a b ha hb
  · exact ⟨state.counter, hsearching.number_le⟩
  · intro c p hc
    obtain ⟨hp, hadj, hlt⟩ := hsearching.found c p hc
    refine ⟨hp, ⟨?_, hadj⟩, hlt⟩
    -- a node is numbered after its parent, so it is not its own
    rintro rfl
    exact absurd hlt (lt_irrefl _)
  · exact fun a b hab => hsearching.below a b (hmem hab.2) (hmem (hsymm a b hab.2)) hab.2
  · exact fun c hc => (hlow c hc).le_self
  · exact fun c d hd => (hlow c (hsearching.found d c hd).1).le_child d hd
  · exact fun c w hcw hback => (hlow c (hmem hcw.2)).le_back w hcw.2 hback
  · intro c hc
    rcases (hlow c hc).attained with hself | hchild | ⟨w, hadj, hw, hback, heq⟩
    · exact Or.inl hself
    · exact Or.inr (Or.inl hchild)
    · -- an edge from a node to itself only tells its own number
      by_cases hne : c = w
      · exact Or.inl (hne ▸ heq)
      · exact Or.inr (Or.inr ⟨w, ⟨hne, hadj⟩, hback, heq⟩)

end Netlab
