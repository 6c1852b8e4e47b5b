import Netlab.Topology.Graph
import Mathlib.Tactic.Ring

/-!
# Maximum flows

`_max_flow` augments a flow along paths that a breadth-first search finds in the residual network,
as long as it finds one. If both ends are the same node, the search finds the empty path again and
again, and the loop does not end (`maxFlow_self`).
-/

namespace Netlab

variable {α : Type} [DecidableEq α]

/-! ## Networks -/

/-- Capacities from each node to the nodes behind it, or what is left of them. -/
abbrev Network (α : Type) [DecidableEq α] := Dict α (Dict α ℤ)

end Netlab

namespace Dict

variable {α : Type} [DecidableEq α]

/-- The row of a node, which is empty if there is none. -/
def row (network : Dict α (Dict α ℤ)) (node : α) : Dict α ℤ := (network.get? node).getD .empty

/-- The entry for two nodes. -/
def cell? (network : Dict α (Dict α ℤ)) (u v : α) : Option ℤ := (network.row u).get? v

/-- Store the entry for two nodes. -/
def setEntry (network : Dict α (Dict α ℤ)) (u v : α) (value : ℤ) : Dict α (Dict α ℤ) :=
  network.set u ((network.row u).set v value)

/-- What the entry for two nodes amounts to. -/
def amount (network : Dict α (Dict α ℤ)) (u v : α) : ℤ := (network.cell? u v).getD 0

/-- The entry found after a store. -/
theorem cell?_setEntry (network : Dict α (Dict α ℤ)) (u v : α) (value : ℤ) (a b : α) :
    (network.setEntry u v value).cell? a b =
      if a = u ∧ b = v then some value else network.cell? a b := by
  rw [cell?, cell?, setEntry, row, get?_set]
  by_cases ha : a = u
  · subst ha
    rw [if_pos rfl, Option.getD_some, get?_set]
    by_cases hb : b = v <;> simp [hb]
  · rw [if_neg ha, if_neg fun h => ha h.1]
    rfl

theorem amount_setEntry (network : Dict α (Dict α ℤ)) (u v : α) (value : ℤ) (a b : α) :
    (network.setEntry u v value).amount a b =
      if a = u ∧ b = v then value else network.amount a b := by
  rw [amount, amount, cell?_setEntry]
  split <;> rfl

/-- An entry of a row of the network. -/
theorem mem_row_entries {network : Dict α (Dict α ℤ)} {u v : α} {value : ℤ} :
    (v, value) ∈ (network.row u).entries ↔ network.cell? u v = some value :=
  get?_eq_some_iff.symm

end Dict

namespace Netlab

variable {α : Type} [DecidableEq α]

/-- Add the residual capacity of an edge, and an entry for the way back if there is none. -/
def addResidual (node : α) (residual : Network α) (neighbor : α × ℤ) : Network α :=
  let residual := residual.setEntry node neighbor.1 neighbor.2
  match residual.cell? neighbor.1 node with
  | some _ => residual
  | none => residual.setEntry neighbor.1 node 0

/-- The residual network before anything flows. -/
def residualOf (capacity : Network α) : Network α :=
  capacity.entries.foldl (fun residual e => e.2.entries.foldl (addResidual e.1) residual) .empty

/-! ## Augmenting paths -/

/-- Come from a node to the node behind it, if there is something left of the capacity. -/
def discoverNext (node : α) (state : Dict α (Option α) × List α) (neighbor : α × ℤ) :
    Dict α (Option α) × List α :=
  if 0 < neighbor.2 ∧ neighbor.1 ∉ state.1.keys then
    (state.1.set neighbor.1 (some node), state.2 ++ [neighbor.1])
  else state

/-- One node of the search for an augmenting path: the state holds the node from which each node was
reached, and the queue. -/
def augmentingStep (residual : Network α) (sink : α) (state : Dict α (Option α) × List α) :
    (Dict α (Option α) × List α) ⊕ Dict α (Option α) :=
  match state.2 with
  | [] => .inr state.1
  | node :: queue =>
      if sink ∈ state.1.keys then .inr state.1
      else .inl ((residual.row node).entries.foldl (discoverNext node) (state.1, queue))

/-- Search for an augmenting path. -/
def augmentingSearch (fuel : ℕ) (residual : Network α) (source sink : α) :
    Option (Dict α (Option α)) :=
  Loop.run (fun state => some (augmentingStep residual sink state)) fuel
    (.ofList [(source, none)], [source])

/-- The hops back from a node to where the search started, from the last one on. -/
def walkBack (parent : Dict α (Option α)) : ℕ → α → Option (List (α × α))
  | 0, _ => none
  | fuel + 1, node => do
      match ← parent.get? node with
      | none => return []
      | some previous => return (previous, node) :: (← walkBack parent fuel previous)

/-- What is left on all of the hops. -/
def bottleneck (residual : Network α) (hops : List (α × α)) : Option ℤ :=
  hops.foldlM (fun increment hop => do return min increment (← residual.cell? hop.1 hop.2))
    (10 ^ 9)

/-- Let an amount flow over a hop. -/
def pushHop (increment : ℤ) (residual : Network α) (hop : α × α) : Option (Network α) := do
  let residual := residual.setEntry hop.1 hop.2 ((← residual.cell? hop.1 hop.2) - increment)
  return residual.setEntry hop.2 hop.1 (residual.amount hop.2 hop.1 + increment)

/-- Augment the flow: the state holds the residual network and the value of the flow. -/
def flowStep (fuel : ℕ) (source sink : α) (state : Network α × ℤ) :
    Option ((Network α × ℤ) ⊕ ℤ) := do
  let parent ← augmentingSearch fuel state.1 source sink
  if sink ∉ parent.keys then return .inr state.2
  else do
    let hops ← walkBack parent fuel sink
    let increment ← bottleneck state.1 hops
    let residual ← hops.foldlM (pushHop increment) state.1
    return .inl (residual, state.2 + increment)

/-- The value of a largest flow (`_max_flow`). -/
def maxFlow (fuel : ℕ) (capacity : Network α) (source sink : α) : Option ℤ :=
  Loop.run (flowStep fuel source sink) fuel (residualOf capacity, 0)

/-! ## Equal ends -/

/-- The search for a path from a node to itself ends with the empty path. -/
theorem flowStep_self (fuel : ℕ) (node : α) (state : Network α × ℤ) :
    flowStep fuel node node state = none ∨
      flowStep fuel node node state = some (.inl (state.1, state.2 + 10 ^ 9)) := by
  cases fuel with
  | zero => exact Or.inl rfl
  | succ fuel =>
      refine Or.inr ?_
      have hsearch : augmentingSearch (fuel + 1) state.1 node node =
          some (.ofList [(node, none)]) := by
        refine Loop.run_succ_of_done ?_ fuel
        have hmem : node ∈ (Dict.ofList [(node, (none : Option α))]).keys :=
          Dict.mem_keys_ofList.mpr (by simp)
        simp [augmentingStep, hmem]
      have hwalk : walkBack (Dict.ofList [(node, (none : Option α))]) (fuel + 1) node = some [] := by
        have hget : (Dict.ofList [(node, (none : Option α))]).get? node = some none :=
          Dict.get?_ofList_of_mem (by simp) (by simp)
        rw [walkBack, hget]
        rfl
      have hmem : node ∈ (Dict.ofList [(node, (none : Option α))]).keys :=
        Dict.mem_keys_ofList.mpr (by simp)
      rw [flowStep, hsearch]
      simp only [Option.bind_eq_bind, Option.bind_some, hmem, not_true_eq_false, if_false, hwalk]
      rfl

/-- From a node to itself the loop does not end. -/
theorem maxFlow_self (fuel : ℕ) (capacity : Network α) (node : α) :
    maxFlow fuel capacity node node = none := by
  refine Loop.run_eq_none (fun _ => True) (fun state _ next hnext => ?_) trivial fuel
  rcases flowStep_self fuel node state with hnone | hsome
  · rw [hnone] at hnext
    cases hnext
  · rw [hsome] at hnext
    exact ⟨_, (Option.some.inj hnext).symm, trivial⟩

end Netlab
