import Netlab.Relay.Runs
import Netlab.Relay.Travel

/-!
# The cursors of the packet controller

Branches are derived anew from the fleet, while cursors and traces are kept. The two fit together in
every state that is reached (`CursorInv`), because a callback leaves the relays and the packets
alone or starts new packets (`Continues`), and a flow is compared with its branch before it is used.
So every hop that a tick tries is a hop of an active branch, a cursor goes ahead only over a hop
that the gate found feasible, and a completed round trip has gone over its branch and back.
-/

namespace Netlab

variable {F : Type}

namespace Fleet

/-- A relay in service is a drone of the inventory. -/
theorem known_of_mem_activeChain {fleet : Fleet F} {idx : ℤ} (h : idx ∈ fleet.activeChain) :
    fleet.known idx = true := by
  have hkey : idx ∈ fleet.chain.drones.keys := by
    have hsorted := (List.mem_filter.mp h).1
    rwa [RelayChain.sortedIndices, List.mem_insertionSort] at hsorted
  obtain ⟨drone, hdrone⟩ := Dict.mem_keys_iff.mp hkey
  rw [← known_chain, hdrone]
  rfl

/-- The nodes of an active branch exist. -/
theorem known_of_mem_nodes {fleet : Fleet F} {branch : List ℤ} (h : branch ∈ fleet.activeBranches)
    {phase : Phase} {node : Node} (hnode : node ∈ nodes branch phase) :
    fleet.knownNode node = true := by
  rcases mem_nodes.mp hnode with rfl | ⟨idx, hidx, rfl⟩
  · rfl
  · exact known_of_mem_activeChain ((RelayChain.of_mem_activeBranches h).2 idx hidx)

end Fleet

namespace Controller

/-- `_current_branch`. -/
def currentBranch (c : Controller F) : List ℤ :=
  (c.fleet.activeBranches[c.currentBranchIndex % c.fleet.activeBranches.length]?).getD []

/-- The cursors are within their branches and the traces list the hops made; with parallel branches,
a connectivity pause means that the flow of every branch is paused. -/
structure CursorInv (c : Controller F) : Prop where
  flows : ∀ flow ∈ c.flows, StreamInv flow.activeBranch flow.stream
  chain : c.fleet.parallelEnabled = false → StreamInv c.currentBranch c.stream
  paused : c.fleet.parallelEnabled = true → c.connectivityPaused = true →
    c.flows.map Flow.activeBranch = c.fleet.activeBranches ∧ ∀ flow ∈ c.flows, flow.paused = true

/-! ## What a callback does to the packets -/

/-- The relays and the packets are left alone. -/
structure Undisturbed (c c' : Controller F) : Prop where
  chain : c'.fleet.chain = c.fleet.chain
  stream : c'.stream = c.stream
  currentBranchIndex : c'.currentBranchIndex = c.currentBranchIndex
  flows : c'.flows = c.flows
  connectivityPaused : c'.connectivityPaused = c.connectivityPaused

/-- The packet of the chain starts anew, and no flow is paused. -/
structure Restarted (c c' : Controller F) : Prop where
  stream : ∃ packetId, c'.stream = .fresh packetId
  flows : c'.flows = c.flows.map fun flow => { flow with paused := false }
  connectivityPaused : c'.connectivityPaused = false

/-- The packets are left alone with the relays, or start anew. -/
def Continues (c c' : Controller F) : Prop := c.Undisturbed c' ∨ c.Restarted c'

theorem Undisturbed.refl (c : Controller F) : c.Undisturbed c := ⟨rfl, rfl, rfl, rfl, rfl⟩

theorem Undisturbed.trans {c c' c'' : Controller F} (h : c.Undisturbed c')
    (h' : c'.Undisturbed c'') : c.Undisturbed c'' where
  chain := h'.chain.trans h.chain
  stream := h'.stream.trans h.stream
  currentBranchIndex := h'.currentBranchIndex.trans h.currentBranchIndex
  flows := h'.flows.trans h.flows
  connectivityPaused := h'.connectivityPaused.trans h.connectivityPaused

theorem Continues.trans {c c' c'' : Controller F} (h : c.Continues c') (h' : c'.Continues c'') :
    c.Continues c'' := by
  rcases h with h | h
  · rcases h' with h' | h'
    · exact Or.inl (h.trans h')
    · exact Or.inr ⟨h'.stream, by rw [h'.flows, h.flows], h'.connectivityPaused⟩
  · rcases h' with h' | h'
    · obtain ⟨packetId, hstream⟩ := h.stream
      exact Or.inr ⟨⟨packetId, h'.stream.trans hstream⟩, h'.flows.trans h.flows,
        h'.connectivityPaused.trans h.connectivityPaused⟩
    · refine Or.inr ⟨h'.stream, ?_, h'.connectivityPaused⟩
      rw [h'.flows, h.flows, List.map_map]
      rfl

theorem Undisturbed.activeBranches {c c' : Controller F} (h : c.Undisturbed c') :
    c'.fleet.activeBranches = c.fleet.activeBranches :=
  congrArg RelayChain.activeBranches h.chain

theorem Undisturbed.parallelEnabled {c c' : Controller F} (h : c.Undisturbed c') :
    c'.fleet.parallelEnabled = c.fleet.parallelEnabled := by
  have hmode : c'.fleet.transmissionMode = c.fleet.transmissionMode :=
    congrArg RelayChain.transmissionMode h.chain
  rw [Fleet.parallelEnabled, hmode, h.activeBranches, Fleet.parallelEnabled]

theorem Undisturbed.currentBranch {c c' : Controller F} (h : c.Undisturbed c') :
    c'.currentBranch = c.currentBranch := by
  rw [Controller.currentBranch, h.activeBranches, h.currentBranchIndex, Controller.currentBranch]

/-- The invariant is one about the relays and the packets. -/
theorem CursorInv.undisturbed {c c' : Controller F} (h : CursorInv c) (h' : c.Undisturbed c') :
    CursorInv c' := by
  refine ⟨?_, ?_, ?_⟩
  · rw [h'.flows]
    exact h.flows
  · rw [h'.parallelEnabled, h'.currentBranch, h'.stream]
    exact h.chain
  · rw [h'.parallelEnabled, h'.connectivityPaused, h'.flows, h'.activeBranches]
    exact h.paused

/-- The invariant holds when the packets start anew. -/
theorem CursorInv.restarted {c c' : Controller F}
    (h : ∀ flow ∈ c.flows, StreamInv flow.activeBranch flow.stream) (h' : c.Restarted c') :
    CursorInv c' where
  flows flow hflow := by
    rw [h'.flows] at hflow
    obtain ⟨flow', hflow', rfl⟩ := List.mem_map.mp hflow
    exact h flow' hflow'
  chain _ := by
    obtain ⟨packetId, hstream⟩ := h'.stream
    rw [hstream]
    exact .fresh _ packetId
  paused _ hpaused := by
    rw [h'.connectivityPaused] at hpaused
    cases hpaused

theorem CursorInv.continues {c c' : Controller F} (h : CursorInv c) (h' : c.Continues c') :
    CursorInv c' :=
  h'.elim h.undisturbed (.restarted h.flows)

/-- Only the fleet changes, and of it nothing that decides about the branches. -/
theorem undisturbed_fleet (c : Controller F) {fleet : Fleet F}
    (h : fleet.chain = c.fleet.chain) : c.Undisturbed { c with fleet } :=
  ⟨h, rfl, rfl, rfl, rfl⟩

theorem undisturbed_drained [PyFloat F] (moved : Moved F) :
    moved.controller.Undisturbed moved.drained.controller :=
  undisturbed_fleet _ (Fleet.chain_drain _ _)

section

variable [PyText F] [PyTrig F]

/-- After a new layout the packets start anew. -/
theorem restarted_of_recompute {c c' : Controller F} {plan : Option (Plan F)}
    (h : c.recompute true plan = some c') : c.Restarted c' := by
  obtain ⟨fleet, pendingRevisionId, -, rfl⟩ := recompute_spec h
  exact ⟨⟨_, rfl⟩, rfl, rfl⟩

/-- The part of a tick before the packets move. -/
theorem continues_prepare {c prepared : Controller F} {input : TickInput F}
    (h : c.prepare input = some prepared) : c.Continues prepared := by
  simp only [prepare, bind, Option.bind_eq_some_iff] at h
  obtain ⟨processed, hprocess, hintegrate⟩ := h
  have hload : c.Undisturbed (c.loadStrategy input) := by
    rw [loadStrategy]
    split <;> exact ⟨rfl, rfl, rfl, rfl, rfl⟩
  have hprocessed : (c.loadStrategy input).Continues processed := by
    rcases processPendingFailure_spec hprocess with ⟨-, rfl⟩ | ⟨idx, -, ⟨-, rfl⟩ | ⟨-, -, _, h⟩⟩
    · exact Or.inl (.refl _)
    · exact Or.inl ⟨rfl, rfl, rfl, rfl, rfl⟩
    · obtain ⟨hstream, hflows, hpaused⟩ := restarted_of_recompute h
      exact Or.inr ⟨hstream, hflows, hpaused⟩
  have hintegrated : processed.Continues prepared := by
    rw [integrateStandby] at hintegrate
    split at hintegrate
    · obtain rfl := Option.some.inj hintegrate
      exact Or.inl (.refl _)
    · obtain ⟨hstream, hflows, hpaused⟩ := restarted_of_recompute hintegrate
      exact Or.inr ⟨hstream, hflows, hpaused⟩
  exact (Continues.trans (Or.inl hload) hprocessed).trans hintegrated

/-- The state before the recomputation of an update has the flows from before. -/
theorem flows_configured (c : Controller F) (payload : Dict String (Json F)) :
    (c.configured payload).flows = c.flows := by
  refine syncInventory_keeps (fun c' => c'.flows = c.flows) rfl fun c' idx _ _ hc' => ?_
  exact syncDrone_keeps (fun c' => c'.flows = c.flows) hc' fun _ _ => hc'

/-- Every callback but a tick and a status report leaves the packets alone or starts new ones. -/
theorem continues_perform {c c' : Controller F} {op : Op F} (h : c.perform op = some c')
    (htick : ∀ input, op ≠ .tick input) (hpublish : op ≠ .publishStatus) : c.Continues c' := by
  cases op with
  | tick input => exact absurd rfl (htick input)
  | publishStatus => exact absurd rfl hpublish
  | fail idx now =>
      obtain rfl := Option.some.inj h
      rw [failDrone]
      split <;> exact Or.inl ⟨rfl, rfl, rfl, rfl, rfl⟩
  -- an operation that recomputes the plan restarts the stream,
  | heal idx plan =>
      rw [perform, healDrone] at h
      split at h
      · obtain ⟨hstream, hflows, hpaused⟩ := restarted_of_recompute h
        exact Or.inr ⟨hstream, hflows, hpaused⟩
      · obtain rfl := Option.some.inj h
        exact Or.inl (.refl _)
  | standby idx plan =>
      rw [perform, standbyDrone] at h
      split at h
      · obtain rfl := Option.some.inj h
        exact Or.inl (.refl _)
      · obtain ⟨hstream, hflows, hpaused⟩ := restarted_of_recompute h
        exact Or.inr ⟨hstream, hflows, hpaused⟩
  | reset plan =>
      obtain ⟨hstream, hflows, hpaused⟩ := restarted_of_recompute h
      exact Or.inr ⟨hstream, hflows, hpaused⟩
  -- the others leave stream, flows and branches as they are
  | mission command =>
      obtain rfl := Option.some.inj h
      cases command <;> exact Or.inl ⟨by simp [missionCommand], rfl, rfl, rfl, rfl⟩
  | setPattern message =>
      obtain rfl := Option.some.inj h
      obtain ⟨_, hkept⟩ := c.setPattern_keeps message
      rw [hkept]
      exact Or.inl ⟨rfl, rfl, rfl, rfl, rfl⟩
  | updateConfig payload input =>
      rw [perform] at h
      split at h
      · cases h
      · rename_i hraised
        obtain rfl := Option.some.inj h
        obtain ⟨d, -, -, hrecompute⟩ := updateConfig_succeeds (Bool.not_eq_true _ ▸ hraised)
        obtain ⟨hstream, hflows, hpaused⟩ := restarted_of_recompute hrecompute
        exact Or.inr ⟨hstream, by rw [hflows, flows_configured], hpaused⟩
  | action message =>
      obtain rfl := Option.some.inj h
      exact Or.inl (c.undisturbed_fleet (Fleet.aimed_aimAll _ _).chain_eq)
  | pose idx position =>
      obtain rfl := Option.some.inj h
      refine Or.inl (c.undisturbed_fleet ?_)
      have hdrones : (c.fleet.drones.mapValues fun i drone =>
          if i = idx then { drone with currentPosition := position, posed := true }
          else drone).map Fleet.runtime = c.fleet.drones.map Fleet.runtime :=
        Dict.map_mapValues (fun i drone => by split <;> rfl) c.fleet.drones
      simp [Fleet.chain, Fleet.modify, hdrones]

end

/-! ## A tick -/

/-- The packets moved, and a stream on a branch is now behind a hop that was cleared. Neither the
operator nor a loss of connectivity had paused the controller. -/
structure Crossed (c : Controller F) (gate : Node → Node → Option String) (moved : Moved F)
    (branch : List ℤ) (s : Stream) : Prop where
  operatorPaused : c.operatorPaused = false
  connectivityPaused : c.connectivityPaused = false
  hop : ∃ hop ∈ moved.hops, hop.branch = branch ∧ hop.Cleared (c.surroundings gate) ∧
    s.phase = hop.phase ∧ s.cursor = hop.cursor + 1 ∧ s.packet.packetId = hop.packetId

/-- What moving the packets comes to: hops and round trips are those of active branches, and a
cursor is where it was, or at the start of its nodes, or behind a cleared hop. -/
structure Moved.Sound (c : Controller F) (gate : Node → Node → Option String) (moved : Moved F) :
    Prop where
  fleet : moved.controller.fleet = c.fleet
  inv : CursorInv moved.controller
  hops : ∀ hop ∈ moved.hops, hop.branch ∈ c.fleet.activeBranches ∧ hop.Sound (c.surroundings gate)
  trips : ∀ trip ∈ moved.trips, trip.branch ∈ c.fleet.activeBranches ∧ trip.Sound
  flows : ∀ (i : ℕ) (flow' : Flow), moved.controller.flows[i]? = some flow' →
    (∃ flow, c.flows[i]? = some flow ∧ flow'.stream = flow.stream) ∨ flow'.stream.cursor = 0 ∨
      c.Crossed gate moved flow'.activeBranch flow'.stream
  stream : c.fleet.parallelEnabled = false →
    moved.controller.stream = c.stream ∨ moved.controller.stream.cursor = 0 ∨
      c.Crossed gate moved moved.controller.currentBranch moved.controller.stream

/-- The synchronized flows are those of the branches; each is as before or starts anew. -/
theorem syncBranchFlowState_spec {c : Controller F} (h : CursorInv c) :
    CursorInv c.syncBranchFlowState ∧
      c.syncBranchFlowState.flows.map Flow.activeBranch = c.fleet.activeBranches ∧
      ∀ (i : ℕ) (flow : Flow), c.syncBranchFlowState.flows[i]? = some flow →
        c.flows[i]? = some flow ∨ flow.stream.cursor = 0 := by
  have hmap : c.syncBranchFlowState.flows.map Flow.activeBranch = c.fleet.activeBranches :=
    map_activeBranch_syncFlows _ _ _
  have hflows : ∀ (i : ℕ) (flow : Flow), c.syncBranchFlowState.flows[i]? = some flow →
      c.flows[i]? = some flow ∨ ∃ branch packetId, flow = .fresh branch packetId :=
    fun i flow hflow => getElem?_syncFlows hflow
  refine ⟨⟨fun flow hflow => ?_, h.chain, fun hparallel hpaused => ?_⟩, hmap, fun i flow hflow => ?_⟩
  · obtain ⟨i, hi⟩ := List.getElem?_of_mem hflow
    rcases hflows i flow hi with hold | ⟨branch, packetId, rfl⟩
    · exact h.flows flow (List.mem_of_getElem? hold)
    · exact .fresh branch packetId
  · obtain ⟨hfits, hall⟩ := h.paused hparallel hpaused
    have hsame : c.syncBranchFlowState.flows = c.flows :=
      congrArg Prod.fst (syncFlows_of_fits c.packetCount hfits)
    rw [hsame]
    exact ⟨hfits, hall⟩
  · rcases hflows i flow hflow with hold | ⟨branch, packetId, rfl⟩
    · exact Or.inl hold
    · exact Or.inr rfl

/-- Parallel branches: every flow has its turn. -/
theorem tickParallel_sound {c : Controller F} {gate : Node → Node → Option String} {moved : Moved F}
    (h : CursorInv c) (hparallel : c.fleet.parallelEnabled = true)
    (hoperator : c.operatorPaused = false) (hmoved : c.tickParallel gate = some moved) :
    moved.Sound c gate := by
  obtain ⟨hinv, hmap, hkept⟩ := syncBranchFlowState_spec h
  have hactive : ∀ flow ∈ c.syncBranchFlowState.flows,
      flow.activeBranch ∈ c.fleet.activeBranches := fun flow hflow =>
    hmap ▸ List.mem_map_of_mem hflow
  rw [tickParallel] at hmoved
  split at hmoved
  · obtain rfl := Option.some.inj hmoved
    refine ⟨rfl, hinv, by simp, by simp, fun i flow' hflow' => ?_, fun _ => Or.inl rfl⟩
    rcases hkept i flow' hflow' with hold | hzero
    · exact Or.inl ⟨flow', hold, rfl⟩
    · exact Or.inr (Or.inl hzero)
  · simp only [bind, pure, Option.bind_eq_some_iff, Option.some.injEq] at hmoved
    obtain ⟨result, hlap, rfl⟩ := hmoved
    obtain ⟨hhops, htrips⟩ := lap_tried hlap
    have hbranches : result.flows.map Flow.activeBranch = c.fleet.activeBranches := by
      rw [← hmap]
      exact map_activeBranch_lap hlap
    refine ⟨rfl, ⟨fun flow' hflow' => ?_, fun hsingle => ?_, fun _ hpaused => ?_⟩,
      fun hop hhop => ?_, fun trip htrip => ?_, fun i flow' hflow' => ?_, fun hsingle => ?_⟩
    · obtain ⟨i, hi⟩ := List.getElem?_of_mem hflow'
      obtain ⟨flow, turn, count, hflow, hturn, rfl, -⟩ := lap_flow hlap hi
      obtain ⟨hbranch, hstream, -⟩ :=
        Flow.turn_spec (hinv.flows flow (List.mem_of_getElem? hflow)) hturn
      rw [hbranch]
      exact hstream
    · cases hparallel.symm.trans hsingle
    · exact ⟨hbranches, List.all_eq_true.mp hpaused⟩
    · obtain ⟨flow, hflow, turn, count, hturn, tried, htried, rfl⟩ := hhops hop hhop
      obtain ⟨-, -, -, hsound, -⟩ := Flow.turn_spec (hinv.flows flow hflow) hturn
      obtain ⟨hbranch, hhop⟩ := hsound tried htried
      exact ⟨hbranch ▸ hactive flow hflow, hhop⟩
    · obtain ⟨flow, hflow, turn, count, hturn, htrip⟩ := htrips trip htrip
      obtain ⟨-, -, hsound, -⟩ := Flow.turn_spec (hinv.flows flow hflow) hturn
      obtain ⟨hbranch, htrip⟩ := hsound trip htrip
      exact ⟨hbranch ▸ hactive flow hflow, htrip⟩
    · obtain ⟨flow, turn, count, hflow, hturn, rfl, htried⟩ := lap_flow hlap hflow'
      obtain ⟨hbranch, -, -, hsound, hwent⟩ :=
        Flow.turn_spec (hinv.flows flow (List.mem_of_getElem? hflow)) hturn
      rcases hwent with hsame | hzero | ⟨tried, hsome, hworks, hcleared, hphase, hcursor, hid⟩
      · rcases hkept i flow hflow with hold | hzero
        · exact Or.inl ⟨flow, hold, hsame⟩
        · exact Or.inr (Or.inl (by rw [hsame]; exact hzero))
      · exact Or.inr (Or.inl hzero)
      · -- a flow that goes ahead was not paused, so not all of them were
        refine Or.inr (Or.inr ⟨hoperator, ?_, tried.2, htried tried hsome,
          ((hsound tried hsome).1).trans hbranch.symm, hcleared, hphase, hcursor, hid⟩)
        by_contra hpaused
        have hall := (hinv.paused hparallel (Bool.eq_true_of_not_eq_false hpaused)).2
        rw [hall flow (List.mem_of_getElem? hflow)] at hworks
        cases hworks
    · cases hparallel.symm.trans hsingle

/-- An index taken modulo the number of branches stands for one of them. -/
private theorem getD_mod_mem {branches : List (List ℤ)} (h : branches ≠ []) (index : ℕ) :
    (branches[index % branches.length]?).getD [] ∈ branches := by
  have hlt := Nat.mod_lt index (List.length_pos_iff.mpr h)
  rw [List.getElem?_eq_getElem hlt]
  exact List.getElem_mem hlt

/-- A current branch that has a hop is one of the active branches. -/
private theorem activeBranches_ne_nil {c : Controller F} {phase : Phase}
    (h : ¬ (nodes c.currentBranch phase).length < 2) : c.fleet.activeBranches ≠ [] := by
  intro hnil
  rw [currentBranch, hnil] at h
  simp at h

/-- One packet for the whole chain: nothing moves, or the packet turns around where it has to,
perhaps to the next branch, and tries a hop. -/
theorem tickChain_spec {c : Controller F} {gate : Node → Node → Option String} {moved : Moved F}
    (h : c.tickChain gate = some moved) :
    (∃ index, index % c.fleet.activeBranches.length =
        c.currentBranchIndex % c.fleet.activeBranches.length ∧
      moved = ⟨{ c with currentBranchIndex := index }, [], []⟩) ∨
    (c.connectivityPaused = false ∧ c.currentBranch ∈ c.fleet.activeBranches ∧
      ∃ next ∈ c.fleet.activeBranches, ∃ departure,
        departure = c.stream.turnAround c.currentBranch next c.packetCount ∧ ∃ hop,
          departure.stream.cross departure.branch (c.surroundings gate) =
            some (moved.controller.stream, hop) ∧
          moved.hops = [hop] ∧ moved.trips = departure.trip.toList ∧
          moved.controller.fleet = c.fleet ∧ moved.controller.flows = c.flows ∧
          moved.controller.currentBranch = departure.branch) := by
  rw [tickChain] at h
  split at h
  · -- paused for connectivity
    obtain rfl := Option.some.inj h
    exact Or.inl ⟨_, rfl, rfl⟩
  · rename_i hpaused
    dsimp only at h
    split at h
    · obtain rfl := Option.some.inj h
      exact Or.inl ⟨_, Nat.mod_mod _ _, rfl⟩
    · rename_i hlong
      simp only [bind, pure, Option.bind_eq_some_iff, Option.some.injEq] at h
      obtain ⟨⟨stream, hop⟩, hcross, rfl⟩ := h
      have hne : c.fleet.activeBranches ≠ [] := activeBranches_ne_nil hlong
      refine Or.inr ⟨Bool.eq_false_of_not_eq_true hpaused, getD_mod_mem hne _, _,
        getD_mod_mem hne _, _, rfl, hop, hcross, rfl, rfl, rfl, rfl, ?_⟩
      rw [Stream.branch_turnAround, currentBranch, currentBranch]
      split
      · rw [Nat.mod_mod]
      · rw [Nat.mod_mod]

/-- One packet for the whole chain. -/
theorem tickChain_sound {c : Controller F} {gate : Node → Node → Option String} {moved : Moved F}
    (h : CursorInv c) (hsingle : c.fleet.parallelEnabled = false)
    (hoperator : c.operatorPaused = false) (hmoved : c.tickChain gate = some moved) :
    moved.Sound c gate := by
  rcases tickChain_spec hmoved with ⟨index, hindex, rfl⟩ |
    ⟨hpaused, hactive, next, hnext, departure, hdeparture, hop, hcross, hhops, htrips, hfleet, hflows,
      hbranch⟩
  · have hbranch : currentBranch { c with currentBranchIndex := index } = c.currentBranch := by
      rw [currentBranch, currentBranch, hindex]
    refine ⟨rfl, ⟨h.flows, fun _ => ?_, h.paused⟩, by simp, by simp,
      fun i flow' hflow' => Or.inl ⟨flow', hflow', rfl⟩, fun _ => Or.inl rfl⟩
    rw [hbranch]
    exact h.chain hsingle
  · -- the stream may first turn around, which ends a trip, and then crosses one link
    obtain ⟨hinv, -, hstay, htrip⟩ :=
      Stream.turnAround_spec (h.chain hsingle) next c.packetCount
    rw [← hdeparture] at hinv hstay htrip
    obtain ⟨hinv', hhop, hsound, hstepped⟩ := Stream.cross_spec hinv hcross
    have hdeparts : departure.branch ∈ c.fleet.activeBranches := by
      rcases htrip with ⟨hsame, -⟩ | ⟨hother, -⟩
      · rw [hsame]
        exact hactive
      · rw [hother]
        exact hnext
    refine ⟨hfleet, ⟨?_, fun _ => ?_, fun hparallel => ?_⟩, ?_, ?_, fun i flow' hflow' => ?_,
      fun _ => ?_⟩
    · rw [hflows]
      exact h.flows
    · rw [hbranch]
      exact hinv'
    · rw [hfleet] at hparallel
      cases hparallel.symm.trans hsingle
    · rw [hhops, List.forall_mem_singleton, hhop]
      exact ⟨hdeparts, hsound⟩
    · rw [htrips]
      intro trip hmem
      rcases htrip with ⟨-, hnone⟩ | ⟨-, trip', hsome, hof, htrip⟩
      · simp [hnone] at hmem
      · obtain rfl : trip = trip' := by simpa [hsome] using hmem
        rw [hof]
        exact ⟨hactive, htrip⟩
    · rw [hflows] at hflow'
      exact Or.inl ⟨flow', hflow', rfl⟩
    · rcases hstepped with hsame | hzero | ⟨hcleared, hphase, hcursor, hid⟩
      · rcases hstay with hsame' | hzero
        · exact Or.inl (hsame.trans hsame')
        · exact Or.inr (Or.inl (by rw [hsame]; exact hzero))
      · exact Or.inr (Or.inl hzero)
      · refine Or.inr (Or.inr ⟨hoperator, hpaused, hop, ?_, hhop.trans hbranch.symm, hcleared,
          hphase, hcursor, hid⟩)
        rw [hhops]
        exact List.mem_singleton_self hop

theorem movePackets_sound {c : Controller F} {gate : Node → Node → Option String} {moved : Moved F}
    (h : CursorInv c) (hmoved : c.movePackets gate = some moved) : moved.Sound c gate := by
  rw [movePackets] at hmoved
  split at hmoved
  · obtain rfl := Option.some.inj hmoved
    exact ⟨rfl, h, by simp, by simp, fun i flow' hflow' => Or.inl ⟨flow', hflow', rfl⟩,
      fun _ => Or.inl rfl⟩
  · rename_i hoperator
    split at hmoved
    · rename_i hparallel
      exact tickParallel_sound h hparallel (Bool.eq_false_of_not_eq_true hoperator) hmoved
    · rename_i hsingle
      exact tickChain_sound h (Bool.eq_false_of_not_eq_true hsingle)
        (Bool.eq_false_of_not_eq_true hoperator) hmoved

/-- When the gate answers, no cursor leads to a node that does not exist. -/
theorem movePackets_isSome {c : Controller F} {gate : Node → Node → Option String}
    (h : CursorInv c) (hgate : ∀ src dst, (gate src dst).isSome = true) :
    (c.movePackets gate).isSome = true := by
  rw [movePackets]
  split
  · rfl
  split
  · -- the parallel flows: each node of a flow is a known drone, so its position can be read
    obtain ⟨hinv, hmap, -⟩ := syncBranchFlowState_spec h
    have hlap : (lap (c.syncBranchFlowState.surroundings gate) 0 c.syncBranchFlowState.flows
        c.syncBranchFlowState.packetCount).isSome = true := by
      refine lap_isSome fun flow hflow count => Flow.turn_isSome count (hinv.flows flow hflow)
        (fun phase node hnode => ?_) hgate
      exact Fleet.known_of_mem_nodes (hmap ▸ List.mem_map_of_mem hflow) hnode
    obtain ⟨result, hresult⟩ := Option.isSome_iff_exists.mp hlap
    rw [tickParallel]
    split
    · rfl
    · simp [hresult]
  · -- the single chain: the branch after the turn is still an active one
    rename_i hsingle
    rw [tickChain]
    split
    · rfl
    dsimp only
    split
    · rfl
    · rename_i hlong
      have hne : c.fleet.activeBranches ≠ [] := activeBranches_ne_nil hlong
      obtain ⟨-, hcursor, -, htrip⟩ := Stream.turnAround_spec
        (h.chain (Bool.eq_false_of_not_eq_true hsingle))
        ((c.fleet.activeBranches[(c.currentBranchIndex % c.fleet.activeBranches.length + 1) %
          c.fleet.activeBranches.length]?).getD []) c.packetCount
      have hactive : (c.stream.turnAround c.currentBranch
          ((c.fleet.activeBranches[(c.currentBranchIndex % c.fleet.activeBranches.length + 1) %
            c.fleet.activeBranches.length]?).getD []) c.packetCount).branch ∈
          c.fleet.activeBranches := by
        rcases htrip with ⟨hsame, -⟩ | ⟨hother, -⟩
        · rw [hsame]
          exact getD_mod_mem hne _
        · rw [hother]
          exact getD_mod_mem hne _
      obtain ⟨⟨stream, hop⟩, hresult⟩ := Option.isSome_iff_exists.mp <|
        @Stream.cross_isSome _ _ (c.surroundings gate)
        (hcursor (RelayChain.of_mem_activeBranches hactive).1)
        (fun node hnode => Fleet.known_of_mem_nodes hactive hnode) hgate
      rw [currentBranch] at hresult
      simp only [bind, hresult]
      rfl

/-! ## Runs -/

section

variable [PyText F] [PyTrig F]

/-- Every callback keeps the invariant. -/
theorem CursorInv.perform {c c' : Controller F} {op : Op F} (h : CursorInv c)
    (hperform : c.perform op = some c') : CursorInv c' := by
  by_cases hpublish : op = .publishStatus
  · subst hpublish
    obtain rfl := Option.some.inj hperform
    exact (syncBranchFlowState_spec h).1
  · by_cases htick : ∃ input, op = .tick input
    · obtain ⟨input, rfl⟩ := htick
      obtain ⟨ticked, hticked, rfl⟩ := Option.map_eq_some_iff.mp hperform
      obtain ⟨prepared, moved, hprepare, hmoved, rfl⟩ := tick_spec hticked
      exact (movePackets_sound (h.continues (continues_prepare hprepare)) hmoved).inv.undisturbed
        (undisturbed_drained moved)
    · exact h.continues
        (continues_perform hperform (fun input heq => htick ⟨input, heq⟩) hpublish)

/-- The invariant holds after the start. -/
theorem CursorInv.start {legacy : LegacyConfig F} {input : StartInput F} {c : Controller F}
    (h : Controller.start legacy input = some c) : CursorInv c := by
  simp only [Controller.start, bind, pure, Option.bind_eq_some_iff, Option.some.injEq] at h
  obtain ⟨c', hc', rfl⟩ := h
  obtain ⟨fleet, pendingRevisionId, -, rfl⟩ := recompute_spec hc'
  refine ⟨?_, fun _ => .fresh _ 1, fun _ hpaused => ?_⟩
  · exact fun flow hflow => absurd hflow List.not_mem_nil
  · cases hpaused

/-- The invariant holds in every state that is reached. -/
theorem cursorInv_run {legacy : LegacyConfig F} {input : StartInput F} {ops : List (Op F)}
    {c : Controller F} (h : run (Controller.start legacy input) ops = some c) : CursorInv c :=
  run_invariant CursorInv (fun _ _ _ hc hperform => hc.perform hperform)
    (fun _ hstart => .start hstart) h

/-- In every state that is reached, the hops that the next tick tries are hops of active branches
between nodes that exist, and when the gate answers the tick finds these nodes. The round trips that
it completes have gone over their branch and back. Every callback leaves a cursor where it was, or
at the start of its nodes, or it is a tick during which the controller is not paused and moves the
cursor over a hop between working nodes that the gate found feasible. -/
theorem cursors_sound {legacy : LegacyConfig F} {start : StartInput F} {ops : List (Op F)}
    {c : Controller F} (hrun : run (Controller.start legacy start) ops = some c) :
    (∀ input prepared, c.prepare input = some prepared →
      ((∀ src dst, (input.gate src dst).isSome = true) →
        (prepared.movePackets input.gate).isSome = true) ∧
      ∀ moved, prepared.movePackets input.gate = some moved →
        (∀ hop ∈ moved.hops, hop.branch ∈ prepared.fleet.activeBranches ∧
          hop.Sound (prepared.surroundings input.gate)) ∧
        ∀ trip ∈ moved.trips, trip.branch ∈ prepared.fleet.activeBranches ∧ trip.Sound) ∧
    ∀ op c', c.perform op = some c' →
      (∀ (i : ℕ) (flow' : Flow), c'.flows[i]? = some flow' →
        (∃ flow, c.flows[i]? = some flow ∧ flow'.stream = flow.stream) ∨ flow'.stream.cursor = 0 ∨
          ∃ input prepared moved, op = .tick input ∧ c.prepare input = some prepared ∧
            prepared.movePackets input.gate = some moved ∧
            prepared.Crossed input.gate moved flow'.activeBranch flow'.stream) ∧
      (c'.fleet.parallelEnabled = false →
        c'.stream = c.stream ∨ c'.stream.cursor = 0 ∨
          ∃ input prepared moved, op = .tick input ∧ c.prepare input = some prepared ∧
            prepared.movePackets input.gate = some moved ∧
            prepared.Crossed input.gate moved c'.currentBranch c'.stream) := by
  have hinv := cursorInv_run hrun
  -- what is left alone or restarted has no cursor that went ahead
  have hcontinues : ∀ c', c.Continues c' →
      (∀ (i : ℕ) (flow' : Flow), c'.flows[i]? = some flow' →
        ∃ flow, c.flows[i]? = some flow ∧ flow'.stream = flow.stream) ∧
      (c'.stream = c.stream ∨ c'.stream.cursor = 0) := by
    intro c' h
    rcases h with h | h
    · rw [h.flows]
      exact ⟨fun i flow' hflow' => ⟨flow', hflow', rfl⟩, Or.inl h.stream⟩
    · obtain ⟨packetId, hstream⟩ := h.stream
      refine ⟨fun i flow' hflow' => ?_, Or.inr (by rw [hstream]; rfl)⟩
      rw [h.flows, List.getElem?_map] at hflow'
      obtain ⟨flow, hflow, rfl⟩ := Option.map_eq_some_iff.mp hflow'
      exact ⟨flow, hflow, rfl⟩
  refine ⟨fun input prepared hprepare => ?_, fun op c' hperform => ?_⟩
  · have hprepared := hinv.continues (continues_prepare hprepare)
    refine ⟨movePackets_isSome hprepared, fun moved hmoved => ?_⟩
    have hsound := movePackets_sound hprepared hmoved
    exact ⟨hsound.hops, hsound.trips⟩
  · by_cases hpublish : op = .publishStatus
    · subst hpublish
      obtain rfl := Option.some.inj hperform
      obtain ⟨-, -, hkept⟩ := syncBranchFlowState_spec hinv
      refine ⟨fun i flow' hflow' => ?_, fun _ => Or.inl rfl⟩
      rcases hkept i flow' hflow' with hold | hzero
      · exact Or.inl ⟨flow', hold, rfl⟩
      · exact Or.inr (Or.inl hzero)
    · by_cases htick : ∃ input, op = .tick input
      · obtain ⟨input, rfl⟩ := htick
        obtain ⟨ticked, hticked, rfl⟩ := Option.map_eq_some_iff.mp hperform
        obtain ⟨prepared, moved, hprepare, hmoved, rfl⟩ := tick_spec hticked
        have hprepared := continues_prepare hprepare
        obtain ⟨hflows, hstream⟩ := hcontinues prepared hprepared
        have hsound := movePackets_sound (hinv.continues hprepared) hmoved
        refine ⟨fun i flow' hflow' => ?_, fun hsingle => ?_⟩
        · rcases hsound.flows i flow' hflow' with ⟨flow, hflow, hsame⟩ | hzero | hcrossed
          · obtain ⟨flow₀, hflow₀, hsame₀⟩ := hflows i flow hflow
            exact Or.inl ⟨flow₀, hflow₀, hsame.trans hsame₀⟩
          · exact Or.inr (Or.inl hzero)
          · exact Or.inr (Or.inr ⟨input, prepared, moved, rfl, hprepare, hmoved, hcrossed⟩)
        · have hdrained := undisturbed_drained moved
          rw [hdrained.parallelEnabled, hsound.fleet] at hsingle
          rw [hdrained.currentBranch]
          rcases hsound.stream hsingle with hsame | hzero | hcrossed
          · rcases hstream with hsame₀ | hzero
            · exact Or.inl (hsame.trans hsame₀)
            · exact Or.inr (Or.inl ((congrArg Stream.cursor hsame).trans hzero))
          · exact Or.inr (Or.inl hzero)
          · exact Or.inr (Or.inr ⟨input, prepared, moved, rfl, hprepare, hmoved, hcrossed⟩)
      · obtain ⟨hflows, hstream⟩ := hcontinues c' (continues_perform hperform
          (fun input heq => htick ⟨input, heq⟩) hpublish)
        refine ⟨fun i flow' hflow' => Or.inl (hflows i flow' hflow'), fun _ => ?_⟩
        rcases hstream with hsame | hzero
        · exact Or.inl hsame
        · exact Or.inr (Or.inl hzero)

end

/-- After three hops of a chain of two relays, the next tick finds its nodes. -/
theorem cursors_sound_sample :
    ∃ c, run (Controller.start (sampleConfig "chain" 2 1) sampleStart)
        [.tick (sampleTick 1), .tick (sampleTick 2), .tick (sampleTick 3)] = some c ∧
      ∀ prepared, c.prepare (sampleTick 4) = some prepared →
        (prepared.movePackets (sampleTick 4).gate).isSome = true := by
  have hsome : (run (Controller.start (sampleConfig "chain" 2 1) sampleStart)
      [.tick (sampleTick 1), .tick (sampleTick 2), .tick (sampleTick 3)]).isSome = true := by
    decide +kernel
  obtain ⟨c, hc⟩ := Option.isSome_iff_exists.mp hsome
  exact ⟨c, hc, fun prepared hprepared =>
    ((cursors_sound hc).1 (sampleTick 4) prepared hprepared).1 fun _ _ => rfl⟩

end Controller

end Netlab
