import Netlab.Packet.Independence
import Netlab.Prelude.Retry
import Netlab.Relay.Cursors

/-!
# The controller and the packet runtime

On the way out both state machines take a packet along the same nodes, one hop for each feasible
answer. They part after an outage: the packet runtime asks again at every step, while the controller
holds its packet at the hop that failed until the operator changes the topology or resets the chain
(the comments of `_tick`). So they are together exactly as long as the gate does not recover for
that hop (`forward_cursor_mirrors`).
-/

namespace Netlab

variable {F G : Type}

/-! ## Ticks with the same answers -/

/-- A tick of the controller, and the gate of the packet runtime in the step at the same time. -/
structure Beat (F G : Type) where
  input : TickInput F
  gate : Packet.GateEvaluator G

/-- The answer of a gate on the way out of a branch, by the number of the hop. -/
def Beat.answer (branch : List ℤ) (beat : Beat F G) (hop : ℕ) : Bool :=
  (beat.gate ((nodes branch .forward).getD hop .station).text
    ((nodes branch .forward).getD (hop + 1) .station).text).feasible

/-- Both gates answer alike on the way out of a branch. -/
def Beat.Alike (branch : List ℤ) (beat : Beat F G) : Prop :=
  ∀ hop ∈ (nodes branch .forward).hops, ∃ reason, beat.input.gate hop.1 hop.2 = some reason ∧
    (reason = "FEASIBLE" ↔ (beat.gate hop.1.text hop.2.text).feasible = true)

namespace Controller

variable [PyText F] [PyTrig F]

/-- The controller after some ticks. -/
def ticks (c : Controller F) : List (Beat F G) → Option (Controller F)
  | [] => some c
  | beat :: beats => do ticks (← c.tick beat.input).controller beats

/-- The ticks leave the relays alone: before the packets move, they do nothing but load the
strategy. -/
def Unchanging (c : Controller F) : List (Beat F G) → Prop
  | [] => True
  | beat :: beats =>
      c.prepare beat.input = some (c.loadStrategy beat.input) ∧
        ∀ moved, c.tick beat.input = some moved → Unchanging moved.controller beats

omit [PyText F] [PyTrig F] in
/-- Loading the strategy changes nothing else. -/
theorem loadStrategy_eq (c : Controller F) (input : TickInput F) :
    ∃ strategyId, c.loadStrategy input = { c with strategyId } := by
  cases h : input.strategy with
  | none => exact ⟨c.strategyId, by simp [loadStrategy, h]⟩
  | some strategyId => exact ⟨strategyId, by simp [loadStrategy, h]⟩

/-- Without a pending failure and without a standby drone, ticks leave the relays alone. -/
theorem unchanging_of_quiet {c : Controller F} (hfailure : c.pendingFailure = none)
    (hstandby : c.fleet.standbyIndices = []) (beats : List (Beat F G)) : c.Unchanging beats := by
  induction beats generalizing c with
  | nil => trivial
  | cons beat beats ih =>
      obtain ⟨strategyId, hload⟩ := c.loadStrategy_eq beat.input
      have hprepare : c.prepare beat.input = some { c with strategyId } := by
        rw [prepare, hload, processPendingFailure, dueFailure, hfailure]
        simp [integrateStandby, Fleet.joining, hstandby]
      refine ⟨hload ▸ hprepare, fun moved htick => ?_⟩
      obtain ⟨prepared, hprepared, hops, _, _, _, _, _, hkept⟩ := tick_keeps htick
      obtain rfl := Option.some.inj (hprepare.symm.trans hprepared)
      refine ih (by rw [hkept]; exact hfailure) ?_
      rw [hkept, Fleet.standbyIndices, Fleet.chain_drain]
      exact hstandby

end Controller

/-! ## The packet of the controller -/

/-- A hop of a branch on the way out. -/
theorem mem_hops_forward {branch : List ℤ} {hop : ℕ} {src dst : Node}
    (hsrc : (nodes branch .forward)[hop]? = some src)
    (hdst : (nodes branch .forward)[hop + 1]? = some dst) :
    (src, dst) ∈ (nodes branch .forward).hops :=
  List.mem_of_getElem? (List.getElem?_hops hsrc hdst)

/-- A packet on the way out, before the end of the branch, does not turn around. -/
theorem Stream.turnAround_of_lt {s : Stream} {branch : List ℤ} (hphase : s.phase = .forward)
    (hcursor : s.cursor < branch.length) (next : List ℤ) (packetCount : ℕ) :
    s.turnAround branch next packetCount = { stream := s, branch, packetCount, trip := none } := by
  rw [turnAround, if_pos]
  rw [hphase, length_nodes]
  omega

/-- A packet on the way out makes its hop exactly when the answer is positive. -/
theorem Stream.cross_forward {s s' : Stream} {branch : List ℤ} {around : Surroundings} {hop : Hop}
    {beat : Beat F G} (halike : beat.Alike branch) (hgate : around.gate = beat.input.gate)
    (hworks : ∀ node ∈ nodes branch .forward, around.failed node = false)
    (hphase : s.phase = .forward) (hcross : s.cross branch around = some (s', hop)) :
    s'.phase = .forward ∧
      s'.cursor = (if beat.answer branch s.cursor then s.cursor + 1 else s.cursor) ∧
      hop.linkOk = beat.answer branch s.cursor := by
  simp only [cross, bind, pure, guard, Option.bind_eq_some_iff, Option.some.injEq,
    Prod.mk.injEq] at hcross
  obtain ⟨src, hsrc, dst, hdst, _, -, reason, hreason, rfl, rfl⟩ := hcross
  rw [hphase] at hsrc hdst
  obtain ⟨text, htext, hfeasible⟩ := halike _ (mem_hops_forward hsrc hdst)
  -- both ends work, so the reason is the answer of the gate
  have hasked : reason = some text := by
    rw [Surroundings.reason, hworks src (List.mem_of_getElem? hsrc),
      hworks dst (List.mem_of_getElem? hdst), hgate, htext] at hreason
    exact (Option.some.inj hreason).symm
  have hanswer : (reason = some "FEASIBLE") ↔ beat.answer branch s.cursor = true := by
    rw [hasked, Option.some.injEq, hfeasible, Beat.answer, List.getD_eq_getElem?_getD,
      List.getD_eq_getElem?_getD, hsrc, hdst]
    rfl
  have hok : Hop.linkOk ⟨branch, s.phase, s.cursor, src, dst, s.packet.packetId, reason⟩ =
      beat.answer branch s.cursor := by
    rw [Hop.linkOk, Bool.eq_iff_iff, decide_eq_true_iff]
    exact hanswer
  rw [hok]
  refine ⟨?_, ?_, rfl⟩
  · split <;> exact hphase
  · split <;> rfl

/-- The relays of an active branch have not failed. -/
theorem Fleet.works_of_mem_nodes {fleet : Fleet F} {branch : List ℤ}
    (h : branch ∈ fleet.activeBranches) {node : Node} (hnode : node ∈ nodes branch .forward) :
    fleet.failedNode node = false := by
  rcases mem_nodes.mp hnode with rfl | ⟨idx, hidx, rfl⟩
  · rfl
  · have hactive := (RelayChain.of_mem_activeBranches h).2 idx hidx
    rw [RelayChain.activeChain, List.mem_filter, Bool.and_eq_true, RelayChain.available,
      decide_eq_true_iff] at hactive
    exact decide_eq_false hactive.2.1.2.2

namespace Controller

/-- The packet of the chain is on the way out of a branch. -/
structure OnChain (branch : List ℤ) (c : Controller F) (cursor : ℕ) (paused : Bool) : Prop where
  operator : c.operatorPaused = false
  single : c.fleet.parallelEnabled = false
  active : branch ∈ c.fleet.activeBranches
  current : c.currentBranch = branch
  phase : c.stream.phase = .forward
  cursor : c.stream.cursor = cursor
  paused : c.connectivityPaused = paused

/-- The packet of one of several branches is on its way out. -/
structure OnBranch (i : ℕ) (branch : List ℤ) (c : Controller F) (cursor : ℕ) (paused : Bool) :
    Prop where
  operator : c.operatorPaused = false
  parallel : c.fleet.parallelEnabled = true
  active : c.fleet.activeBranches[i]? = some branch
  flow : ∃ flow, c.syncBranchFlowState.flows[i]? = some flow ∧ flow.activeBranch = branch ∧
    flow.stream.phase = .forward ∧ flow.stream.cursor = cursor ∧ flow.paused = paused

/-- Where a packet is does not depend on the batteries. -/
theorem OnChain.drained [PyFloat F] {branch : List ℤ} {moved : Moved F} {cursor : ℕ} {paused : Bool}
    (h : OnChain branch moved.controller cursor paused) :
    OnChain branch moved.drained.controller cursor paused where
  operator := h.operator
  single := (Fleet.parallelEnabled_drain _ _).trans h.single
  active := by
    rw [Moved.drained, Fleet.activeBranches_drain]
    exact h.active
  current := by
    rw [currentBranch, Moved.drained, Fleet.activeBranches_drain]
    exact h.current
  phase := h.phase
  cursor := h.cursor
  paused := h.paused

theorem OnBranch.drained [PyFloat F] {i : ℕ} {branch : List ℤ} {moved : Moved F} {cursor : ℕ}
    {paused : Bool} (h : OnBranch i branch moved.controller cursor paused) :
    OnBranch i branch moved.drained.controller cursor paused where
  operator := h.operator
  parallel := (Fleet.parallelEnabled_drain _ _).trans h.parallel
  active := by
    rw [Moved.drained, Fleet.activeBranches_drain]
    exact h.active
  flow := by
    rw [syncBranchFlowState, Moved.drained, Fleet.activeBranches_drain]
    exact h.flow

/-- The packet of the chain makes its hop when the answer is positive, and stops for good when it is
not. -/
theorem OnChain.tickChain {branch : List ℤ} {c : Controller F} {cursor : ℕ} {paused : Bool}
    (h : OnChain branch c cursor paused) (hcursor : cursor < branch.length) {beat : Beat F G}
    (halike : beat.Alike branch) {moved : Moved F}
    (hmoved : c.tickChain beat.input.gate = some moved) :
    OnChain branch moved.controller
      (if !paused && beat.answer branch cursor then cursor + 1 else cursor)
      (paused || !beat.answer branch cursor) := by
  rw [Controller.tickChain, h.paused] at hmoved
  cases hpaused : paused with
  -- a paused chain does not move, whatever the link would answer
  | true =>
      rw [hpaused, if_pos rfl] at hmoved
      obtain rfl := Option.some.inj hmoved
      exact ⟨h.operator, h.single, h.active, h.current, h.phase, h.cursor, h.paused.trans hpaused⟩
  | false =>
      rw [hpaused, if_neg Bool.false_ne_true] at hmoved
      have hbranch : ((c.fleet.activeBranches[c.currentBranchIndex %
          c.fleet.activeBranches.length]?).getD []) = branch := h.current
      -- the cursor has a link ahead of it, so the stream does not turn around
      have hlt : c.stream.cursor < branch.length := h.cursor.symm ▸ hcursor
      have hlong : ¬ (nodes branch c.stream.phase).length < 2 := by
        rw [length_nodes]
        omega
      dsimp only at hmoved
      rw [hbranch, if_neg hlong, Stream.turnAround_of_lt h.phase hlt] at hmoved
      simp only [bind, pure, Option.bind_eq_some_iff, Option.some.injEq] at hmoved
      obtain ⟨⟨stream, hop⟩, hcross, rfl⟩ := hmoved
      obtain ⟨hphase', hcursor', hok⟩ := Stream.cross_forward halike rfl
        (fun node hnode => Fleet.works_of_mem_nodes h.active hnode) h.phase hcross
      rw [h.cursor] at hcursor' hok
      refine ⟨h.operator, h.single, h.active, ?_, hphase', ?_, ?_⟩
      · simp only [currentBranch, Option.isSome_none, Bool.false_eq_true, ↓reduceIte, Nat.mod_mod]
        exact hbranch
      · simpa using hcursor'
      · simp [hok]

/-- A flow on the way out makes its hop when the answer is positive, and stops for good when it is
not. -/
theorem turn_forward {flow : Flow} {around : Surroundings} {packetCount : ℕ} {turn : FlowTurn}
    {beat : Beat F G} (halike : beat.Alike flow.activeBranch)
    (hgate : around.gate = beat.input.gate)
    (hworks : ∀ node ∈ nodes flow.activeBranch .forward, around.failed node = false)
    (hphase : flow.stream.phase = .forward) (hcursor : flow.stream.cursor < flow.activeBranch.length)
    (hturn : flow.turn around packetCount = some turn) :
    turn.flow.stream.phase = .forward ∧
      turn.flow.stream.cursor =
        (if !flow.paused && beat.answer flow.activeBranch flow.stream.cursor then
          flow.stream.cursor + 1 else flow.stream.cursor) ∧
      turn.flow.paused = (flow.paused || !beat.answer flow.activeBranch flow.stream.cursor) := by
  have hne : flow.activeBranch ≠ [] := by
    intro hnil
    simp [hnil] at hcursor
  -- a flow that is paused stays where it is
  cases hpaused : flow.paused with
  | true =>
      rw [Flow.turn_of_paused hpaused] at hturn
      obtain rfl := Option.some.inj hturn
      exact ⟨hphase, by simp, hpaused⟩
  | false =>
      rw [Flow.turn, if_neg (by simp [hne, hpaused]),
        Stream.turnAround_of_lt hphase hcursor] at hturn
      simp only [bind, pure, Option.bind_eq_some_iff, Option.some.injEq] at hturn
      obtain ⟨⟨stream, hop⟩, hcross, rfl⟩ := hturn
      obtain ⟨hphase', hcursor', hok⟩ := Stream.cross_forward halike hgate hworks hphase hcross
      exact ⟨hphase', by simpa using hcursor', by simp [hok]⟩

/-- The packet of a branch makes its hop when the answer is positive, and stops for good when it is
not, whatever happens on the other branches. -/
theorem OnBranch.tickParallel {i : ℕ} {branch : List ℤ} {c : Controller F} {cursor : ℕ}
    {paused : Bool} (h : OnBranch i branch c cursor paused) (hcursor : cursor < branch.length)
    {beat : Beat F G} (halike : beat.Alike branch) {moved : Moved F}
    (hmoved : c.tickParallel beat.input.gate = some moved) :
    OnBranch i branch moved.controller
      (if !paused && beat.answer branch cursor then cursor + 1 else cursor)
      (paused || !beat.answer branch cursor) := by
  obtain ⟨flow, hflow, rfl, hphase, rfl, rfl⟩ := h.flow
  rw [Controller.tickParallel] at hmoved
  split at hmoved
  · rename_i hnil
    rw [hnil] at hflow
    simp at hflow
  · simp only [bind, pure, Option.bind_eq_some_iff, Option.some.injEq] at hmoved
    obtain ⟨result, hlap, rfl⟩ := hmoved
    have hbranches : result.flows.map Flow.activeBranch = c.fleet.activeBranches :=
      (map_activeBranch_lap hlap).trans (map_activeBranch_syncFlows _ _ _)
    have hlength : i < result.flows.length := by
      have hlt := (List.getElem?_eq_some_iff.mp h.active).1
      rwa [← hbranches, List.length_map] at hlt
    obtain ⟨before, turn, count, hbefore, hturn, hafter, -⟩ :=
      lap_flow hlap (List.getElem?_eq_getElem hlength)
    obtain rfl := Option.some.inj (hflow.symm.trans hbefore)
    obtain ⟨hphase', hcursor', hpaused'⟩ := turn_forward halike rfl
      (fun node hnode => Fleet.works_of_mem_nodes (List.mem_of_getElem? h.active) hnode) hphase
      hcursor hturn
    -- the flows of the next tick are the ones that this tick left
    refine ⟨h.operator, h.parallel, h.active, turn.flow, ?_, Flow.activeBranch_turn hturn, hphase',
      hcursor', hpaused'⟩
    rw [hafter]
    change (syncFlows c.fleet.activeBranches result.flows result.packetCount).1[i]? = _
    rw [syncFlows_of_fits result.packetCount hbranches]
    exact List.getElem?_eq_getElem hlength

/-- A tick that leaves the relays alone moves the packet of the chain. -/
theorem OnChain.tick [PyText F] [PyTrig F] {branch : List ℤ} {c : Controller F} {cursor : ℕ}
    {paused : Bool} (h : OnChain branch c cursor paused) (hcursor : cursor < branch.length)
    {beat : Beat F G} (hprepare : c.prepare beat.input = some (c.loadStrategy beat.input))
    (halike : beat.Alike branch) {moved : Moved F} (hmoved : c.tick beat.input = some moved) :
    OnChain branch moved.controller
      (if !paused && beat.answer branch cursor then cursor + 1 else cursor)
      (paused || !beat.answer branch cursor) := by
  obtain ⟨strategyId, hload⟩ := c.loadStrategy_eq beat.input
  have hloaded : OnChain branch { c with strategyId } cursor paused :=
    ⟨h.operator, h.single, h.active, h.current, h.phase, h.cursor, h.paused⟩
  obtain ⟨prepared, moved', hprepared, hmoved, rfl⟩ := tick_spec hmoved
  rw [hprepare, hload] at hprepared
  obtain rfl := Option.some.inj hprepared
  generalize ({ c with strategyId } : Controller F) = loaded at hloaded hmoved
  refine (hloaded.tickChain hcursor halike ?_).drained
  simpa [movePackets, hloaded.operator, hloaded.single] using hmoved

/-- A tick that leaves the relays alone moves the packet of a branch. -/
theorem OnBranch.tick [PyText F] [PyTrig F] {i : ℕ} {branch : List ℤ} {c : Controller F}
    {cursor : ℕ} {paused : Bool} (h : OnBranch i branch c cursor paused)
    (hcursor : cursor < branch.length) {beat : Beat F G}
    (hprepare : c.prepare beat.input = some (c.loadStrategy beat.input))
    (halike : beat.Alike branch) {moved : Moved F} (hmoved : c.tick beat.input = some moved) :
    OnBranch i branch moved.controller
      (if !paused && beat.answer branch cursor then cursor + 1 else cursor)
      (paused || !beat.answer branch cursor) := by
  obtain ⟨strategyId, hload⟩ := c.loadStrategy_eq beat.input
  have hloaded : OnBranch i branch { c with strategyId } cursor paused :=
    ⟨h.operator, h.parallel, h.active, h.flow⟩
  obtain ⟨prepared, moved', hprepared, hmoved, rfl⟩ := tick_spec hmoved
  rw [hprepare, hload] at hprepared
  obtain rfl := Option.some.inj hprepared
  generalize ({ c with strategyId } : Controller F) = loaded at hloaded hmoved
  refine (hloaded.tickParallel hcursor halike ?_).drained
  simpa [movePackets, hloaded.operator, hloaded.parallel] using hmoved

/-- A predicate about the packet of a branch on its way out that ticks keep, with the cursor moved
as the answers say. -/
def Ticking [PyText F] [PyTrig F] (G : Type) (branch : List ℤ)
    (On : Controller F → ℕ → Bool → Prop) : Prop :=
  ∀ (c : Controller F) (cursor : ℕ) (paused : Bool) (beat : Beat F G) (moved : Moved F),
    On c cursor paused → cursor < branch.length →
    c.prepare beat.input = some (c.loadStrategy beat.input) → beat.Alike branch →
    c.tick beat.input = some moved →
      On moved.controller (if !paused && beat.answer branch cursor then cursor + 1 else cursor)
        (paused || !beat.answer branch cursor)

section

variable [PyText F] [PyTrig F] {branch : List ℤ} {On : Controller F → ℕ → Bool → Prop}

/-- A packet that is held stays. -/
theorem Ticking.ticks_of_paused (hstep : Ticking G branch On) {beats : List (Beat F G)}
    (halike : ∀ beat ∈ beats, beat.Alike branch) {c c' : Controller F} {cursor : ℕ}
    (hon : On c cursor true) (hcursor : cursor < branch.length) (hunchanging : c.Unchanging beats)
    (hticks : c.ticks beats = some c') : On c' cursor true := by
  induction beats generalizing c with
  | nil =>
      obtain rfl := Option.some.inj hticks
      exact hon
  | cons beat beats ih =>
      obtain ⟨moved, htick, hticks⟩ := Option.bind_eq_some_iff.mp hticks
      rw [List.forall_mem_cons] at halike
      have hnext := hstep c cursor true beat moved hon hcursor hunchanging.1 halike.1 htick
      rw [Bool.not_true, Bool.false_and, if_neg Bool.false_ne_true, Bool.true_or] at hnext
      exact ih halike.2 hnext (hunchanging.2 moved htick) hticks

/-- Ticks take the packet where the cursor goes that stops for good. -/
theorem Ticking.ticks (hstep : Ticking G branch On) {beats : List (Beat F G)}
    (halike : ∀ beat ∈ beats, beat.Alike branch) {c c' : Controller F} {cursor : ℕ}
    (hon : On c cursor false) (hunchanging : c.Unchanging beats)
    (huntil : Retry.Until branch.length cursor (beats.map (Beat.answer branch)))
    (hticks : c.ticks beats = some c') :
    ∃ paused, On c' (Retry.held cursor (beats.map (Beat.answer branch))) paused := by
  induction beats generalizing c cursor with
  | nil =>
      obtain rfl := Option.some.inj hticks
      exact ⟨false, hon⟩
  | cons beat beats ih =>
      obtain ⟨hcursor, huntil⟩ := huntil.cons
      obtain ⟨moved, htick, hticks⟩ := Option.bind_eq_some_iff.mp hticks
      rw [List.forall_mem_cons] at halike
      have hnext := hstep c cursor false beat moved hon hcursor hunchanging.1 halike.1 htick
      rw [Bool.not_false, Bool.true_and, Bool.false_or] at hnext
      rw [List.map_cons, Retry.held]
      cases hanswer : beat.answer branch cursor with
      | false =>
          rw [hanswer] at hnext
          -- the first refusal pauses the flow for the rest of the beats
          exact ⟨true,
            hstep.ticks_of_paused halike.2 hnext hcursor (hunchanging.2 moved htick) hticks⟩
      | true =>
          rw [hanswer] at hnext huntil
          exact ih halike.2 hnext (hunchanging.2 moved htick) huntil hticks

end

end Controller

/-! ## The packet of the packet runtime -/

namespace Packet

/-- A packet is about to leave for a route, or the next one will be. -/
def PacketRuntime.Starting (rt : PacketRuntime G) (branchId : String) (route : List String) : Prop :=
  ∃ stream, rt.streams.get? branchId = some stream ∧ stream.route = route ∧
    ∀ packet, stream.currentPacket = some packet →
      packet.route = route ∧ packet.currentHopIndex = 0 ∧ packet.status ≠ .delivered

/-- The hop index of the packet of a branch; without a packet it is that of the next one. -/
def PacketRuntime.hopIndex (rt : PacketRuntime G) (branchId : String) : ℕ :=
  ((rt.streams.get? branchId).bind fun stream =>
    stream.currentPacket.map (·.currentHopIndex)).getD 0

/-- The hop index of a packet that is about to leave. -/
theorem PacketRuntime.Starting.hopIndex {rt : PacketRuntime G} {branchId : String}
    {route : List String} (h : rt.Starting branchId route) : rt.hopIndex branchId = 0 := by
  obtain ⟨stream, hget, -, hpacket⟩ := h
  rw [PacketRuntime.hopIndex, hget, Option.bind_some]
  cases hcurrent : stream.currentPacket with
  | none => rfl
  | some packet => exact (hpacket packet hcurrent).2.1

/-- The packet to work on is on a route, before a hop. -/
def Progress.At (p : Progress) (route : List String) (hop : ℕ) : Prop :=
  p.ready.2.route = route ∧ p.ready.2.hop = hop

/-- A packet that is about to leave is before the first hop. -/
theorem PacketRuntime.Starting.at {rt : PacketRuntime G} {branchId : String} {route : List String}
    (h : rt.Starting branchId route) :
    ∃ stream, rt.streams.get? branchId = some stream ∧ stream.progress.At route 0 := by
  obtain ⟨stream, hget, hroute, hpacket⟩ := h
  refine ⟨stream, hget, ?_⟩
  cases hcurrent : stream.currentPacket with
  | none => simp [Progress.At, Progress.ready, Progress.restart, BranchStream.progress, hcurrent, hroute]
  | some packet =>
      obtain ⟨hon, hindex, hstatus⟩ := hpacket packet hcurrent
      simp [Progress.At, Progress.ready, BranchStream.progress, hcurrent, hstatus, hon, hindex]

/-- A step before the end of the route makes the hop when the answer is positive. -/
theorem Progress.step_at {p : Progress} {route : List String} {hop : ℕ} (h : p.At route hop)
    (hlt : hop < route.length - 1) (passes : String × String → Bool) :
    ∃ status, (p.step passes).packet =
        some ⟨route, if passes (route.getD hop "", route.getD (hop + 1) "") then hop + 1 else hop,
          status⟩ ∧
      (status = .delivered → route.length - 1 ≤ hop + 1 ∧
        passes (route.getD hop "", route.getD (hop + 1) "") = true) := by
  obtain ⟨rfl, rfl⟩ := h
  rw [step, forward, if_neg (by omega)]
  split
  · split
    · rename_i hpasses hend
      exact ⟨_, rfl, fun _ => ⟨hend, hpasses⟩⟩
    · exact ⟨_, rfl, fun hdelivered => by cases hdelivered⟩
  · exact ⟨_, rfl, fun hdelivered => by cases hdelivered⟩

/-- The names of the nodes of a branch on the way out. -/
def routeOf (branch : List ℤ) : List String := (nodes branch .forward).map Node.text

/-- The answer about a hop of the route of a branch. -/
theorem answer_eq (branch : List ℤ) (beat : Beat F G) {hop : ℕ} (h : hop < branch.length) :
    beat.answer branch hop =
      (beat.gate ((routeOf branch).getD hop "") ((routeOf branch).getD (hop + 1) "")).feasible := by
  have hget : ∀ i < branch.length + 1,
      (routeOf branch).getD i "" = ((nodes branch .forward).getD i .station).text := by
    intro i hi
    have hi' : i < (nodes branch .forward).length := by
      rw [length_nodes]
      exact hi
    rw [routeOf, List.getD_eq_getElem?_getD, List.getD_eq_getElem?_getD, List.getElem?_map,
      List.getElem?_eq_getElem hi']
    rfl
  rw [Beat.answer, hget hop (by omega), hget (hop + 1) (by omega)]

/-- The runtime after steps of the stream of a branch. -/
def PacketRuntime.steps (uuid4 : IdSupply) (branchId : String) (rt : PacketRuntime G)
    (beats : List (Beat F G)) : PacketRuntime G :=
  beats.foldl (fun rt beat => (rt.stepAt uuid4 branchId beat.gate).runtime) rt

/-- Steps take the packet where the cursor goes that asks again. -/
theorem hopIndex_steps (uuid4 : IdSupply) {branchId : String} {branch : List ℤ}
    {beats : List (Beat F G)} {rt : PacketRuntime G} {hop : ℕ}
    (hindex : rt.hopIndex branchId = hop)
    (hat : beats ≠ [] → ∃ stream, rt.streams.get? branchId = some stream ∧
      stream.progress.At (routeOf branch) hop)
    (huntil : Retry.Until branch.length hop (beats.map (Beat.answer branch))) :
    (rt.steps uuid4 branchId beats).hopIndex branchId =
      Retry.retried hop (beats.map (Beat.answer branch)) := by
  induction beats generalizing rt hop with
  | nil => exact hindex
  | cons beat beats ih =>
      obtain ⟨stream, hget, hat⟩ := hat (List.cons_ne_nil _ _)
      obtain ⟨hlt, huntil⟩ := huntil.cons
      obtain ⟨stream', hget', hprogress⟩ :=
        PacketRuntime.progress_stepAt uuid4 beat.gate hget
      have hlength : (routeOf branch).length - 1 = branch.length := by
        rw [routeOf, List.length_map, length_nodes, Nat.add_sub_cancel]
      obtain ⟨status, hpacket, hdelivered⟩ := Progress.step_at hat (by rwa [hlength])
        fun hop => (beat.gate hop.1 hop.2).feasible
      rw [← hprogress] at hpacket
      rw [← answer_eq branch beat hlt] at hpacket hdelivered
      have hnext : (rt.stepAt uuid4 branchId beat.gate).runtime.hopIndex branchId =
          if beat.answer branch hop then hop + 1 else hop := by
        obtain ⟨packet, hcurrent, hcursor⟩ := Option.map_eq_some_iff.mp hpacket
        rw [PacketRuntime.hopIndex, hget', Option.bind_some, hcurrent]
        exact congrArg Cursor.hop hcursor
      refine ih hnext (fun hne => ⟨stream', hget', ?_⟩) huntil
      -- the packet has not been delivered yet, so the next step works on it
      have hbefore : (if beat.answer branch hop then hop + 1 else hop) < branch.length :=
        huntil 0 (by simpa [List.length_pos_iff] using hne)
      have hstatus : status ≠ .delivered := by
        intro hd
        obtain ⟨hend, hpasses⟩ := hdelivered hd
        rw [hpasses, if_pos rfl] at hbefore
        omega
      simp only [Progress.At, Progress.ready, hpacket, if_neg hstatus, and_self]

end Packet

/-! ## Both together -/

/-- Step a packet that leaves the station and a stream of the packet runtime on the same route with
the same answers, up to the first delivery. Whether it is the packet of the chain or that of one of
several branches, it is never ahead of the packet of the runtime, and it is level with it exactly
when the gate does not recover for the hop at which it first failed. -/
theorem forward_cursor_mirrors [PyText F] [PyTrig F] (uuid4 : IdSupply) {branch : List ℤ}
    {beats : List (Beat F G)} (halike : ∀ beat ∈ beats, beat.Alike branch)
    (huntil : Retry.Until branch.length 0 (beats.map (Beat.answer branch)))
    {rt : Packet.PacketRuntime G} {branchId : String}
    (hstarting : rt.Starting branchId (Packet.routeOf branch)) {c c' : Controller F}
    (hunchanging : c.Unchanging beats) (hticks : c.ticks beats = some c') :
    let hopIndex := (rt.steps uuid4 branchId beats).hopIndex branchId
    let NoRecovery := Retry.NoRecovery 0 (beats.map (Beat.answer branch))
    (c.OnChain branch 0 false → c'.stream.phase = .forward ∧ c'.stream.cursor ≤ hopIndex ∧
        (c'.stream.cursor = hopIndex ↔ NoRecovery)) ∧
      ∀ i, c.OnBranch i branch 0 false → ∃ flow, c'.syncBranchFlowState.flows[i]? = some flow ∧
        flow.activeBranch = branch ∧ flow.stream.phase = .forward ∧
        flow.stream.cursor ≤ hopIndex ∧ (flow.stream.cursor = hopIndex ↔ NoRecovery) := by
  intro hopIndex NoRecovery
  -- the packet runtime advances over the links it retries, the controller over those it holds
  have hretried : hopIndex = Retry.retried 0 (beats.map (Beat.answer branch)) :=
    Packet.hopIndex_steps uuid4 hstarting.hopIndex (fun _ => hstarting.at) huntil
  have hlevel : ∀ cursor, cursor = Retry.held 0 (beats.map (Beat.answer branch)) →
      cursor ≤ hopIndex ∧ (cursor = hopIndex ↔ NoRecovery) := by
    rintro cursor rfl
    rw [hretried]
    exact ⟨Retry.held_le_retried _ _, Retry.held_eq_retried_iff _ _⟩
  constructor
  · intro hon
    obtain ⟨paused, hon'⟩ := Controller.Ticking.ticks
      (fun c cursor paused beat moved h hcursor hprepare halike htick =>
        h.tick hcursor hprepare halike htick) halike hon hunchanging huntil hticks
    exact ⟨hon'.phase, hlevel _ hon'.cursor⟩
  · intro i hon
    obtain ⟨paused, hon'⟩ := Controller.Ticking.ticks
      (fun c cursor paused beat moved h hcursor hprepare halike htick =>
        h.tick hcursor hprepare halike htick) halike hon hunchanging huntil hticks
    obtain ⟨flow, hflow, hbranch, hphase, hcursor, -⟩ := hon'.flow
    exact ⟨flow, hflow, hbranch, hphase, hlevel _ hcursor⟩

/-! ## An outage that ends -/

/-- A tick and a step with one answer for every hop. -/
def sampleBeat (reason : String) : Beat ℚ ℚ where
  input := { Controller.sampleTick 0 with gate := fun _ _ => some reason }
  gate _ _ := { feasible := reason = "FEASIBLE", reason := .feasible, predicates := [] }

/-- The packet runtime for the branch of `sampleChain`. -/
def sampleRuntime : Packet.PacketRuntime ℚ :=
  .fromBranches [[1, 2, 3]] "chain" "station" "" "" 512

theorem sampleRuntime_starting :
    sampleRuntime.Starting "branch_0" (Packet.routeOf [1, 2, 3]) :=
  ⟨_, rfl, by decide, by rintro _ ⟨⟩⟩

/-- A beat answers alike everywhere. -/
theorem alike_sampleBeat (branch : List ℤ) (reason : String) :
    (sampleBeat reason).Alike branch :=
  fun _ _ => ⟨reason, rfl, decide_eq_true_iff.symm⟩

theorem onChain_sampleChain : Controller.sampleChain.OnChain [1, 2, 3] 0 false := by
  constructor <;> decide +kernel

theorem unchanging_sampleChain (beats : List (Beat ℚ ℚ)) :
    Controller.sampleChain.Unchanging beats :=
  Controller.unchanging_of_quiet
    (Option.isNone_iff_eq_none.mp (by decide +kernel)) (by decide +kernel) beats

/-- The chain after a hop and an outage. -/
def sampleOutage : Controller ℚ :=
  (Controller.sampleChain.ticks [sampleBeat "FEASIBLE", sampleBeat "OUT_OF_RANGE"]).get
    (by decide +kernel)

/-- At the outage the packets are level. -/
theorem forward_cursor_mirrors_outage :
    sampleOutage.stream.cursor = (sampleRuntime.steps .unary "branch_0"
      [sampleBeat "FEASIBLE", sampleBeat "OUT_OF_RANGE"]).hopIndex "branch_0" := by
  refine ((forward_cursor_mirrors .unary ?_ (by unfold Retry.Until; decide) sampleRuntime_starting
    (unchanging_sampleChain _) (Option.some_get _).symm).1 onChain_sampleChain).2.2.mpr ?_
  · simp [alike_sampleBeat]
  · simp [Retry.NoRecovery, Beat.answer, sampleBeat]

/-- The chain when the outage is over. -/
def sampleRecovered : Controller ℚ :=
  (Controller.sampleChain.ticks
    [sampleBeat "FEASIBLE", sampleBeat "OUT_OF_RANGE", sampleBeat "FEASIBLE"]).get (by decide +kernel)

/-- When the outage is over, the packet of the runtime goes on and that of the chain does not. -/
theorem chain_stays_paused :
    ¬ ∀ (beats : List (Beat ℚ ℚ)) (branch : List ℤ) (rt : Packet.PacketRuntime ℚ)
        (branchId : String) (c c' : Controller ℚ),
      (∀ beat ∈ beats, beat.Alike branch) →
      Retry.Until branch.length 0 (beats.map (Beat.answer branch)) →
      rt.Starting branchId (Packet.routeOf branch) → c.Unchanging beats →
      c.OnChain branch 0 false → c.ticks beats = some c' →
        c'.stream.cursor = (rt.steps .unary branchId beats).hopIndex branchId := by
  intro hall
  have h := hall [sampleBeat "FEASIBLE", sampleBeat "OUT_OF_RANGE", sampleBeat "FEASIBLE"] [1, 2, 3]
    sampleRuntime "branch_0" Controller.sampleChain sampleRecovered (by simp [alike_sampleBeat])
    (by unfold Retry.Until; decide) sampleRuntime_starting (unchanging_sampleChain _)
    onChain_sampleChain (Option.some_get _).symm
  have hcursor : sampleRecovered.stream.cursor = 1 := by decide +kernel
  have hindex : (sampleRuntime.steps .unary "branch_0"
      [sampleBeat "FEASIBLE", sampleBeat "OUT_OF_RANGE", sampleBeat "FEASIBLE"]).hopIndex
        "branch_0" = 2 := by decide +kernel
  rw [hcursor, hindex] at h
  cases h

end Netlab
