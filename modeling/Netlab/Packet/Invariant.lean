import Netlab.Packet.Moves

/-!
# The packet and the flags of its stream

In every state that calls can reach from `from_branches`, the packet of a stream sits on the route
of the stream, its node names are those at its cursor, it is delivered exactly at the end of the
route, and the stream is paused exactly while the packet is held by an outage.

The proof rests on `forward_spec`, which lists the three things that forwarding a packet can do:
hold it, deliver it, or move it by one hop.
-/

namespace Netlab.Packet

variable {F : Type}

/-- The question that forwarding a packet puts to the gate. -/
def PacketState.gateCall (packet : PacketState) (gate : GateEvaluator F) : GateCall F :=
  let src := packet.route.getD packet.currentHopIndex ""
  let dst := packet.route.getD (packet.currentHopIndex + 1) ""
  { sequenceNumber := packet.sequenceNumber, src, dst, decision := gate src dst }

/-- The packet held back by an infeasible answer. -/
def PacketState.held (packet : PacketState) (call : GateCall F) : PacketState :=
  { packet with
    currentNode := call.src, nextNode := call.dst, status := .pausedOutage
    outageReason := some call.decision.reason }

/-- The packet after it crossed a hop. -/
def PacketState.crossed (packet : PacketState) (call : GateCall F) (status : PacketStatus) :
    PacketState :=
  { packet with
    currentHopIndex := packet.currentHopIndex + 1, currentNode := call.dst, outageReason := none
    nextNode := packet.route.getD (packet.currentHopIndex + 2) ""
    status }

/-- The stream with a packet that crossed a hop. -/
def BranchStream.carrying (stream : BranchStream F) (call : GateCall F) (packet : PacketState) :
    BranchStream F :=
  { stream with
    lastDecision := some call.decision, paused := false, outageReason := none
    currentPacket := some packet }

/-- The three outcomes of forwarding a packet that has a hop left, after the answer `call`. -/
inductive Forwarded (rt : PacketRuntime F) (stream : BranchStream F) (packet : PacketState)
    (call : GateCall F) : StreamStep F → Prop
  | held (infeasible : call.decision.feasible = false) :
      Forwarded rt stream packet call
        { runtime := (rt.event (.packetPausedOutage (packet.held call) call) "WARNING"
            stream.branchId).1
          event := (rt.event (.packetPausedOutage (packet.held call) call) "WARNING"
            stream.branchId).2
          asked := some call
          stream := { stream with
            lastDecision := some call.decision, paused := true
            outageReason := some call.decision.reason
            currentPacket := some (packet.held call) } }
  | delivered (feasible : call.decision.feasible = true)
      (last : packet.currentHopIndex + 2 = packet.route.length) :
      Forwarded rt stream packet call
        { runtime := (rt.event (.packetDelivered (packet.crossed call .delivered) (some call))
            "INFO" stream.branchId).1
          event := (rt.event (.packetDelivered (packet.crossed call .delivered) (some call))
            "INFO" stream.branchId).2
          asked := some call
          stream := { stream.carrying call (packet.crossed call .delivered) with
            completedPackets := stream.completedPackets + 1 } }
  | advanced (feasible : call.decision.feasible = true)
      (inner : packet.currentHopIndex + 2 < packet.route.length) :
      Forwarded rt stream packet call
        { runtime := (rt.event (.packetAdvanced (packet.crossed call .advanced) call) "INFO"
            stream.branchId).1
          event := (rt.event (.packetAdvanced (packet.crossed call .advanced) call) "INFO"
            stream.branchId).2
          asked := some call
          stream := stream.carrying call (packet.crossed call .advanced) }

private theorem getElem?_eq_some_getD {l : List String} {i : ℕ} (h : i < l.length) :
    l[i]? = some (l.getD i "") := by
  simp [List.getD_eq_getElem?_getD, List.getElem?_eq_getElem h]

private theorem getD_of_length_le {l : List String} {i : ℕ} (h : l.length ≤ i) :
    l.getD i "" = "" := by
  simp [List.getD_eq_getElem?_getD, h]

/-- Forwarding a packet that has a hop left asks the gate about that hop and has one of the three
outcomes. -/
theorem PacketRuntime.forward_spec (rt : PacketRuntime F) (stream : BranchStream F)
    {packet : PacketState} (gate : GateEvaluator F)
    (hhop : packet.currentHopIndex + 1 < packet.route.length) :
    Forwarded rt stream packet (packet.gateCall gate) (rt.forward stream packet gate) := by
  have hmore : ¬ packet.route.length - 1 ≤ packet.currentHopIndex := by omega
  simp only [forward, hmore, ↓reduceIte]
  cases hfeas : (packet.gateCall gate).decision.feasible with
  | false =>
      have hfeas' := hfeas
      simp only [PacketState.gateCall] at hfeas'
      simp only [hfeas', Bool.not_false, ↓reduceIte]
      exact .held hfeas
  | true =>
      have hfeas' := hfeas
      simp only [PacketState.gateCall] at hfeas'
      simp only [hfeas', Bool.not_true, Bool.false_eq_true, ↓reduceIte]
      -- past the end of the route `getD` already gives the empty name the source writes
      have hnext : (if packet.currentHopIndex + 1 + 1 < packet.route.length then
          packet.route.getD (packet.currentHopIndex + 1 + 1) "" else "") =
          packet.route.getD (packet.currentHopIndex + 2) "" := by
        split
        · rfl
        · rename_i hge
          rw [getD_of_length_le (by omega)]
      rw [hnext]
      split
      · exact .delivered hfeas (by omega)
      · exact .advanced hfeas (by omega)

/-- What the claim asks of the packet of a stream. -/
structure PacketInv (stream : BranchStream F) (packet : PacketState) : Prop where
  route : packet.route = stream.route
  hop_lt : packet.currentHopIndex < packet.route.length
  currentNode : packet.route[packet.currentHopIndex]? = some packet.currentNode
  nextNode : packet.nextNode = packet.route.getD (packet.currentHopIndex + 1) ""
  delivered : packet.status = .delivered ↔ packet.currentHopIndex + 1 = packet.route.length
  paused : stream.paused = true ↔ packet.status = .pausedOutage

/-- A stream has a route with a hop, and its packet is where its cursor says. -/
structure StreamInv (stream : BranchStream F) : Prop where
  two_le_length : 2 ≤ stream.route.length
  packet : ∀ p, stream.currentPacket = some p → PacketInv stream p

/-- Every stream of the runtime satisfies the stream invariant. -/
def RuntimeInv (rt : PacketRuntime F) : Prop :=
  ∀ k stream, rt.streams.get? k = some stream → StreamInv stream

/-- An undelivered packet has a hop left. -/
theorem PacketInv.hop_succ_lt {stream : BranchStream F} {packet : PacketState}
    (h : PacketInv stream packet) (hs : packet.status ≠ .delivered) :
    packet.currentHopIndex + 1 < packet.route.length := by
  have := h.hop_lt
  have hne : packet.currentHopIndex + 1 ≠ packet.route.length := fun heq => hs (h.delivered.mpr heq)
  omega

/-- The gate is asked about the hop under the cursor. -/
theorem PacketState.gateCall_route {packet : PacketState} (gate : GateEvaluator F)
    (hhop : packet.currentHopIndex + 1 < packet.route.length) :
    packet.route[packet.currentHopIndex]? = some (packet.gateCall gate).src ∧
      packet.route[packet.currentHopIndex + 1]? = some (packet.gateCall gate).dst :=
  ⟨getElem?_eq_some_getD (by omega), getElem?_eq_some_getD hhop⟩

/-- A stream with a new packet satisfies the invariant when its route has a hop. -/
theorem StreamInv.newPacket (uuid4 : IdSupply) {stream : BranchStream F} (n : ℕ)
    (h : 2 ≤ stream.route.length) : StreamInv (stream.newPacket uuid4 n).1 where
  two_le_length := h
  packet := by
    rintro p hp
    obtain rfl := Option.some.inj hp
    exact
      { route := rfl
        hop_lt := by simp only; omega
        currentNode := getElem?_eq_some_getD (by simp only; omega)
        nextNode := rfl
        delivered := by simp only [reduceCtorEq, false_iff]; omega
        paused := by simp [BranchStream.newPacket] }

/-- Forwarding keeps the stream invariant. -/
theorem StreamInv.forward (rt : PacketRuntime F) {stream : BranchStream F}
    {packet : PacketState} (h : StreamInv stream) (hp : stream.currentPacket = some packet)
    (hs : packet.status ≠ .delivered) (gate : GateEvaluator F) :
    StreamInv (rt.forward stream packet gate).stream := by
  have hpacket := h.packet packet hp
  have hhop := hpacket.hop_succ_lt hs
  obtain ⟨hsrc, hdst⟩ := packet.gateCall_route gate hhop
  -- the three outcomes differ in what becomes of the packet only
  generalize rt.forward stream packet gate = result, packet.gateCall gate = call,
    rt.forward_spec stream gate hhop = spec at *
  cases spec with
  | held infeasible =>
      refine ⟨h.two_le_length, fun p heq => ?_⟩
      obtain rfl := Option.some.inj heq
      exact
        { route := hpacket.route
          hop_lt := hpacket.hop_lt
          currentNode := hsrc
          nextNode := by
            simp [PacketState.held, List.getD_eq_getElem?_getD, hdst]
          delivered := by simp only [PacketState.held, reduceCtorEq, false_iff]; omega
          paused := by simp [PacketState.held] }
  | delivered feasible last =>
      refine ⟨h.two_le_length, fun p heq => ?_⟩
      obtain rfl := Option.some.inj heq
      exact
        { route := hpacket.route
          hop_lt := hhop
          currentNode := hdst
          nextNode := rfl
          delivered := by simp only [PacketState.crossed, true_iff]; omega
          paused := by simp [PacketState.crossed, BranchStream.carrying] }
  | advanced feasible inner =>
      refine ⟨h.two_le_length, fun p heq => ?_⟩
      obtain rfl := Option.some.inj heq
      exact
        { route := hpacket.route
          hop_lt := hhop
          currentNode := hdst
          nextNode := rfl
          delivered := by simp only [PacketState.crossed, reduceCtorEq, false_iff]; omega
          paused := by simp [PacketState.crossed, BranchStream.carrying] }

/-- Clearing an outage keeps the stream invariant. -/
theorem StreamInv.cleared {stream : BranchStream F} (h : StreamInv stream) :
    StreamInv stream.cleared where
  two_le_length := h.two_le_length
  packet := by
    intro p hp
    obtain ⟨packet, hpacket, rfl⟩ := Option.map_eq_some_iff.mp hp
    have hinv := h.packet packet hpacket
    by_cases hpaused : packet.status = .pausedOutage
    · simp only [PacketState.cleared, hpaused, ↓reduceIte]
      -- a packet that is paused has not been delivered
      have hnot : packet.currentHopIndex + 1 ≠ packet.route.length := fun heq => by
        simp [hinv.delivered.mpr heq] at hpaused
      exact
        { route := hinv.route
          hop_lt := hinv.hop_lt
          currentNode := hinv.currentNode
          nextNode := hinv.nextNode
          delivered := by simpa using hnot
          paused := by simp [BranchStream.cleared] }
    · simp only [PacketState.cleared, hpaused, ↓reduceIte]
      exact
        { route := hinv.route
          hop_lt := hinv.hop_lt
          currentNode := hinv.currentNode
          nextNode := hinv.nextNode
          delivered := hinv.delivered
          paused := by simp [BranchStream.cleared, hpaused] }

/-- Storing a stream with the invariant keeps the invariant of the runtime. -/
theorem RuntimeInv.set {rt rt' : PacketRuntime F} (h : RuntimeInv rt) (k : String)
    {stream : BranchStream F} (hs : StreamInv stream)
    (hrt : rt'.streams = rt.streams.set k stream) : RuntimeInv rt' := by
  intro k' stream' hget
  rw [hrt, Dict.get?_set] at hget
  split at hget
  · obtain rfl := Option.some.inj hget
    exact hs
  · exact h k' stream' hget

variable (uuid4 : IdSupply)

namespace PacketRuntime

/-- What `readyPacket` leaves on a stream with the invariant satisfies it. -/
theorem readyPacket_inv (rt : PacketRuntime F) {stream : BranchStream F} (h : StreamInv stream) :
    StreamInv (rt.readyPacket uuid4 stream).2.1 := by
  cases hp : stream.currentPacket with
  | none => simpa [readyPacket, hp, draw, BranchStream.newPacket] using
      StreamInv.newPacket uuid4 (rt.sequence + 1) h.two_le_length
  | some packet =>
      by_cases hd : packet.status = .delivered
      · simpa [readyPacket, hp, hd, create, draw] using
          StreamInv.newPacket uuid4 (rt.sequence + 1) h.two_le_length
      · simpa [readyPacket, hp, hd] using h

/-- `readyPacket` stores nothing itself. -/
theorem readyPacket_streams (rt : PacketRuntime F) (stream : BranchStream F) :
    (rt.readyPacket uuid4 stream).1.streams = rt.streams := by
  cases hp : stream.currentPacket with
  | none => simp [readyPacket, hp, draw, BranchStream.newPacket]
  | some packet =>
      by_cases hd : packet.status = .delivered <;> simp [readyPacket, hp, hd, create, draw]

/-- Forwarding stores nothing itself. -/
theorem forward_streams (rt : PacketRuntime F) (stream : BranchStream F) (packet : PacketState)
    (gate : GateEvaluator F) : (rt.forward stream packet gate).runtime.streams = rt.streams := by
  unfold forward
  split
  · rfl
  · dsimp only
    split
    · rfl
    · split <;> rfl

theorem readyPacket_mode (rt : PacketRuntime F) (stream : BranchStream F) :
    (rt.readyPacket uuid4 stream).1.mode = rt.mode := by
  cases hp : stream.currentPacket with
  | none => simp [readyPacket, hp, draw, BranchStream.newPacket]
  | some packet =>
      by_cases hd : packet.status = .delivered <;> simp [readyPacket, hp, hd, create, draw]

theorem forward_mode (rt : PacketRuntime F) (stream : BranchStream F) (packet : PacketState)
    (gate : GateEvaluator F) : (rt.forward stream packet gate).runtime.mode = rt.mode := by
  unfold forward
  split
  · rfl
  · dsimp only
    split
    · rfl
    · split <;> rfl

theorem ensureAt_inv {rt : PacketRuntime F} (h : RuntimeInv rt) (k : String) :
    RuntimeInv (rt.ensureAt uuid4 k) := by
  unfold ensureAt
  split
  · exact h
  · rename_i stream hs
    split
    · exact h
    · exact h.set k (StreamInv.newPacket uuid4 _ (h k stream hs).two_le_length) rfl

theorem readyAt_inv {rt : PacketRuntime F} (h : RuntimeInv rt) (k : String) :
    RuntimeInv (rt.readyAt uuid4 k) := by
  unfold readyAt
  split
  · exact h
  · rename_i stream hs
    exact h.set k (readyPacket_inv uuid4 rt (h k stream hs))
      (by simp [readyPacket_streams])

theorem forwardAt_inv {rt : PacketRuntime F} (h : RuntimeInv rt) (k : String)
    (gate : GateEvaluator F) : RuntimeInv (rt.forwardAt k gate).runtime := by
  unfold forwardAt
  split
  · exact h
  · rename_i stream hs
    split
    · exact h
    · rename_i packet hp
      split
      · exact h
      · rename_i hd
        refine h.set k ((h k stream hs).forward rt hp hd gate) ?_
        rw [setStream_streams, forward_streams]

theorem clearAt_inv {rt : PacketRuntime F} (h : RuntimeInv rt) (k : String) :
    RuntimeInv (rt.clearAt k) := by
  unfold clearAt
  split
  · exact h
  · rename_i stream hs
    exact h.set k (h k stream hs).cleared rfl

theorem replaceRoute_inv {rt : PacketRuntime F} (h : RuntimeInv rt) (k : String)
    (route : List String) : RuntimeInv (rt.replaceRoute uuid4 k route) := by
  unfold replaceRoute
  split
  · exact h
  · split
    · exact h
    · rename_i hlen
      exact h.set k (StreamInv.newPacket uuid4 _ (Nat.le_of_not_lt hlen)) rfl

end PacketRuntime

open PacketRuntime

/-- Every move keeps the invariant. -/
theorem History.move_inv {h : History F} (m : Move F) (hinv : RuntimeInv h.runtime) :
    RuntimeInv (h.move uuid4 m).runtime := by
  cases m with
  | ensure k => exact ensureAt_inv uuid4 hinv k
  | ready k => exact readyAt_inv uuid4 hinv k
  | forward k gate => exact forwardAt_inv hinv k gate
  | clear k => exact clearAt_inv hinv k
  | replace k route => exact replaceRoute_inv uuid4 hinv k route

/-- The streams of `from_branches` have a route with a hop and no packet yet. -/
theorem fromBranches_inv (branches : List (List ℤ)) (mode source experimentId runId : String)
    (packetSizeBytes : ℤ) :
    RuntimeInv (.fromBranches branches mode source experimentId runId packetSizeBytes :
      PacketRuntime F) := by
  intro k stream hget
  obtain ⟨⟨branch, i⟩, _, hbranch⟩ := List.mem_filterMap.mp (Dict.mem_of_get?_ofList hget)
  dsimp only at hbranch
  split at hbranch
  · cases hbranch
  · rename_i hlen
    obtain ⟨rfl, rfl⟩ := Prod.mk.inj (Option.some.inj hbranch)
    exact ⟨Nat.le_of_not_lt hlen, by simp⟩

/-- In every state that calls can reach from `from_branches`, with any gate answers, the packet of
a stream has the route of the stream, which has at least two nodes; its cursor is on the route; its
current and next node are those at the cursor, the next one empty at the end; it is delivered
exactly at the end of the route; and the stream is paused exactly when the packet is held by an
outage. -/
theorem packet_consistent (branches : List (List ℤ)) (mode source experimentId runId : String)
    (packetSizeBytes : ℤ) (ops : List (Op F)) (k : String) (stream : BranchStream F)
    (packet : PacketState) :
    let rt := (Run.run (History.perform uuid4)
      (.start branches mode source experimentId runId packetSizeBytes) ops).runtime
    rt.streams.get? k = some stream → stream.currentPacket = some packet →
      2 ≤ packet.route.length ∧ packet.route = stream.route ∧
      packet.currentHopIndex ≤ packet.route.length - 1 ∧
      packet.route[packet.currentHopIndex]? = some packet.currentNode ∧
      (packet.currentHopIndex < packet.route.length - 1 →
        packet.route[packet.currentHopIndex + 1]? = some packet.nextNode) ∧
      (¬ packet.currentHopIndex < packet.route.length - 1 → packet.nextNode = "") ∧
      (packet.status = .delivered ↔ packet.currentHopIndex = packet.route.length - 1) ∧
      (stream.paused = true ↔ packet.status = .pausedOutage) := by
  intro rt hk hp
  have hrt : RuntimeInv rt := History.run_invariant_of_moves uuid4
    (fun h => RuntimeInv h.runtime) (fun h m => History.move_inv uuid4 m)
    (fromBranches_inv branches mode source experimentId runId packetSizeBytes) ops
  have hinv := (hrt k stream hk).packet packet hp
  have hlen : 2 ≤ packet.route.length := hinv.route ▸ (hrt k stream hk).two_le_length
  have hlt := hinv.hop_lt
  refine ⟨hlen, hinv.route, by omega, hinv.currentNode, fun hmore => ?_, fun hend => ?_, ?_,
    hinv.paused⟩
  · rw [hinv.nextNode, getElem?_eq_some_getD (by omega)]
  · rw [hinv.nextNode, getD_of_length_le (by omega)]
  · rw [hinv.delivered]
    omega

/-- A packet that crossed the first of two hops. -/
theorem packet_consistent_advanced :
    ∃ stream packet,
      (Run.run (History.perform (F := ℚ) .unary) (.start [[1, 2]] "chain" "station" "" "" 512)
        [.step fun _ => openGate]).runtime.streams.get? "branch_0" = some stream ∧
      stream.currentPacket = some packet ∧ packet.currentHopIndex = 1 ∧
      packet.route[packet.currentHopIndex]? = some packet.currentNode ∧
      (stream.paused = true ↔ packet.status = .pausedOutage) := by
  refine ⟨_, _, rfl, rfl, rfl, ?_⟩
  obtain ⟨_, _, _, hnode, _, _, _, hpaused⟩ := packet_consistent (F := ℚ) .unary [[1, 2]] "chain"
    "station" "" "" 512 [.step fun _ => openGate] "branch_0" _ _ rfl rfl
  exact ⟨hnode, hpaused⟩

end Netlab.Packet
