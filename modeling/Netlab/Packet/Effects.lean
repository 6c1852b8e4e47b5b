import Netlab.Packet.Invariant

/-!
# What a move can do

A move on a runtime with the stream invariant does one of four things: nothing, put a new packet on
one stream (`Drawn`), put the packet of one stream to the gate (`Answered`), or change what neither
the counters nor the cursors depend on (`Kept`). `History.move_effect` states this once; every
property of runs is derived from it.
-/

namespace Netlab.Packet

variable {F : Type}

/-- The packets of the creation events of a log, in order. -/
def creations (events : List (RuntimeEvent F)) : List PacketState :=
  events.filterMap fun ev =>
    match ev.payload with
    | .packetCreated packet => some packet
    | _ => none

/-- The packets of the delivery events of a log, in order. -/
def deliveries (events : List (RuntimeEvent F)) : List PacketState :=
  events.filterMap fun ev =>
    match ev.payload with
    | .packetDelivered packet _ => some packet
    | _ => none

@[simp] theorem creations_append (events events' : List (RuntimeEvent F)) :
    creations (events ++ events') = creations events ++ creations events' := by
  simp [creations]

@[simp] theorem deliveries_append (events events' : List (RuntimeEvent F)) :
    deliveries (events ++ events') = deliveries events ++ deliveries events' := by
  simp [deliveries]

/-- A stream has a packet that is not delivered yet. -/
def BranchStream.InFlight (stream : BranchStream F) : Prop :=
  ∃ p, stream.currentPacket = some p ∧ p.status ≠ .delivered

/-- A new packet was put on the stream of branch `k`; `announced` tells whether a creation event
says so. -/
structure Drawn (uuid4 : IdSupply) (h h' : History F) (k : String)
    (stream stream' : BranchStream F) (p : PacketState) (announced : Bool) : Prop where
  get : h.runtime.streams.get? k = some stream
  set : h'.runtime.streams = h.runtime.streams.set k stream'
  current : stream'.currentPacket = some p
  branchId : stream'.branchId = stream.branchId
  completed : stream'.completedPackets = stream.completedPackets
  dropped : stream'.droppedPackets = stream.droppedPackets
  packetBranch : p.branchId = stream.branchId
  packetId : p.packetId = uuid4.id (h.runtime.sequence + 1)
  number : p.sequenceNumber = h.runtime.sequence + 1
  start : p.currentHopIndex = 0
  fresh : p.status ≠ .delivered
  sequence : h'.runtime.sequence = h.runtime.sequence + 1
  events : ∃ ev, h'.runtime.events = h.runtime.events ++ ev ∧ deliveries ev = [] ∧
    creations ev = if announced then [p] else []
  asked : h'.asked = h.asked

/-- The undelivered packet `p` of branch `k` was put to the gate and became `p'`. -/
structure Answered (h h' : History F) (k : String) (stream stream' : BranchStream F)
    (p p' : PacketState) (call : GateCall F) : Prop where
  get : h.runtime.streams.get? k = some stream
  set : h'.runtime.streams = h.runtime.streams.set k stream'
  before : stream.currentPacket = some p
  undelivered : p.status ≠ .delivered
  after : stream'.currentPacket = some p'
  branchId : stream'.branchId = stream.branchId
  dropped : stream'.droppedPackets = stream.droppedPackets
  completed : stream'.completedPackets =
    stream.completedPackets + if p'.status = .delivered then 1 else 0
  packetBranch : p'.branchId = p.branchId
  packetId : p'.packetId = p.packetId
  number : p'.sequenceNumber = p.sequenceNumber
  route : p'.route = p.route
  about : call.sequenceNumber = p.sequenceNumber
  src : p.route[p.currentHopIndex]? = some call.src
  dst : p.route[p.currentHopIndex + 1]? = some call.dst
  hop : p'.currentHopIndex =
    if call.decision.feasible then p.currentHopIndex + 1 else p.currentHopIndex
  arrived : p'.status = .delivered → p'.currentHopIndex = p'.route.length - 1
  sequence : h'.runtime.sequence = h.runtime.sequence
  events : ∃ ev, h'.runtime.events = h.runtime.events ++ ev ∧ creations ev = [] ∧
    deliveries ev = if p'.status = .delivered then [p'] else []
  asked : h'.asked = h.asked ++ [call]

/-- Two packets that differ at most in what an outage changes. -/
structure PacketState.Agree (p p' : PacketState) : Prop where
  branchId : p'.branchId = p.branchId
  packetId : p'.packetId = p.packetId
  number : p'.sequenceNumber = p.sequenceNumber
  route : p'.route = p.route
  hop : p'.currentHopIndex = p.currentHopIndex
  delivered : p'.status = .delivered ↔ p.status = .delivered

/-- The stream of branch `k` was changed in nothing but its outage. -/
structure Kept (h h' : History F) (k : String) (stream stream' : BranchStream F)
    (change : PacketState → PacketState) : Prop where
  get : h.runtime.streams.get? k = some stream
  set : h'.runtime.streams = h.runtime.streams.set k stream'
  current : stream'.currentPacket = stream.currentPacket.map change
  agree : ∀ p : PacketState, p.Agree (change p)
  branchId : stream'.branchId = stream.branchId
  completed : stream'.completedPackets = stream.completedPackets
  dropped : stream'.droppedPackets = stream.droppedPackets
  sequence : h'.runtime.sequence = h.runtime.sequence
  events : ∃ ev, h'.runtime.events = h.runtime.events ++ ev ∧ creations ev = [] ∧
    deliveries ev = []
  asked : h'.asked = h.asked

/-- A move that replaces an undelivered packet. -/
def Move.Lossy (rt : PacketRuntime F) : Move F → Prop
  | .replace k route =>
      2 ≤ route.length ∧ ∃ stream, rt.streams.get? k = some stream ∧ stream.InFlight
  | _ => False

/-- A move that draws a packet without a creation event. -/
def Move.Silent (rt : PacketRuntime F) : Move F → Prop
  | .ready k => ∃ stream, rt.streams.get? k = some stream ∧ stream.currentPacket = none
  | .replace k route => 2 ≤ route.length ∧ k ∈ rt.streams.keys
  | _ => False

/-- The effects of a move `m` on `h`. -/
inductive Effect (uuid4 : IdSupply) (h : History F) (m : Move F) : History F → Prop
  | idle (lossless : ¬ m.Lossy h.runtime) (audible : ¬ m.Silent h.runtime) : Effect uuid4 h m h
  | drawn {h' k stream stream' p announced}
      (effect : Drawn uuid4 h h' k stream stream' p announced)
      (lossy : m.Lossy h.runtime ↔ stream.InFlight)
      (silent : m.Silent h.runtime ↔ announced = false) : Effect uuid4 h m h'
  | answered {h' k stream stream' p p' call}
      (effect : Answered h h' k stream stream' p p' call)
      (lossless : ¬ m.Lossy h.runtime) (audible : ¬ m.Silent h.runtime) : Effect uuid4 h m h'
  | kept {h' k stream stream' change} (effect : Kept h h' k stream stream' change)
      (lossless : ¬ m.Lossy h.runtime) (audible : ¬ m.Silent h.runtime) : Effect uuid4 h m h'

/-! ## The effect of each move -/

theorem PacketState.Agree.refl (p : PacketState) : p.Agree p :=
  ⟨rfl, rfl, rfl, rfl, rfl, Iff.rfl⟩

private theorem agree_cleared (p : PacketState) : p.Agree p.cleared := by
  unfold PacketState.cleared
  split
  · exact ⟨rfl, rfl, rfl, rfl, rfl, by simp_all⟩
  · exact .refl p

private theorem inFlight_iff {stream : BranchStream F} {p : PacketState}
    (hp : stream.currentPacket = some p) : stream.InFlight ↔ p.status ≠ .delivered := by
  simp [BranchStream.InFlight, hp]

variable (uuid4 : IdSupply) (h : History F)

private theorem ensure_effect (k : String) :
    Effect uuid4 h (.ensure k) (h.move uuid4 (.ensure k)) := by
  cases hk : h.runtime.streams.get? k with
  | none =>
      have hmove : h.move uuid4 (.ensure k) = h := by
        simp [History.move, PacketRuntime.ensureAt, hk]
      rw [hmove]
      exact .idle id id
  | some stream =>
      cases hp : stream.currentPacket with
      | some p =>
          have hmove : h.move uuid4 (.ensure k) = h := by
            simp [History.move, PacketRuntime.ensureAt, hk, hp]
          rw [hmove]
          exact .idle id id
      | none =>
          -- the stream has no packet, so one is created and announced
          have effect : Drawn uuid4 h (h.move uuid4 (.ensure k)) k stream
              (stream.newPacket uuid4 (h.runtime.sequence + 1)).1
              (stream.newPacket uuid4 (h.runtime.sequence + 1)).2 true := by
            simp only [History.move, PacketRuntime.ensureAt, hk, hp]
            exact
              { get := hk, set := rfl, current := rfl, branchId := rfl, completed := rfl
                dropped := rfl, packetBranch := rfl, packetId := rfl, number := rfl, start := rfl
                fresh := by simp [BranchStream.newPacket], sequence := rfl
                events := ⟨_, rfl, rfl, rfl⟩, asked := rfl }
          exact .drawn effect (by simp [Move.Lossy, BranchStream.InFlight, hp])
            (by simp [Move.Silent])

private theorem ready_effect (k : String) :
    Effect uuid4 h (.ready k) (h.move uuid4 (.ready k)) := by
  cases hk : h.runtime.streams.get? k with
  | none =>
      -- there is no such stream
      have hmove : h.move uuid4 (.ready k) = h := by
        simp [History.move, PacketRuntime.readyAt, hk]
      rw [hmove]
      exact .idle id (by simp [Move.Silent, hk])
  | some stream =>
      cases hp : stream.currentPacket with
      | none =>
          -- the stream has no packet, so its first one is drawn silently
          have effect : Drawn uuid4 h (h.move uuid4 (.ready k)) k stream
              (stream.newPacket uuid4 (h.runtime.sequence + 1)).1
              (stream.newPacket uuid4 (h.runtime.sequence + 1)).2 false := by
            simp only [History.move, PacketRuntime.readyAt, hk, PacketRuntime.readyPacket, hp]
            exact
              { get := hk, set := rfl, current := rfl, branchId := rfl, completed := rfl
                dropped := rfl, packetBranch := rfl, packetId := rfl, number := rfl, start := rfl
                fresh := by simp [BranchStream.newPacket], sequence := rfl
                events := ⟨[], by simp [PacketRuntime.draw, BranchStream.newPacket], rfl, rfl⟩
                asked := rfl }
          exact .drawn effect (by simp [Move.Lossy, BranchStream.InFlight, hp])
            (by simp [Move.Silent, hk, hp])
      | some p =>
          by_cases hd : p.status = .delivered
          · -- the old packet was delivered, so a new one is drawn and announced
            have effect : Drawn uuid4 h (h.move uuid4 (.ready k)) k stream
                (stream.newPacket uuid4 (h.runtime.sequence + 1)).1
                (stream.newPacket uuid4 (h.runtime.sequence + 1)).2 true := by
              simp only [History.move, PacketRuntime.readyAt, hk, PacketRuntime.readyPacket, hp, hd]
              exact
                { get := hk, set := rfl, current := rfl, branchId := rfl, completed := rfl
                  dropped := rfl, packetBranch := rfl, packetId := rfl, number := rfl, start := rfl
                  fresh := by simp [BranchStream.newPacket], sequence := rfl
                  events := ⟨_, rfl, rfl, rfl⟩, asked := rfl }
            exact .drawn effect (by simp [Move.Lossy, inFlight_iff hp, hd])
              (by simp [Move.Silent, hk, hp])
          · -- the packet is still on its way
            have effect : Kept h (h.move uuid4 (.ready k)) k stream stream id := by
              simp only [History.move, PacketRuntime.readyAt, hk, PacketRuntime.readyPacket, hp,
                hd, ↓reduceIte]
              exact
                { get := hk, set := rfl, current := by simp, agree := .refl, branchId := rfl
                  completed := rfl, dropped := rfl, sequence := rfl
                  events := ⟨[], by simp, rfl, rfl⟩, asked := rfl }
            exact .kept effect id (by simp [Move.Silent, hk, hp])

/-- Each outcome of forwarding a packet answers the question put to the gate. -/
private theorem answered_of_forwarded {k : String} {stream : BranchStream F} {p : PacketState}
    {call : GateCall F} {result : StreamStep F} (hk : h.runtime.streams.get? k = some stream)
    (hp : stream.currentPacket = some p) (hd : p.status ≠ .delivered)
    (habout : call.sequenceNumber = p.sequenceNumber)
    (hroute : p.route[p.currentHopIndex]? = some call.src ∧
      p.route[p.currentHopIndex + 1]? = some call.dst)
    (spec : Forwarded h.runtime stream p call result) :
    ∃ p', Answered h
      { runtime := result.runtime.setStream k result.stream
        asked := h.asked ++ result.asked.toList } k stream result.stream p p' call := by
  obtain ⟨hsrc, hdst⟩ := hroute
  cases spec with
  -- the packet stays before the hop
  | held infeasible =>
      refine ⟨p.held call, ?_⟩
      exact
        { get := hk, set := rfl, before := hp, undelivered := hd, after := rfl
          branchId := rfl, dropped := rfl, completed := rfl, packetBranch := rfl
          packetId := rfl, number := rfl, route := rfl, about := habout, src := hsrc
          dst := hdst, hop := by simp [PacketState.held, infeasible]
          arrived := by simp [PacketState.held], sequence := rfl
          events := ⟨_, rfl, rfl, rfl⟩, asked := rfl }
  -- the packet crosses the last hop
  | delivered feasible last =>
      refine ⟨p.crossed call .delivered, ?_⟩
      exact
        { get := hk, set := rfl, before := hp, undelivered := hd, after := rfl
          branchId := rfl, dropped := rfl, completed := rfl, packetBranch := rfl
          packetId := rfl, number := rfl, route := rfl, about := habout, src := hsrc
          dst := hdst, hop := by simp [PacketState.crossed, feasible]
          arrived := by simp only [PacketState.crossed]; omega, sequence := rfl
          events := ⟨_, rfl, rfl, rfl⟩, asked := rfl }
  -- the packet crosses a hop that is not the last one
  | advanced feasible inner =>
      refine ⟨p.crossed call .advanced, ?_⟩
      exact
        { get := hk, set := rfl, before := hp, undelivered := hd, after := rfl
          branchId := rfl, dropped := rfl, completed := rfl, packetBranch := rfl
          packetId := rfl, number := rfl, route := rfl, about := habout, src := hsrc
          dst := hdst, hop := by simp [PacketState.crossed, feasible]
          arrived := by simp [PacketState.crossed], sequence := rfl
          events := ⟨_, rfl, rfl, rfl⟩, asked := rfl }

private theorem forward_effect (inv : RuntimeInv h.runtime) (k : String)
    (gate : GateEvaluator F) :
    Effect uuid4 h (.forward k gate) (h.move uuid4 (.forward k gate)) := by
  -- without a packet on its way the move changes nothing
  have hidle : h.move uuid4 (.forward k gate) = h →
      Effect uuid4 h (.forward k gate) (h.move uuid4 (.forward k gate)) := fun hmove => by
    rw [hmove]
    exact .idle id id
  cases hk : h.runtime.streams.get? k with
  | none => exact hidle (by simp [History.move, PacketRuntime.forwardAt, hk])
  | some stream =>
      cases hp : stream.currentPacket with
      | none => exact hidle (by simp [History.move, PacketRuntime.forwardAt, hk, hp])
      | some p =>
          by_cases hd : p.status = .delivered
          · exact hidle (by simp [History.move, PacketRuntime.forwardAt, hk, hp, hd])
          · have hhop := ((inv k stream hk).packet p hp).hop_succ_lt hd
            have hmove : h.move uuid4 (.forward k gate) =
                { runtime := (h.runtime.forward stream p gate).runtime.setStream k
                    (h.runtime.forward stream p gate).stream
                  asked := h.asked ++ (h.runtime.forward stream p gate).asked.toList } := by
              simp [History.move, PacketRuntime.forwardAt, hk, hp, hd]
            have spec := h.runtime.forward_spec stream gate hhop
            rw [hmove]
            obtain ⟨p', effect⟩ := answered_of_forwarded h hk hp hd rfl
              (p.gateCall_route gate hhop) spec
            exact .answered effect id id

private theorem clear_effect (k : String) :
    Effect uuid4 h (.clear k) (h.move uuid4 (.clear k)) := by
  cases hk : h.runtime.streams.get? k with
  | none =>
      have hmove : h.move uuid4 (.clear k) = h := by
        simp [History.move, PacketRuntime.clearAt, hk]
      rw [hmove]
      exact .idle id id
  | some stream =>
      have effect : Kept h (h.move uuid4 (.clear k)) k stream stream.cleared
          PacketState.cleared := by
        simp only [History.move, PacketRuntime.clearAt, hk]
        exact
          { get := hk, set := rfl, current := rfl, agree := agree_cleared, branchId := rfl
            completed := rfl, dropped := rfl, sequence := rfl, events := ⟨_, rfl, rfl, rfl⟩
            asked := rfl }
      exact .kept effect id id

private theorem replace_effect (k : String) (route : List String) :
    Effect uuid4 h (.replace k route) (h.move uuid4 (.replace k route)) := by
  cases hk : h.runtime.streams.get? k with
  | none =>
      have hmove : h.move uuid4 (.replace k route) = h := by
        simp [History.move, PacketRuntime.replaceRoute, hk]
      rw [hmove]
      exact .idle (by simp [Move.Lossy, hk]) (by simp [Move.Silent, Dict.mem_keys_iff, hk])
  | some stream =>
      by_cases hlen : route.length < 2
      · have hmove : h.move uuid4 (.replace k route) = h := by
          simp [History.move, PacketRuntime.replaceRoute, hk, hlen]
        rw [hmove]
        exact .idle (fun hl => by have := hl.1; omega) (fun hs => by have := hs.1; omega)
      · have hlen' : 2 ≤ route.length := by omega
        let stream₀ : BranchStream F := { stream with
          route, source := route.getD 0 "", destination := route.getLastD "" }
        -- a packet is drawn for the new route, without an announcement
        have effect : Drawn uuid4 h (h.move uuid4 (.replace k route)) k stream
            (stream₀.newPacket uuid4 (h.runtime.sequence + 1)).1
            (stream₀.newPacket uuid4 (h.runtime.sequence + 1)).2 false := by
          simp only [History.move, PacketRuntime.replaceRoute, hk, hlen, ↓reduceIte]
          exact
            { get := hk, set := rfl, current := rfl, branchId := rfl, completed := rfl
              dropped := rfl, packetBranch := rfl, packetId := rfl, number := rfl, start := rfl
              fresh := by simp [BranchStream.newPacket], sequence := rfl
              events := ⟨_, rfl, rfl, rfl⟩, asked := rfl }
        exact .drawn effect (by simp [Move.Lossy, hk, hlen'])
          (by simp [Move.Silent, Dict.mem_keys_iff, hk, hlen'])

/-- What a move can do, on a runtime with the stream invariant. -/
theorem History.move_effect (inv : RuntimeInv h.runtime) (m : Move F) :
    Effect uuid4 h m (h.move uuid4 m) := by
  cases m with
  | ensure k => exact ensure_effect uuid4 h k
  | ready k => exact ready_effect uuid4 h k
  | forward k gate => exact forward_effect uuid4 h inv k gate
  | clear k => exact clear_effect uuid4 h k
  | replace k route => exact replace_effect uuid4 h k route

end Netlab.Packet
