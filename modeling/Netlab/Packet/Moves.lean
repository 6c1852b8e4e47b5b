import Netlab.Packet.Runtime

/-!
# Calls as sequences of moves

Each call of the runtime is a sequence of elementary moves on single streams: give the stream a
packet, make its packet ready, forward the packet, clear its outage, replace its route. A move
changes one stream, so a property of all runs is proved once for each move, and
`History.perform_eq_run` carries it over to the calls.
-/

namespace Netlab.Packet

variable {F : Type} (uuid4 : IdSupply)

/-- An elementary move on the stream of one branch. -/
inductive Move (F : Type)
  /-- the loop body of `ensure_packets` -/
  | ensure (branchId : String)
  /-- the first part of `step_stream` -/
  | ready (branchId : String)
  /-- the second part of `step_stream` -/
  | forward (branchId : String) (gate : GateEvaluator F)
  /-- the loop body of `clear_outage` -/
  | clear (branchId : String)
  /-- `replace_route` -/
  | replace (branchId : String) (route : List String)

namespace PacketRuntime

/-- Make the packet of a stream ready and store the stream back. -/
def readyAt (rt : PacketRuntime F) (branchId : String) : PacketRuntime F :=
  match rt.streams.get? branchId with
  | none => rt
  | some stream =>
      let (rt, stream, _) := rt.readyPacket uuid4 stream
      rt.setStream branchId stream

/-- Forward the undelivered packet of a stream; a stream without one is left alone. -/
def forwardAt (rt : PacketRuntime F) (branchId : String) (gate : GateEvaluator F) : Outcome F :=
  match rt.streams.get? branchId with
  | none => { runtime := rt }
  | some stream =>
      match stream.currentPacket with
      | none => { runtime := rt }
      | some packet =>
          if packet.status = .delivered then { runtime := rt }
          else
            let result := rt.forward stream packet gate
            { runtime := result.runtime.setStream branchId result.stream
              emitted := [result.event]
              asked := result.asked.toList }

end PacketRuntime

/-- Perform a move and extend the record of what the gate was asked. -/
def History.move (h : History F) : Move F → History F
  | .ensure branchId => { h with runtime := h.runtime.ensureAt uuid4 branchId }
  | .ready branchId => { h with runtime := h.runtime.readyAt uuid4 branchId }
  | .forward branchId gate =>
      let outcome := h.runtime.forwardAt branchId gate
      { runtime := outcome.runtime, asked := h.asked ++ outcome.asked }
  | .clear branchId => { h with runtime := h.runtime.clearAt branchId }
  | .replace branchId route => { h with runtime := h.runtime.replaceRoute uuid4 branchId route }

/-- The moves of stepping the streams of `keys` one after the other. -/
def stepMoves (gate : ℕ → GateEvaluator F) : List String → List (Move F)
  | [] => []
  | branchId :: rest =>
      .ready branchId :: .forward branchId (gate 0) :: stepMoves (fun i => gate (i + 1)) rest

/-- The streams that `step` steps: the first one in chain mode, all of them otherwise. -/
def PacketRuntime.stepKeys (rt : PacketRuntime F) : List String :=
  if rt.mode = "chain" then rt.streams.keys.take 1 else rt.streams.keys

/-- The moves that make up a call. -/
def Op.moves (rt : PacketRuntime F) : Op F → List (Move F)
  | .ensurePackets => rt.streams.keys.map .ensure
  | .step gate => rt.streams.keys.map .ensure ++ stepMoves gate rt.stepKeys
  | .stepStream branchId gate => [.ready branchId, .forward branchId gate]
  | .clearOutage branchId => (rt.clearTargets branchId).map .clear
  | .replaceRoute branchId route => [.replace branchId route]

namespace PacketRuntime

@[simp] theorem event_streams (rt : PacketRuntime F) (payload : EventPayload F)
    (severity entity : String) :
    (rt.event payload severity entity).1.streams = rt.streams := rfl

@[simp] theorem event_mode (rt : PacketRuntime F) (payload : EventPayload F)
    (severity entity : String) : (rt.event payload severity entity).1.mode = rt.mode := rfl

@[simp] theorem event_sequence (rt : PacketRuntime F) (payload : EventPayload F)
    (severity entity : String) : (rt.event payload severity entity).1.sequence = rt.sequence := rfl

@[simp] theorem event_events (rt : PacketRuntime F) (payload : EventPayload F)
    (severity entity : String) :
    (rt.event payload severity entity).1.events =
      rt.events ++ [(rt.event payload severity entity).2] := rfl

@[simp] theorem event_payload (rt : PacketRuntime F) (payload : EventPayload F)
    (severity entity : String) : (rt.event payload severity entity).2.payload = payload := rfl

@[simp] theorem setStream_streams (rt : PacketRuntime F) (branchId : String)
    (stream : BranchStream F) :
    (rt.setStream branchId stream).streams = rt.streams.set branchId stream := rfl

@[simp] theorem setStream_events (rt : PacketRuntime F) (branchId : String)
    (stream : BranchStream F) : (rt.setStream branchId stream).events = rt.events := rfl

@[simp] theorem setStream_sequence (rt : PacketRuntime F) (branchId : String)
    (stream : BranchStream F) : (rt.setStream branchId stream).sequence = rt.sequence := rfl

@[simp] theorem setStream_mode (rt : PacketRuntime F) (branchId : String)
    (stream : BranchStream F) : (rt.setStream branchId stream).mode = rt.mode := rfl

/-- The packet that `readyPacket` hands on is the one the stream carries. -/
theorem readyPacket_current (rt : PacketRuntime F) (stream : BranchStream F) :
    (rt.readyPacket uuid4 stream).2.1.currentPacket =
      some (rt.readyPacket uuid4 stream).2.2 := by
  cases hp : stream.currentPacket with
  | none => simp [readyPacket, hp, draw, BranchStream.newPacket]
  | some packet =>
      by_cases hd : packet.status = .delivered
      · simp [readyPacket, hp, hd, create, draw, BranchStream.newPacket]
      · simp [readyPacket, hp, hd]

/-- The packet that `readyPacket` hands on is not delivered. -/
theorem readyPacket_status (rt : PacketRuntime F) (stream : BranchStream F) :
    (rt.readyPacket uuid4 stream).2.2.status ≠ .delivered := by
  cases hp : stream.currentPacket with
  | none => simp [readyPacket, hp, draw, BranchStream.newPacket]
  | some packet =>
      by_cases hd : packet.status = .delivered
      · simp [readyPacket, hp, hd, create, draw, BranchStream.newPacket]
      · simp [readyPacket, hp, hd]

/-- Storing the stream before forwarding changes neither the result nor what is returned. -/
private theorem forward_setStream (rt : PacketRuntime F) (branchId : String)
    (stream stream' : BranchStream F) (packet : PacketState) (gate : GateEvaluator F) :
    (rt.setStream branchId stream').forward stream packet gate =
      let result := rt.forward stream packet gate
      { result with runtime := result.runtime.setStream branchId stream' } := by
  unfold forward
  split
  · rfl
  · dsimp only
    split
    · rfl
    · split <;> rfl

/-- A call of `step_stream` makes the packet ready and then forwards it. -/
theorem stepAt_eq (rt : PacketRuntime F) (branchId : String) (gate : GateEvaluator F) :
    rt.stepAt uuid4 branchId gate = (rt.readyAt uuid4 branchId).forwardAt branchId gate := by
  cases hs : rt.streams.get? branchId with
  | none => simp [stepAt, readyAt, forwardAt, hs]
  | some stream =>
      have hcur := readyPacket_current uuid4 rt stream
      have hstatus := readyPacket_status uuid4 rt stream
      have hready : rt.readyAt uuid4 branchId =
          (rt.readyPacket uuid4 stream).1.setStream branchId
            (rt.readyPacket uuid4 stream).2.1 := by
        simp [readyAt, hs]
      rw [hready]
      simp only [stepAt, hs, stepStream, forwardAt, setStream_streams, Dict.get?_set_self, hcur,
        hstatus, ↓reduceIte, forward_setStream]
      simp [setStream]

end PacketRuntime

open PacketRuntime

/-- The moves of `ensure_packets` give its result. -/
private theorem run_ensure (h : History F) (keys : List String) :
    Run.run (History.move uuid4) h (keys.map .ensure) =
      { h with runtime := keys.foldl (ensureAt uuid4) h.runtime } := by
  induction keys generalizing h with
  | nil => rfl
  | cons k keys ih => rw [List.map_cons, Run.run_cons, ih]; rfl

/-- The moves of `clear_outage` give its result. -/
private theorem run_clear (h : History F) (keys : List String) :
    Run.run (History.move uuid4) h (keys.map .clear) =
      { h with runtime := keys.foldl clearAt h.runtime } := by
  induction keys generalizing h with
  | nil => rfl
  | cons k keys ih => rw [List.map_cons, Run.run_cons, ih]; rfl

/-- The moves of the loop of `step` give its result. -/
private theorem run_stepMoves (h : History F) (gate : ℕ → GateEvaluator F)
    (keys : List String) :
    Run.run (History.move uuid4) h (stepMoves gate keys) =
      { runtime := (stepEach uuid4 gate keys h.runtime).runtime
        asked := h.asked ++ (stepEach uuid4 gate keys h.runtime).asked } := by
  induction keys generalizing h gate with
  | nil => simp [stepMoves, stepEach]
  | cons k keys ih =>
      simp only [stepMoves, Run.run_cons, ih, stepEach, stepAt_eq, History.move,
        List.append_assoc]

/-- The loop body of `ensure_packets` keeps the branches and the mode. -/
private theorem ensureAt_keys_mode (rt : PacketRuntime F) (k : String) :
    (rt.ensureAt uuid4 k).streams.keys = rt.streams.keys ∧
      (rt.ensureAt uuid4 k).mode = rt.mode := by
  unfold ensureAt
  split
  · simp
  · rename_i stream hs
    split
    · simp
    · refine ⟨?_, rfl⟩
      exact Dict.keys_set_of_mem _ (Dict.mem_keys_iff.mpr ⟨stream, hs⟩)

/-- `ensure_packets` keeps the branches and the mode. -/
theorem keys_mode_ensurePackets (rt : PacketRuntime F) :
    (rt.ensurePackets uuid4).streams.keys = rt.streams.keys ∧
      (rt.ensurePackets uuid4).mode = rt.mode := by
  refine List.foldlRecOn (motive := fun rt' : PacketRuntime F =>
    rt'.streams.keys = rt.streams.keys ∧ rt'.mode = rt.mode)
    rt.streams.keys (ensureAt uuid4) ⟨rfl, rfl⟩ (fun rt' hrt' k _ => ?_)
  obtain ⟨hk, hm⟩ := ensureAt_keys_mode uuid4 rt' k
  exact ⟨hk.trans hrt'.1, hm.trans hrt'.2⟩

/-- `ensure_packets` keeps the streams to step. -/
theorem stepKeys_ensurePackets (rt : PacketRuntime F) :
    (rt.ensurePackets uuid4).stepKeys = rt.stepKeys := by
  obtain ⟨hkeys, hmode⟩ := keys_mode_ensurePackets uuid4 rt
  simp only [stepKeys, hkeys, hmode]

/-- Calls refine to moves: a call has the effect of its moves performed in order. -/
theorem History.perform_eq_run (h : History F) (op : Op F) :
    h.perform uuid4 op = Run.run (History.move uuid4) h (op.moves h.runtime) := by
  cases op with
  | ensurePackets => simp [Op.moves, run_ensure, perform, Packet.perform, ensurePackets]
  | step gate =>
      rw [Op.moves, Run.run_append, run_ensure, run_stepMoves]
      simp only [perform, Packet.perform, PacketRuntime.step]
      rw [← stepKeys_ensurePackets uuid4 h.runtime]
      rfl
  | stepStream branchId gate =>
      simp [Op.moves, perform, Packet.perform, stepAt_eq, History.move]
  | clearOutage branchId =>
      simp [Op.moves, run_clear, perform, Packet.perform, PacketRuntime.clearOutage]
  | replaceRoute branchId route => simp [Op.moves, perform, Packet.perform, History.move]

/-- What every move preserves holds after every run of calls. -/
theorem History.run_invariant_of_moves (Inv : History F → Prop)
    (hmove : ∀ h m, Inv h → Inv (h.move uuid4 m)) {h : History F} (hh : Inv h)
    (ops : List (Op F)) : Inv (Run.run (History.perform uuid4) h ops) := by
  refine Run.run_invariant Inv (fun h op hi => ?_) hh ops
  rw [perform_eq_run]
  exact Run.run_invariant Inv hmove hi _

end Netlab.Packet
