import Netlab.Models
import Netlab.Prelude.Dict
import Netlab.Prelude.Run

/-!
# The packet runtime

The packet and branch-stream state machine of `netlab/packet.py`. A `PacketRuntime` owns one
`BranchStream` for each branch; a stream carries at most one packet, whose cursor moves along the
route of the stream, one hop for each feasible answer of the gate.

Every call returns, besides the new runtime, the events it hands back to its caller and the
questions it put to the gate (`Outcome`). The questions are not stored by the source; they are kept
here so that a statement can speak of what the gate was asked over a whole run.
-/

namespace Netlab.Packet

variable {F : Type}

/-- The gate callback, `GateEvaluator`: the decision for the hop from `src` to `dst`. -/
abbrev GateEvaluator (F : Type) := String → String → FeasibilityDecision F

/-- A packet in flight or delivered (`PacketState`). -/
structure PacketState where
  packetId : String
  flowId : String
  branchId : String
  sequenceNumber : ℕ
  source : String
  destination : String
  route : List String
  currentHopIndex : ℕ
  currentNode : String
  nextNode : String
  status : PacketStatus
  outageReason : Option GateReason
  retries : ℕ
  bytes : ℤ
  priority : ℤ
  deriving DecidableEq

/-- A question put to the gate while a packet was stepped, with the answer. -/
structure GateCall (F : Type) where
  sequenceNumber : ℕ
  src : String
  dst : String
  decision : FeasibilityDecision F

/-- The hop the gate was asked about. -/
def GateCall.hop (call : GateCall F) : String × String := (call.src, call.dst)

/-- What an event of the runtime reports; the constructor stands for the event type. -/
inductive EventPayload (F : Type)
  | packetCreated (packet : PacketState)
  | packetDelivered (packet : PacketState) (gate : Option (GateCall F))
  | packetPausedOutage (packet : PacketState) (gate : GateCall F)
  | packetAdvanced (packet : PacketState) (gate : GateCall F)
  | packetRetryEnabled (branchId : String)
  | routeRecomputed (branchId : String) (route : List String)

/-- The `event_type` text of an event. -/
def EventPayload.eventType : EventPayload F → String
  | packetCreated _ => "PACKET_CREATED"
  | packetDelivered _ _ => "PACKET_DELIVERED"
  | packetPausedOutage _ _ => "PACKET_PAUSED_OUTAGE"
  | packetAdvanced _ _ => "PACKET_ADVANCED"
  | packetRetryEnabled _ => "PACKET_RETRY_ENABLED"
  | routeRecomputed _ _ => "ROUTE_RECOMPUTED"

/-- An entry of the event log (`RuntimeEvent`). -/
structure RuntimeEvent (F : Type) where
  sourceComponent : String := "packet_runtime"
  payload : EventPayload F
  severity : String
  experimentId : String
  runId : String
  affectedEntity : String
  sequence : ℕ

/-- The packet stream of one branch (`BranchStream`). -/
structure BranchStream (F : Type) where
  branchId : String
  route : List String
  source : String
  destination : String
  flowId : String
  packetSizeBytes : ℤ := 512
  priority : ℤ := 0
  currentPacket : Option PacketState := none
  completedPackets : ℕ := 0
  droppedPackets : ℕ := 0
  paused : Bool := false
  outageReason : Option GateReason := none
  lastDecision : Option (FeasibilityDecision F) := none

/-- The runtime: the streams by branch id, the packet counter and the event log. -/
structure PacketRuntime (F : Type) where
  mode : String
  streams : Dict String (BranchStream F)
  experimentId : String := ""
  runId : String := ""
  sequence : ℕ := 0
  eventSequence : ℕ := 0
  events : List (RuntimeEvent F) := []

/-- What a call returns: the new runtime, the events handed to the caller, and the questions it
put to the gate, in order. -/
structure Outcome (F : Type) where
  runtime : PacketRuntime F
  emitted : List (RuntimeEvent F) := []
  asked : List (GateCall F) := []

/-- What one call of `step_stream` leaves behind: the runtime, the stream, the event it returns
and the question it put to the gate. -/
structure StreamStep (F : Type) where
  runtime : PacketRuntime F
  stream : BranchStream F
  event : RuntimeEvent F
  asked : Option (GateCall F)

/-- `BranchStream.new_packet`: the stream with a fresh packet at the start of its route, and that
packet. The source indexes the route and would raise on an empty one; no stream of a runtime has
an empty route (`StreamInv.two_le_length`). -/
def BranchStream.newPacket (uuid4 : IdSupply) (stream : BranchStream F) (sequenceNumber : ℕ) :
    BranchStream F × PacketState :=
  let packet : PacketState :=
    { packetId := uuid4.id sequenceNumber
      flowId := stream.flowId
      branchId := stream.branchId
      sequenceNumber
      source := stream.source
      destination := stream.destination
      route := stream.route
      currentHopIndex := 0
      currentNode := stream.route.getD 0 ""
      nextNode := stream.route.getD 1 ""
      status := .queued
      outageReason := none
      retries := 0
      bytes := stream.packetSizeBytes
      priority := stream.priority }
  ({ stream with currentPacket := some packet, paused := false, outageReason := none }, packet)

/-- The packet after `clear_outage`: one held by an outage may be retried. -/
def PacketState.cleared (packet : PacketState) : PacketState :=
  if packet.status = .pausedOutage then
    { packet with status := .retrying, retries := packet.retries + 1, outageReason := none }
  else packet

/-- The stream after `clear_outage`. -/
def BranchStream.cleared (stream : BranchStream F) : BranchStream F :=
  { stream with
    paused := false, outageReason := none
    currentPacket := stream.currentPacket.map PacketState.cleared }

namespace PacketRuntime

/-- `from_branches`: one stream for each branch that has a relay, from `source` through the
relays of the branch. -/
def fromBranches (branches : List (List ℤ)) (mode : String) (source : String)
    (experimentId runId : String) (packetSizeBytes : ℤ) : PacketRuntime F :=
  { mode, experimentId, runId
    streams := Dict.ofList <| branches.zipIdx.filterMap fun (branch, branchIndex) =>
      let route := source :: branch.map fun idx => "drone_" ++ toString idx
      -- an empty branch has no stream, and its index is not used again
      if route.length < 2 then none
      else
        let branchId := "branch_" ++ toString branchIndex
        some (branchId,
          { branchId, route
            source := route.getD 0 ""
            destination := route.getLastD ""
            flowId := "flow_" ++ toString branchIndex
            packetSizeBytes }) }

/-- `_event`: append an event to the log and return it. -/
def event (rt : PacketRuntime F) (payload : EventPayload F) (severity : String)
    (entity : String) : PacketRuntime F × RuntimeEvent F :=
  let ev : RuntimeEvent F :=
    { payload, severity, experimentId := rt.experimentId, runId := rt.runId
      affectedEntity := entity, sequence := rt.eventSequence + 1 }
  ({ rt with eventSequence := rt.eventSequence + 1, events := rt.events ++ [ev] }, ev)

/-- Store a stream back under its branch id. -/
def setStream (rt : PacketRuntime F) (branchId : String) (stream : BranchStream F) :
    PacketRuntime F :=
  { rt with streams := rt.streams.set branchId stream }

variable (uuid4 : IdSupply)

/-- Count a new packet and put it on the stream, without an event. -/
def draw (rt : PacketRuntime F) (stream : BranchStream F) :
    PacketRuntime F × BranchStream F × PacketState :=
  ({ rt with sequence := rt.sequence + 1 }, stream.newPacket uuid4 (rt.sequence + 1))

/-- Put a new packet on the stream and log its `PACKET_CREATED` event. -/
def create (rt : PacketRuntime F) (stream : BranchStream F) :
    PacketRuntime F × BranchStream F × PacketState :=
  let (rt, stream, packet) := rt.draw uuid4 stream
  ((rt.event (.packetCreated packet) "INFO" stream.branchId).1, stream, packet)

/-- The loop body of `ensure_packets`: a stream without a packet gets one. -/
def ensureAt (rt : PacketRuntime F) (branchId : String) : PacketRuntime F :=
  match rt.streams.get? branchId with
  | none => rt
  | some stream =>
      match stream.currentPacket with
      | some _ => rt
      | none =>
          let (rt, stream, _) := rt.create uuid4 stream
          rt.setStream branchId stream

/-- `ensure_packets`: every stream without a packet gets one. -/
def ensurePackets (rt : PacketRuntime F) : PacketRuntime F :=
  rt.streams.keys.foldl (ensureAt uuid4) rt

/-- The first part of `step_stream`: the packet the call works on. A stream without a packet gets
one silently, and a delivered packet is followed by the next one. -/
def readyPacket (rt : PacketRuntime F) (stream : BranchStream F) :
    PacketRuntime F × BranchStream F × PacketState :=
  let (rt, stream, packet) :=
    match stream.currentPacket with
    | some packet => (rt, stream, packet)
    | none => rt.draw uuid4 stream
  if packet.status = .delivered then rt.create uuid4 stream else (rt, stream, packet)

/-- The second part of `step_stream`: ask the gate about the next hop of the packet and move the
cursor when the answer is feasible. -/
def forward (rt : PacketRuntime F) (stream : BranchStream F) (packet : PacketState)
    (gate : GateEvaluator F) : StreamStep F :=
  if packet.route.length - 1 ≤ packet.currentHopIndex then
    -- nothing is left to cross: the source delivers without asking the gate
    let packet := { packet with status := .delivered }
    let (rt, ev) := rt.event (.packetDelivered packet none) "INFO" stream.branchId
    { runtime := rt, event := ev, asked := none
      stream := { stream with
        currentPacket := some packet, completedPackets := stream.completedPackets + 1 } }
  else
    let src := packet.route.getD packet.currentHopIndex ""
    let dst := packet.route.getD (packet.currentHopIndex + 1) ""
    let decision := gate src dst
    let call : GateCall F := { sequenceNumber := packet.sequenceNumber, src, dst, decision }
    let stream := { stream with lastDecision := some decision }
    if !decision.feasible then
      let packet := { packet with
        currentNode := src, nextNode := dst, status := .pausedOutage,
        outageReason := some decision.reason }
      let (rt, ev) := rt.event (.packetPausedOutage packet call) "WARNING" stream.branchId
      { runtime := rt, event := ev, asked := some call
        stream := { stream with
          currentPacket := some packet, paused := true, outageReason := some decision.reason } }
    else
      let hop := packet.currentHopIndex + 1
      let packet := { packet with
        currentHopIndex := hop, currentNode := dst, outageReason := none
        nextNode := if hop + 1 < packet.route.length then packet.route.getD (hop + 1) "" else "" }
      let stream := { stream with paused := false, outageReason := none }
      if packet.route.length - 1 ≤ hop then
        let packet := { packet with status := .delivered }
        let (rt, ev) := rt.event (.packetDelivered packet (some call)) "INFO" stream.branchId
        { runtime := rt, event := ev, asked := some call
          stream := { stream with
            currentPacket := some packet, completedPackets := stream.completedPackets + 1 } }
      else
        let packet := { packet with status := .advanced }
        let (rt, ev) := rt.event (.packetAdvanced packet call) "INFO" stream.branchId
        { runtime := rt, event := ev, asked := some call
          stream := { stream with currentPacket := some packet } }

/-- `step_stream`. -/
def stepStream (rt : PacketRuntime F) (stream : BranchStream F) (gate : GateEvaluator F) :
    StreamStep F :=
  let (rt, stream, packet) := rt.readyPacket uuid4 stream
  rt.forward stream packet gate

/-- `step_stream` called on the stream of a branch. -/
def stepAt (rt : PacketRuntime F) (branchId : String) (gate : GateEvaluator F) : Outcome F :=
  match rt.streams.get? branchId with
  | none => { runtime := rt }
  | some stream =>
      let result := rt.stepStream uuid4 stream gate
      { runtime := result.runtime.setStream branchId result.stream
        emitted := [result.event]
        asked := result.asked.toList }

/-- The loop of `step` over the streams. The gate may answer differently each time it is called:
`gate i` is how it answers for the `i`-th stream. -/
def stepEach (gate : ℕ → GateEvaluator F) : List String → PacketRuntime F → Outcome F
  | [], rt => { runtime := rt }
  | branchId :: rest, rt =>
      let first := rt.stepAt uuid4 branchId (gate 0)
      let others := stepEach (fun i => gate (i + 1)) rest first.runtime
      { runtime := others.runtime
        emitted := first.emitted ++ others.emitted
        asked := first.asked ++ others.asked }

/-- `step`: fill the streams, then step the first stream in chain mode and every stream in the
other modes. -/
def step (rt : PacketRuntime F) (gate : ℕ → GateEvaluator F) : Outcome F :=
  let rt := rt.ensurePackets uuid4
  let keys := if rt.mode = "chain" then rt.streams.keys.take 1 else rt.streams.keys
  stepEach uuid4 gate keys rt

/-- The loop body of `clear_outage`. -/
def clearAt (rt : PacketRuntime F) (branchId : String) : PacketRuntime F :=
  match rt.streams.get? branchId with
  | none => rt
  | some stream =>
      let stream := stream.cleared
      ((rt.setStream branchId stream).event (.packetRetryEnabled stream.branchId) "INFO"
        stream.branchId).1

/-- The streams that `clear_outage` visits: the one named when there is one, else all. -/
def clearTargets (rt : PacketRuntime F) : Option String → List String
  | some branchId =>
      if branchId ≠ "" ∧ branchId ∈ rt.streams.keys then [branchId] else rt.streams.keys
  | none => rt.streams.keys

/-- `clear_outage`. -/
def clearOutage (rt : PacketRuntime F) (branchId : Option String) : PacketRuntime F :=
  (rt.clearTargets branchId).foldl clearAt rt

/-- `replace_route`: the stream gets the new route and a new packet at its start. A call with an
unknown branch or a route without a hop raises and leaves the runtime as it is. -/
def replaceRoute (rt : PacketRuntime F) (branchId : String) (route : List String) :
    PacketRuntime F :=
  match rt.streams.get? branchId with
  | none => rt
  | some stream =>
      if route.length < 2 then rt
      else
        let stream := { stream with
          route, source := route.getD 0 "", destination := route.getLastD "" }
        -- a new packet in place of the one in flight, without an event of its own
        let (rt, stream, _) := rt.draw uuid4 stream
        ((rt.setStream branchId stream).event (.routeRecomputed branchId route) "INFO" branchId).1

end PacketRuntime

/-- A call that a client of the runtime can make. -/
inductive Op (F : Type)
  | ensurePackets
  | step (gate : ℕ → GateEvaluator F)
  | stepStream (branchId : String) (gate : GateEvaluator F)
  | clearOutage (branchId : Option String)
  | replaceRoute (branchId : String) (route : List String)

/-- Perform a call. -/
def perform (uuid4 : IdSupply) (rt : PacketRuntime F) : Op F → Outcome F
  | .ensurePackets => { runtime := rt.ensurePackets uuid4 }
  | .step gate => rt.step uuid4 gate
  | .stepStream branchId gate => rt.stepAt uuid4 branchId gate
  | .clearOutage branchId => { runtime := rt.clearOutage branchId }
  | .replaceRoute branchId route => { runtime := rt.replaceRoute uuid4 branchId route }

/-- A runtime with everything its gate was asked so far. -/
structure History (F : Type) where
  runtime : PacketRuntime F
  asked : List (GateCall F)

/-- Perform a call and extend the record of what the gate was asked. -/
def History.perform (uuid4 : IdSupply) (h : History F) (op : Op F) : History F :=
  let outcome := Packet.perform uuid4 h.runtime op
  { runtime := outcome.runtime, asked := h.asked ++ outcome.asked }

/-- A client starts from `from_branches`, with nothing asked. -/
def History.start (branches : List (List ℤ)) (mode source experimentId runId : String)
    (packetSizeBytes : ℤ) : History F :=
  { runtime := .fromBranches branches mode source experimentId runId packetSizeBytes
    asked := [] }

/-- A gate that lets everything pass. -/
def openGate : GateEvaluator F := fun _ _ =>
  { feasible := true, reason := .feasible, predicates := [] }

end Netlab.Packet
