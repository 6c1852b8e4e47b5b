import Netlab.Relay.Inventory

/-!
# Packet streams on a branch

A packet travels along a branch from the station to the last relay and back. This is what
`_tick` does with the one packet of the chain, and `_tick_parallel` with the packet of each branch:
turn around at the end of the nodes (`Stream.turnAround`), then try the hop at the cursor
(`Stream.cross`).

The answer of the link service about a hop comes with the tick, as the gate reason that
`_annotate_gate` derives from it; it is `none` when it cannot be read, which ends the process.
Stamps, node states and the texts of the hop events are left out.
-/

namespace Netlab

/-- A node of a branch. -/
inductive Node
  | station
  | drone (index : ℤ)
  deriving DecidableEq, Repr

/-- The name of a node. -/
def Node.text : Node → String
  | station => "station"
  | drone index => droneNode index

/-- The direction in which a packet travels. -/
inductive Phase
  | forward
  | reverse
  deriving DecidableEq, Repr

/-- The nodes of a branch in the order of travel (`_branch_nodes`). -/
def nodes (branch : List ℤ) : Phase → List Node
  | .forward => .station :: branch.map .drone
  | .reverse => branch.reverse.map .drone ++ [.station]

/-- A packet with the hops it has made. -/
structure Packet where
  packetId : ℕ
  forwardTrace : List (Node × Node)
  reverseTrace : List (Node × Node)
  deriving DecidableEq, Repr

/-- `_new_packet`. -/
def Packet.new (packetId : ℕ) : Packet := { packetId, forwardTrace := [], reverseTrace := [] }

/-- A packet on its way. -/
structure Stream where
  phase : Phase
  cursor : ℕ
  packet : Packet
  deriving DecidableEq, Repr

/-- A stream with a new packet. -/
def Stream.fresh (packetId : ℕ) : Stream :=
  { phase := .forward, cursor := 0, packet := .new packetId }

/-- A hop that was tried. The reason is missing when the hop was not asked about because an end of
it has failed. -/
structure Hop where
  branch : List ℤ
  phase : Phase
  cursor : ℕ
  src : Node
  dst : Node
  packetId : ℕ
  reason : Option String
  deriving DecidableEq, Repr

/-- `_link_ok`: the gate answered `FEASIBLE`. -/
def Hop.linkOk (hop : Hop) : Bool := hop.reason = some "FEASIBLE"

/-- A completed round trip. -/
structure Trip where
  branch : List ℤ
  packet : Packet
  deriving DecidableEq, Repr

/-- What a tick finds out about the nodes and hops. -/
structure Surroundings where
  /-- the node is the station or a drone of the inventory -/
  known : Node → Bool
  /-- `_node_failed` -/
  failed : Node → Bool
  /-- the gate reason of a hop -/
  gate : Node → Node → Option String

/-- The gate reason of a hop, which is not asked for when an end of the hop has failed. -/
def Surroundings.reason (around : Surroundings) (src dst : Node) : Option (Option String) :=
  if around.failed src || around.failed dst then some none else (around.gate src dst).map some

/-- A stream that is ready for its next hop. -/
structure Departure where
  stream : Stream
  branch : List ℤ
  packetCount : ℕ
  trip : Option Trip

namespace Stream

/-- Turn around at the end of the nodes, or complete the round trip and start a new packet, on the
branch `next`. -/
def turnAround (s : Stream) (branch next : List ℤ) (packetCount : ℕ) : Departure :=
  if s.cursor < (nodes branch s.phase).length - 1 then
    { stream := s, branch, packetCount, trip := none }
  else
    -- at the end of the branch
    match s.phase with
    | .forward =>
        { stream := { s with phase := .reverse, cursor := 0 }, branch, packetCount, trip := none }
    | .reverse =>
        { stream := fresh (packetCount + 1), branch := next, packetCount := packetCount + 1
          trip := some { branch, packet := s.packet } }

/-- The packet makes a hop. -/
def advance (s : Stream) (src dst : Node) : Stream :=
  { s with
    cursor := s.cursor + 1
    packet :=
      match s.phase with
      | .forward => { s.packet with forwardTrace := s.packet.forwardTrace ++ [(src, dst)] }
      | .reverse => { s.packet with reverseTrace := s.packet.reverseTrace ++ [(src, dst)] } }

/-- Try the hop at the cursor. Looking up a node that does not exist raises. -/
def cross (s : Stream) (branch : List ℤ) (around : Surroundings) : Option (Stream × Hop) := do
  let src ← (nodes branch s.phase)[s.cursor]?
  let dst ← (nodes branch s.phase)[s.cursor + 1]?
  guard (around.known src && around.known dst)
  let reason ← around.reason src dst
  let hop : Hop :=
    { branch, phase := s.phase, cursor := s.cursor, src, dst, packetId := s.packet.packetId, reason }
  return (if hop.linkOk then s.advance src dst else s, hop)

end Stream

/-! ## The streams of parallel branches -/

/-- The stream of a branch (an entry of `branch_flow_state`). -/
structure Flow where
  activeBranch : List ℤ
  stream : Stream
  paused : Bool
  completedRoundTrips : ℕ
  deriving DecidableEq, Repr

/-- A flow that starts on a branch. -/
def Flow.fresh (branch : List ℤ) (packetId : ℕ) : Flow :=
  { activeBranch := branch, stream := .fresh packetId, paused := false, completedRoundTrips := 0 }

/-- Bring the flows in line with the branches (`_sync_branch_flow_state`). The flow of a branch is
the one at its position; it starts anew when its branch is another one. -/
def syncFlows : List (List ℤ) → List Flow → ℕ → List Flow × ℕ
  | [], _, packetCount => ([], packetCount)
  | branch :: branches, [], packetCount =>
      let (flows, count) := syncFlows branches [] (packetCount + 1)
      (Flow.fresh branch (packetCount + 1) :: flows, count)
  | branch :: branches, flow :: rest, packetCount =>
      -- a flow is kept as long as the branch at its index is the same
      if flow.activeBranch = branch then
        let (flows, count) := syncFlows branches rest packetCount
        (flow :: flows, count)
      else
        let (flows, count) := syncFlows branches rest (packetCount + 1)
        (Flow.fresh branch (packetCount + 1) :: flows, count)

/-- What the turn of a flow yields: the flow, and what was tried if it had a turn. -/
structure FlowTurn where
  flow : Flow
  packetCount : ℕ
  /-- the stream when the hop was tried, with the packet after it -/
  tried : Option (Stream × Hop)
  trip : Option Trip

/-- The turn of a flow in a tick. A paused flow has none. -/
def Flow.turn (flow : Flow) (around : Surroundings) (packetCount : ℕ) : Option FlowTurn :=
  if flow.activeBranch = [] ∨ flow.paused then
    some { flow, packetCount, tried := none, trip := none }
  else do
    let departure := flow.stream.turnAround flow.activeBranch flow.activeBranch packetCount
    let (stream, hop) ← departure.stream.cross departure.branch around
    return {
      flow := { flow with
        stream
        -- a blocked hop pauses this flow, and the others go on
        paused := !hop.linkOk
        completedRoundTrips :=
          flow.completedRoundTrips + if departure.trip.isSome then 1 else 0 }
      packetCount := departure.packetCount
      tried := some ({ departure.stream with packet := stream.packet }, hop)
      trip := departure.trip }

/-- The turns of all flows in a tick. -/
structure Lap where
  flows : List Flow
  packetCount : ℕ
  hops : List Hop
  trips : List Trip
  /-- the branch and the stream of the last flow that had a turn -/
  last : Option (ℕ × Stream)

/-- The loop of `_tick_parallel` over the flows, from the branch `branchId` on. -/
def lap (around : Surroundings) : ℕ → List Flow → ℕ → Option Lap
  | _, [], packetCount => some { flows := [], packetCount, hops := [], trips := [], last := none }
  | branchId, flow :: rest, packetCount => do
      let turn ← flow.turn around packetCount
      let others ← lap around (branchId + 1) rest turn.packetCount
      return {
        flows := turn.flow :: others.flows
        packetCount := others.packetCount
        hops := (turn.tried.map Prod.snd).toList ++ others.hops
        trips := turn.trip.toList ++ others.trips
        last := others.last.or (turn.tried.map fun tried => (branchId, tried.1)) }

end Netlab
