/-!
# Typed runtime models

The enumerations and records of `netlab/models.py` that the packet runtime, the feasibility gate
and the revision manager share. The wall-clock stamps that the dataclasses carry are left out: no
function modelled here branches on them, except the stamp of a link metric, from which the gate
computes the metric's age.
-/

namespace Netlab

variable {F : Type}

/-- Why a hop is feasible or not (`GateReason`). -/
inductive GateReason
  | feasible
  | sourceFailed
  | destinationFailed
  | sourceInactive
  | destinationInactive
  | outOfRange
  | hardOutageDistance
  | snrBelowThreshold
  | sinrBelowThreshold
  | capacityBelowThreshold
  | noRoute
  | staleLinkMetric
  | linkServiceUnavailable
  | antennaInvalid
  | worldModelUnavailable
  | unknown
  deriving DecidableEq, Repr

/-- The wire text of a gate reason. -/
def GateReason.value : GateReason → String
  | feasible => "FEASIBLE"
  | sourceFailed => "SOURCE_FAILED"
  | destinationFailed => "DESTINATION_FAILED"
  | sourceInactive => "SOURCE_INACTIVE"
  | destinationInactive => "DESTINATION_INACTIVE"
  | outOfRange => "OUT_OF_RANGE"
  | hardOutageDistance => "HARD_OUTAGE_DISTANCE"
  | snrBelowThreshold => "SNR_BELOW_THRESHOLD"
  | sinrBelowThreshold => "SINR_BELOW_THRESHOLD"
  | capacityBelowThreshold => "CAPACITY_BELOW_THRESHOLD"
  | noRoute => "NO_ROUTE"
  | staleLinkMetric => "STALE_LINK_METRIC"
  | linkServiceUnavailable => "LINK_SERVICE_UNAVAILABLE"
  | antennaInvalid => "ANTENNA_INVALID"
  | worldModelUnavailable => "WORLD_MODEL_UNAVAILABLE"
  | unknown => "UNKNOWN"

/-- Where a packet stands (`PacketStatus`). -/
inductive PacketStatus
  | created
  | queued
  | waitingForLink
  | transmitting
  | advanced
  | delivered
  | pausedOutage
  | retrying
  | dropped
  | expired
  | cancelled
  deriving DecidableEq, Repr

/-- The measured value or the threshold of a gate predicate, which the source leaves untyped. -/
inductive GateValue (F : Type)
  | flag (b : Bool)
  | number (x : F)
  | text (s : String)
  | missing

/-- One predicate of the feasibility gate with the values it compared (`GatePredicate`). -/
structure GatePredicate (F : Type) where
  name : String
  passed : Bool
  value : GateValue F
  threshold : GateValue F
  margin : Option F := none
  unit : String := ""

/-- The answer of the feasibility gate for one hop (`FeasibilityDecision`). -/
structure FeasibilityDecision (F : Type) where
  feasible : Bool
  reason : GateReason
  predicates : List (GatePredicate F)
  metricAgeS : Option F := none

/-- A supply of identifiers (`uuid.uuid4`): the `n`-th draw is `id n`, and no identifier is drawn
twice. -/
structure IdSupply where
  id : Nat → String
  injective : ∀ m n, id m = id n → m = n

/-- The supply that draws `"x"`, `"xx"` and so on. -/
def IdSupply.unary : IdSupply where
  id n := String.ofList (List.replicate (n + 1) 'x')
  injective m n h := by
    have hlen := congrArg (fun s : String => s.toList.length) h
    simpa using hlen

end Netlab
