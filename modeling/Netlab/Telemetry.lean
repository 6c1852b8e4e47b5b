import Mathlib.Algebra.Order.Field.Rat
import Mathlib.Data.Rat.Defs
import Mathlib.Algebra.BigOperators.Group.List.Basic
import Mathlib.Tactic.Positivity

/-!
# Event counts of the telemetry

The part of `aggregate` in `netlab/telemetry.py` that reads the event log: how often each event
type occurs, the packet counts obtained from the names of the types, and the packet delivery ratio.
-/

namespace Netlab.Telemetry

/-- `str.upper` on the ASCII names of event types. -/
def upper (name : String) : String := String.ofList (name.toList.map Char.toUpper)

/-- The test `token in name.upper()`. -/
def hasToken (token name : String) : Bool := decide (token.toList <:+: (upper name).toList)

/-- `Counter`: each name with the number of its occurrences. -/
def counter (names : List String) : List (String × ℕ) :=
  names.dedup.map fun name => (name, names.count name)

/-- The sum of the counts of the names that match. -/
def total (eventTypes : List (String × ℕ)) (matching : String → Bool) : ℕ :=
  ((eventTypes.filter fun e => matching e.1).map Prod.snd).sum

/-- The figures of `aggregate` that come from the event types. -/
structure Analytics where
  generatedPackets : ℕ
  deliveredPackets : ℕ
  advancedPackets : ℕ
  droppedPackets : ℕ
  pausedPackets : ℕ
  outageEvents : ℕ
  recoveryEvents : ℕ
  packetDeliveryRatio : ℚ

/-- A type that counts as a generated packet. -/
def isGenerated (name : String) : Bool := hasToken "CREATED" name

/-- A type that counts as a delivered packet. -/
def isDelivered (name : String) : Bool :=
  hasToken "DELIVERED" name || hasToken "ROUND_TRIP_COMPLETED" name

/-- The event part of `aggregate`, on the types of the events. -/
def aggregate (events : List String) : Analytics :=
  let eventTypes := counter events
  let generated := total eventTypes isGenerated
  let delivered := total eventTypes isDelivered
  { generatedPackets := generated
    deliveredPackets := delivered
    -- events are told apart by the tokens in their names
    advancedPackets := total eventTypes fun name => hasToken "ADVANCED" name || upper name == "HOP"
    droppedPackets := total eventTypes (hasToken "DROPPED")
    pausedPackets := total eventTypes fun name => hasToken "PAUSED" name || hasToken "BLOCKED" name
    outageEvents := total eventTypes fun name =>
      hasToken "OUTAGE" name || hasToken "CONNECTIVITY_LOST" name
    recoveryEvents := total eventTypes fun name => hasToken "RECOVER" name || hasToken "PROMOT" name
    packetDeliveryRatio := delivered / max 1 generated }

/-- Summing the counts of the matching names counts the matching events. -/
theorem total_counter (names : List String) (matching : String → Bool) :
    total (counter names) matching = names.countP matching := by
  rw [← List.sum_map_count_dedup_filter_eq_countP, total, counter, List.filter_map, List.map_map]
  rfl

/-- The delivery ratio is at most one when no more deliveries than creations are counted. -/
theorem packetDeliveryRatio_le_one {events : List String}
    (h : events.countP isDelivered ≤ events.countP isGenerated) :
    (aggregate events).packetDeliveryRatio ≤ 1 := by
  simp only [aggregate, total_counter]
  exact div_le_one_of_le₀ (by exact_mod_cast h.trans (le_max_right _ _)) (by positivity)

end Netlab.Telemetry
