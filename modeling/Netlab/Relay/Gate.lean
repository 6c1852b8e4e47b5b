import Netlab.Link.GateSpec
import Netlab.Prelude.Builtins

/-!
# The gate of the relay chain

`_gate_reason` of `snaas_relay_chain.py` decides whether a packet advances over a hop. Where the
link service gave a reason the relay chain repeats it; otherwise it compares the metrics with its
own limits. It looks for a number beyond its limit, while the gate of the link service asks for
every number to be within. The two part where a distance is the hard outage distance itself, where a
number does not compare, and where the record only says by its status that the service was not
available (`gateReason_agrees_iff`).
-/

namespace Netlab

variable {F : Type}

/-- What the gate of the relay chain reads of its controller. -/
structure RelayGate (F : Type) where
  maxSingleHopRangeM : F
  hardOutageRangeM : F
  minSnrDb : F
  requiredCapacityMbps : F
  allowDegradedForwarding : Bool

section

variable [PyText F] [PyBuiltins F]

/-- The reason that the link service gave for a hop, in upper case. -/
def serviceReason (metrics : Dict String (Json F)) : String :=
  let feasibility := ((metrics.getD "feasibility" (.obj [])).dict?).getD .empty
  PyBuiltins.upper F (PyText.strip F
    (feasibility.getD "reason" (metrics.getD "gate_reason" (.str ""))).toText)

/-- The service gave no reason. -/
def NoServiceReason (metrics : Dict String (Json F)) : Prop :=
  serviceReason metrics = "" ∨ serviceReason metrics ∈ ["UNKNOWN", "NONE"]

instance (metrics : Dict String (Json F)) : Decidable (NoServiceReason metrics) :=
  inferInstanceAs (Decidable (_ ∨ _))

/-- The record says that the service could not be asked. -/
def ServiceUnavailable (metrics : Dict String (Json F)) : Prop :=
  PyText.lower F (metrics.getD "status" (.str "")).toText ∈
    ["sionna_unreachable", "link_service_unavailable"]

instance (metrics : Dict String (Json F)) : Decidable (ServiceUnavailable metrics) :=
  inferInstanceAs (Decidable (_ ∈ _))

/-- The SINR of a record, if it has one. -/
def recordedSinr (metrics : Dict String (Json F)) : Option (Option F) :=
  match metrics.getD "sinr_db" .null with
  | .null => some none
  | sinr => sinr.toFloat?.map some

namespace RelayGate

/-- Compare the metrics of a hop with the limits. -/
def comparedReason (gate : RelayGate F) (metrics : Dict String (Json F)) : Option String := do
  let distanceM ← metrics.getFloat "distance_m" 0.0
  if PyFloat.lt gate.hardOutageRangeM distanceM then some "HARD_OUTAGE_DISTANCE"
  else if PyFloat.lt gate.maxSingleHopRangeM distanceM && !gate.allowDegradedForwarding then
    some "OUT_OF_RANGE"
  else do
    -- a missing SINR is skipped, a missing SNR fails
    let sinr ← recordedSinr metrics
    if sinr.any fun sinrDb => PyFloat.lt sinrDb gate.minSnrDb then some "SINR_BELOW_THRESHOLD"
    else do
      let snrDb ← metrics.getFloat "snr_db" (-999.0)
      if PyFloat.lt snrDb gate.minSnrDb then some "SNR_BELOW_THRESHOLD"
      else do
        let capacityMbps ← metrics.getFloat "capacity_mbps" 0.0
        if PyFloat.lt capacityMbps gate.requiredCapacityMbps then some "CAPACITY_BELOW_THRESHOLD"
        else some "FEASIBLE"

/-- `_gate_reason`. What cannot be read gives `UNKNOWN`. -/
def gateReason (gate : RelayGate F) (metrics : Dict String (Json F)) : String :=
  if ¬NoServiceReason metrics then serviceReason metrics
  else if ServiceUnavailable metrics then "LINK_SERVICE_UNAVAILABLE"
  else (gate.comparedReason metrics).getD "UNKNOWN"

/-- The thresholds that the relay chain asks the link service for. -/
def thresholds (gate : RelayGate F) (metricTtlS : F) : GateThresholds F where
  operationalRangeM := gate.maxSingleHopRangeM
  hardOutageDistanceM := gate.hardOutageRangeM
  minSnrDb := gate.minSnrDb
  minCapacityMbps := gate.requiredCapacityMbps
  minSinrDb := some gate.minSnrDb
  metricTtlS

end RelayGate

/-! ## The two gates -/

/-- A record of the relay chain holds the numbers of a metric. -/
structure HoldsMetrics (record : Dict String (Json F)) (metrics : LinkMetrics F) : Prop where
  distanceM : record.getFloat "distance_m" 0.0 = some metrics.distanceM
  sinrDb : recordedSinr record = some metrics.sinrDb
  snrDb : record.getFloat "snr_db" (-999.0) = some metrics.snrDb
  capacityMbps : record.getFloat "capacity_mbps" 0.0 = some metrics.capacityMbps

end

namespace RelayGate

variable [PyFloat F]

/-- A number of a metric is beyond its limit. -/
def Exceeded (gate : RelayGate F) (metrics : LinkMetrics F) : Prop :=
  PyFloat.lt gate.hardOutageRangeM metrics.distanceM = true ∨
    PyFloat.lt gate.maxSingleHopRangeM metrics.distanceM = true ∨
    (∃ sinrDb ∈ metrics.sinrDb, PyFloat.lt sinrDb gate.minSnrDb = true) ∨
    PyFloat.lt metrics.snrDb gate.minSnrDb = true ∨
    PyFloat.lt metrics.capacityMbps gate.requiredCapacityMbps = true

/-- Every number of a metric is within its limit. -/
structure Within (gate : RelayGate F) (metrics : LinkMetrics F) : Prop where
  inHardOutage : PyFloat.lt metrics.distanceM gate.hardOutageRangeM = true
  inRange : PyFloat.le metrics.distanceM gate.maxSingleHopRangeM = true
  snr : PyFloat.le gate.minSnrDb metrics.snrDb = true
  sinr : ∀ sinrDb ∈ metrics.sinrDb, PyFloat.le gate.minSnrDb sinrDb = true
  capacity : PyFloat.le gate.requiredCapacityMbps metrics.capacityMbps = true

/-- Every number of a metric compares with its limit, and the distance does not reach the hard
outage distance. -/
structure Regular (gate : RelayGate F) (metrics : LinkMetrics F) : Prop where
  short : PyFloat.le gate.hardOutageRangeM metrics.distanceM = false
  hardOutage : PyFloat.Comparable metrics.distanceM gate.hardOutageRangeM
  range : PyFloat.Comparable metrics.distanceM gate.maxSingleHopRangeM
  snr : PyFloat.Comparable gate.minSnrDb metrics.snrDb
  sinr : ∀ sinrDb ∈ metrics.sinrDb, PyFloat.Comparable gate.minSnrDb sinrDb
  capacity : PyFloat.Comparable gate.requiredCapacityMbps metrics.capacityMbps

variable [PyFloat.Ordered F]

open PyFloat.Ordered

/-- Numbers are within their limits exactly when they are regular and none is beyond. -/
theorem within_iff {gate : RelayGate F} {metrics : LinkMetrics F} :
    gate.Within metrics ↔ gate.Regular metrics ∧ ¬gate.Exceeded metrics := by
  constructor
  · intro h
    obtain ⟨hle, hnot⟩ := lt_iff.mp h.inHardOutage
    refine ⟨⟨hnot, Or.inl hle, Or.inl h.inRange, Or.inl h.snr,
      fun sinrDb hsinr => Or.inl (h.sinr sinrDb hsinr), Or.inl h.capacity⟩, ?_⟩
    rintro (hlt | hlt | ⟨sinrDb, hsinr, hlt⟩ | hlt | hlt)
    · exact Bool.false_ne_true ((lt_eq_false_of_le hle).symm.trans hlt)
    · exact Bool.false_ne_true ((lt_eq_false_of_le h.inRange).symm.trans hlt)
    · exact Bool.false_ne_true ((lt_eq_false_of_le (h.sinr sinrDb hsinr)).symm.trans hlt)
    · exact Bool.false_ne_true ((lt_eq_false_of_le h.snr).symm.trans hlt)
    · exact Bool.false_ne_true ((lt_eq_false_of_le h.capacity).symm.trans hlt)
  · rintro ⟨h, hnot⟩
    simp only [Exceeded, not_or, not_exists, not_and, Bool.not_eq_true] at hnot
    obtain ⟨hhard, hrange, hsinr, hsnr, hcapacity⟩ := hnot
    constructor
    · exact lt_iff.mpr ⟨h.hardOutage.le_of_not_lt hhard, h.short⟩
    · exact h.range.le_of_not_lt hrange
    · exact h.snr.le_of_not_lt hsnr
    · exact fun sinrDb hmem => (h.sinr sinrDb hmem).le_of_not_lt (hsinr sinrDb hmem)
    · exact h.capacity.le_of_not_lt hcapacity

end RelayGate

namespace RelayGate

variable [PyText F] [PyBuiltins F]

/-- Without a reason of the service the relay chain takes a hop that no number speaks against. -/
theorem gateReason_feasible_iff {gate : RelayGate F} {record : Dict String (Json F)}
    {metrics : LinkMetrics F} (hholds : HoldsMetrics record metrics)
    (hreason : NoServiceReason record) (hstrict : gate.allowDegradedForwarding = false) :
    gate.gateReason record = "FEASIBLE" ↔
      ¬ServiceUnavailable record ∧ ¬gate.Exceeded metrics := by
  rw [gateReason, if_neg (not_not_intro hreason)]
  by_cases hstatus : ServiceUnavailable record
  · rw [if_pos hstatus]
    exact ⟨fun h => absurd h (by decide), fun h => absurd hstatus h.1⟩
  · have hcompared : gate.comparedReason record =
        if PyFloat.lt gate.hardOutageRangeM metrics.distanceM then some "HARD_OUTAGE_DISTANCE"
        else if PyFloat.lt gate.maxSingleHopRangeM metrics.distanceM then some "OUT_OF_RANGE"
        else if metrics.sinrDb.any fun sinrDb => PyFloat.lt sinrDb gate.minSnrDb then
          some "SINR_BELOW_THRESHOLD"
        else if PyFloat.lt metrics.snrDb gate.minSnrDb then some "SNR_BELOW_THRESHOLD"
        else if PyFloat.lt metrics.capacityMbps gate.requiredCapacityMbps then
          some "CAPACITY_BELOW_THRESHOLD"
        else some "FEASIBLE" := by
      simp only [comparedReason, bind, hholds.distanceM, hholds.sinrDb, hholds.snrDb,
        hholds.capacityMbps, hstrict, Option.bind_some, Bool.not_false, Bool.and_true]
    have hexceeded : gate.Exceeded metrics ↔
        PyFloat.lt gate.hardOutageRangeM metrics.distanceM = true ∨
          PyFloat.lt gate.maxSingleHopRangeM metrics.distanceM = true ∨
          (metrics.sinrDb.any fun sinrDb => PyFloat.lt sinrDb gate.minSnrDb) = true ∨
          PyFloat.lt metrics.snrDb gate.minSnrDb = true ∨
          PyFloat.lt metrics.capacityMbps gate.requiredCapacityMbps = true := by
      cases hsinr : metrics.sinrDb <;> simp [Exceeded, hsinr]
    rw [if_neg hstatus, hcompared, hexceeded]
    -- the first number that is beyond its limit names the reason
    split_ifs <;> simp_all

variable [PyFloat.Ordered F]

/-- What keeps the two gates together. -/
def Aligned (gate : RelayGate F) (record : Dict String (Json F)) (metrics : LinkMetrics F) : Prop :=
  (ServiceUnavailable record → ¬gate.Within metrics) ∧
    (¬ServiceUnavailable record → gate.Exceeded metrics ∨ gate.Regular metrics)

/-- For the metrics of a hop without a reason of the service, with degraded forwarding off, between
operational ends and as long as the metric is fresh, the two gates agree exactly if they are
aligned. -/
theorem gateReason_agrees_iff {gate : RelayGate F} {record : Dict String (Json F)}
    {metrics : LinkMetrics F} {endpoints : LinkEndpoints} {metricTtlS now : F}
    (hholds : HoldsMetrics record metrics) (hreason : NoServiceReason record)
    (hstrict : gate.allowDegradedForwarding = false) (hoperational : endpoints.Operational)
    (hfresh : PyFloat.le (metrics.ageS now) metricTtlS = true) :
    (gate.gateReason record = "FEASIBLE" ↔
      (evaluateFeasibility (some metrics) endpoints (gate.thresholds metricTtlS) now).feasible =
        true) ↔ gate.Aligned record metrics := by
  have hservice : (evaluateFeasibility (some metrics) endpoints (gate.thresholds metricTtlS)
      now).feasible = true ↔ gate.Within metrics := by
    rw [evaluateFeasibility_feasible_iff hoperational]
    constructor
    · rintro ⟨-, hhard, hrange, hsnr, hsinr, hcapacity⟩
      exact ⟨hhard, hrange, hsnr, hsinr gate.minSnrDb rfl, hcapacity⟩
    · intro h
      refine ⟨hfresh, h.inHardOutage, h.inRange, h.snr, ?_, h.capacity⟩
      intro minSinrDb hmin
      obtain rfl : gate.minSnrDb = minSinrDb := Option.some.inj hmin
      exact h.sinr
  rw [gateReason_feasible_iff hholds hreason hstrict, hservice, Aligned, within_iff]
  by_cases hstatus : ServiceUnavailable record
  · simp [hstatus]
  · by_cases hexceeded : gate.Exceeded metrics <;> simp [hstatus, hexceeded]

/-! ### A hop of ninety metres -/

/-- A gate whose hard outage distance is its range. -/
def ninetyMetres : RelayGate ℚ where
  maxSingleHopRangeM := 90
  hardOutageRangeM := 90
  minSnrDb := 3
  requiredCapacityMbps := 1
  allowDegradedForwarding := false

/-- The record of a good hop over a distance. -/
def hopRecord (distanceM : ℚ) : Dict String (Json ℚ) :=
  .ofList [("distance_m", .float distanceM), ("snr_db", .float 20), ("sinr_db", .float 20),
    ("capacity_mbps", .float 40)]

/-- The metrics of that hop. -/
def hopMetrics (distanceM : ℚ) : LinkMetrics ℚ where
  linkId := "drone_1->drone_2:r"
  src := "drone_1"
  dst := "drone_2"
  distanceM
  pathLossDb := 80
  rxPowerDbm := -60
  snrDb := 20
  sinrDb := some 20
  capacityMbps := 40
  propagationDelayMs := 0
  totalDelayMs := 0
  losState := "UNDETERMINED_ANALYTICAL"
  model := "free_space"
  modelVersion := "2.0"
  fidelity := .analytical
  timestampWallS := 0
  componentsDb := []
  requestId := "r"

theorem holdsMetrics_hop (distanceM : ℚ) : HoldsMetrics (hopRecord distanceM) (hopMetrics distanceM) :=
  ⟨rfl, rfl, rfl, rfl⟩

theorem noServiceReason_hop (distanceM : ℚ) : NoServiceReason (hopRecord distanceM) := by
  have hreason : serviceReason (hopRecord distanceM) = "" := by
    show PyBuiltins.upper ℚ (PyText.strip ℚ (Json.str "" : Json ℚ).toText) = ""
    decide
  exact Or.inl hreason

/-- Within the range the gates agree. -/
theorem gateReason_agrees_iff_near :
    ninetyMetres.gateReason (hopRecord 50) = "FEASIBLE" ↔ (evaluateFeasibility
      (some (hopMetrics 50)) ⟨true, true, false, false⟩ (ninetyMetres.thresholds 2) 1).feasible =
        true := by
  have haligned : ninetyMetres.Aligned (hopRecord 50) (hopMetrics 50) := by
    refine ⟨fun hstatus => absurd hstatus (by decide), fun _ => Or.inr ?_⟩
    constructor
    · decide +kernel
    · exact Or.inl (by decide +kernel)
    · exact Or.inl (by decide +kernel)
    · exact Or.inl (by decide +kernel)
    · intro sinrDb hsinr
      obtain rfl : 20 = sinrDb := Option.some.inj hsinr
      exact Or.inl (by decide +kernel)
    · exact Or.inl (by decide +kernel)
  exact (gateReason_agrees_iff (holdsMetrics_hop 50) (noServiceReason_hop 50) rfl
    ⟨rfl, rfl, rfl, rfl⟩ (by decide +kernel)).mpr haligned

/-- At the hard outage distance itself the relay chain takes a hop that the link service refuses. -/
theorem not_gateReason_agrees :
    ¬∀ (gate : RelayGate ℚ) (record : Dict String (Json ℚ)) (metrics : LinkMetrics ℚ)
      (endpoints : LinkEndpoints) (metricTtlS now : ℚ), HoldsMetrics record metrics →
        NoServiceReason record →
        PyFloat.le gate.maxSingleHopRangeM gate.hardOutageRangeM = true →
        gate.allowDegradedForwarding = false → endpoints.Operational →
        PyFloat.le (metrics.ageS now) metricTtlS = true →
        (gate.gateReason record = "FEASIBLE" ↔ (evaluateFeasibility (some metrics) endpoints
          (gate.thresholds metricTtlS) now).feasible = true) := by
  intro h
  have hagree := h ninetyMetres (hopRecord 90) (hopMetrics 90) ⟨true, true, false, false⟩ 2 1
    (holdsMetrics_hop 90) (noServiceReason_hop 90) (by decide +kernel) rfl ⟨rfl, rfl, rfl, rfl⟩
    (by decide +kernel)
  have hrelay : ninetyMetres.gateReason (hopRecord 90) = "FEASIBLE" := by decide +kernel
  have hservice : (evaluateFeasibility (some (hopMetrics 90)) ⟨true, true, false, false⟩
      (ninetyMetres.thresholds 2) 1).feasible = false := by decide +kernel
  exact Bool.false_ne_true (hservice.symm.trans (hagree.mp hrelay))

end RelayGate

end Netlab
