import Netlab.Link.Budget

/-!
# The feasibility gate

`evaluate_feasibility` of `netlab/link.py`. The two end points are checked first and recorded
together; then the metric is checked against the thresholds in a fixed order, and the first check
that fails gives the reason. The checks are listed once (`metricChecks`) and run by `runChecks`, so
what the gate decides is whether all of them pass (`evaluateFeasibility_feasible_iff`).
-/

namespace Netlab

variable {F : Type}

/-- Whether the end points of a link are active and whether they have failed. -/
structure LinkEndpoints where
  sourceActive : Bool
  destinationActive : Bool
  sourceFailed : Bool
  destinationFailed : Bool
  deriving DecidableEq, Repr

/-- Both end points are active and neither has failed. -/
def LinkEndpoints.Operational (endpoints : LinkEndpoints) : Prop :=
  endpoints.sourceActive = true ∧ endpoints.destinationActive = true ∧
    endpoints.sourceFailed = false ∧ endpoints.destinationFailed = false

/-- What a link has to meet. Without `minSinrDb` the SINR is not checked. -/
structure GateThresholds (F : Type) where
  operationalRangeM : F
  hardOutageDistanceM : F
  minSnrDb : F
  minCapacityMbps : F
  minSinrDb : Option F
  metricTtlS : F

/-- A check of the gate: the predicate it records and the reason it gives when it fails. -/
structure GateCheck (F : Type) where
  predicate : GatePredicate F
  reason : GateReason

/-- Run checks in order, recording each, up to the first that fails. -/
def runChecks (ageS : F) : List (GatePredicate F) → List (GateCheck F) → FeasibilityDecision F
  | predicates, [] =>
      { feasible := true, reason := .feasible, predicates, metricAgeS := some ageS }
  | predicates, check :: checks =>
      if check.predicate.passed then runChecks ageS (predicates ++ [check.predicate]) checks
      else
        { feasible := false, reason := check.reason
          predicates := predicates ++ [check.predicate], metricAgeS := some ageS }

/-- Checks decide for a link exactly when all of them pass. -/
theorem runChecks_feasible (ageS : F) (predicates : List (GatePredicate F))
    (checks : List (GateCheck F)) :
    (runChecks ageS predicates checks).feasible =
      checks.all fun check => check.predicate.passed := by
  induction checks generalizing predicates with
  | nil => rfl
  | cons check checks ih =>
      rw [runChecks, List.all_cons]
      cases h : check.predicate.passed
      · simp
      · simpa using ih _

/-- The reason is `FEASIBLE` exactly when the decision is, for checks that fail for other
reasons. -/
theorem runChecks_reason (ageS : F) (predicates : List (GatePredicate F))
    {checks : List (GateCheck F)} (h : ∀ check ∈ checks, check.reason ≠ .feasible) :
    (runChecks ageS predicates checks).reason = .feasible ↔
      (runChecks ageS predicates checks).feasible = true := by
  induction checks generalizing predicates with
  | nil => simp [runChecks]
  | cons check checks ih =>
      rw [runChecks]
      cases hp : check.predicate.passed
      · simpa using h check List.mem_cons_self
      · simpa using ih _ fun c hc => h c (List.mem_cons_of_mem _ hc)

variable [PyFloat F]

/-- The age of a metric (`LinkMetrics.age_s`). -/
def LinkMetrics.ageS (metrics : LinkMetrics F) (now : F) : F :=
  PyFloat.max 0.0 (now - metrics.timestampWallS)

/-- A check that compares a number with a threshold. -/
def GateCheck.compare (name : String) (passed : Bool) (value threshold margin : F) (unit : String)
    (reason : GateReason) : GateCheck F where
  predicate := {
    name, passed, value := .number value, threshold := .number threshold, margin := some margin
    unit }
  reason

/-- The SINR check, made when both a threshold and a value are there. -/
def sinrChecks (metrics : LinkMetrics F) (thresholds : GateThresholds F) : List (GateCheck F) :=
  match thresholds.minSinrDb, metrics.sinrDb with
  | some minSinrDb, some sinrDb =>
      [.compare "sinr" (PyFloat.le minSinrDb sinrDb) sinrDb minSinrDb (sinrDb - minSinrDb) "dB"
        .sinrBelowThreshold]
  | _, _ => []

/-- The checks of a metric, in the order in which they are made. -/
def metricChecks (metrics : LinkMetrics F) (ageS : F) (thresholds : GateThresholds F) :
    List (GateCheck F) :=
  [.compare "metric_fresh" (PyFloat.le ageS thresholds.metricTtlS) ageS thresholds.metricTtlS
      (thresholds.metricTtlS - ageS) "s" .staleLinkMetric,
    -- the outage distance itself is out, the operational range itself is in
    .compare "hard_outage_distance" (PyFloat.lt metrics.distanceM thresholds.hardOutageDistanceM)
      metrics.distanceM thresholds.hardOutageDistanceM
      (thresholds.hardOutageDistanceM - metrics.distanceM) "m" .hardOutageDistance,
    .compare "operational_range" (PyFloat.le metrics.distanceM thresholds.operationalRangeM)
      metrics.distanceM thresholds.operationalRangeM
      (thresholds.operationalRangeM - metrics.distanceM) "m" .outOfRange,
    .compare "snr" (PyFloat.le thresholds.minSnrDb metrics.snrDb) metrics.snrDb
      thresholds.minSnrDb (metrics.snrDb - thresholds.minSnrDb) "dB" .snrBelowThreshold] ++
    sinrChecks metrics thresholds ++
    [.compare "capacity" (PyFloat.le thresholds.minCapacityMbps metrics.capacityMbps)
      metrics.capacityMbps thresholds.minCapacityMbps
      (metrics.capacityMbps - thresholds.minCapacityMbps) "Mbit/s" .capacityBelowThreshold]

/-- What the gate records about the end points. -/
def LinkEndpoints.predicates (endpoints : LinkEndpoints) : List (GatePredicate F) :=
  [{ name := "source_active", passed := endpoints.sourceActive
     value := .flag endpoints.sourceActive, threshold := .flag true },
    { name := "destination_active", passed := endpoints.destinationActive
      value := .flag endpoints.destinationActive, threshold := .flag true },
    { name := "source_not_failed", passed := !endpoints.sourceFailed
      value := .flag endpoints.sourceFailed, threshold := .flag false },
    { name := "destination_not_failed", passed := !endpoints.destinationFailed
      value := .flag endpoints.destinationFailed, threshold := .flag false }]

/-- Decide whether a link can carry a packet at the time `now`. -/
def evaluateFeasibility (metrics : Option (LinkMetrics F)) (endpoints : LinkEndpoints)
    (thresholds : GateThresholds F) (now : F) : FeasibilityDecision F :=
  let refuse (reason : GateReason) : FeasibilityDecision F :=
    { feasible := false, reason, predicates := endpoints.predicates }
  -- the first reason is reported, with the predicates of both ends
  if !endpoints.sourceActive then refuse .sourceInactive
  else if !endpoints.destinationActive then refuse .destinationInactive
  else if endpoints.sourceFailed then refuse .sourceFailed
  else if endpoints.destinationFailed then refuse .destinationFailed
  else
    match metrics with
    | none =>
        { feasible := false, reason := .linkServiceUnavailable
          predicates := endpoints.predicates ++
            [{ name := "link_metric_available", passed := false, value := .missing
               threshold := .text "available" }] }
    | some metrics =>
        runChecks (metrics.ageS now) endpoints.predicates
          (metricChecks metrics (metrics.ageS now) thresholds)

/-- Between operational end points the gate runs the checks of the metric. -/
theorem evaluateFeasibility_operational {endpoints : LinkEndpoints} (h : endpoints.Operational)
    (metrics : LinkMetrics F) (thresholds : GateThresholds F) (now : F) :
    evaluateFeasibility (some metrics) endpoints thresholds now =
      runChecks (metrics.ageS now) endpoints.predicates
        (metricChecks metrics (metrics.ageS now) thresholds) := by
  obtain ⟨hs, hd, hsf, hdf⟩ := h
  simp [evaluateFeasibility, hs, hd, hsf, hdf]

/-- What the gate decides about a metric between operational end points. -/
theorem evaluateFeasibility_feasible_iff {endpoints : LinkEndpoints} (h : endpoints.Operational)
    (metrics : LinkMetrics F) (thresholds : GateThresholds F) (now : F) :
    (evaluateFeasibility (some metrics) endpoints thresholds now).feasible = true ↔
      PyFloat.le (metrics.ageS now) thresholds.metricTtlS = true ∧
        PyFloat.lt metrics.distanceM thresholds.hardOutageDistanceM = true ∧
        PyFloat.le metrics.distanceM thresholds.operationalRangeM = true ∧
        PyFloat.le thresholds.minSnrDb metrics.snrDb = true ∧
        (∀ minSinrDb ∈ thresholds.minSinrDb, ∀ sinrDb ∈ metrics.sinrDb,
          PyFloat.le minSinrDb sinrDb = true) ∧
        PyFloat.le thresholds.minCapacityMbps metrics.capacityMbps = true := by
  rw [evaluateFeasibility_operational h, runChecks_feasible]
  cases hmin : thresholds.minSinrDb <;> cases hsinr : metrics.sinrDb <;>
    simp [metricChecks, sinrChecks, GateCheck.compare, hmin, hsinr]

/-- Unless both ends are operational, the gate refuses. -/
theorem evaluateFeasibility_of_not_operational {endpoints : LinkEndpoints}
    (h : ¬endpoints.Operational) (metrics : Option (LinkMetrics F)) (thresholds : GateThresholds F)
    (now : F) : (evaluateFeasibility metrics endpoints thresholds now).feasible = false := by
  obtain ⟨sourceActive, destinationActive, sourceFailed, destinationFailed⟩ := endpoints
  cases sourceActive <;> cases destinationActive <;> cases sourceFailed <;>
    cases destinationFailed <;> simp_all [evaluateFeasibility, LinkEndpoints.Operational]

/-- Of a metric the reason is `FEASIBLE` exactly when the decision is. -/
theorem evaluateFeasibility_reason_iff {endpoints : LinkEndpoints} (h : endpoints.Operational)
    (metrics : LinkMetrics F) (thresholds : GateThresholds F) (now : F) :
    (evaluateFeasibility (some metrics) endpoints thresholds now).reason = .feasible ↔
      (evaluateFeasibility (some metrics) endpoints thresholds now).feasible = true := by
  rw [evaluateFeasibility_operational h]
  refine runChecks_reason _ _ fun check hcheck => ?_
  cases hmin : thresholds.minSinrDb <;> cases hsinr : metrics.sinrDb <;>
    simp only [metricChecks, sinrChecks, hmin, hsinr, List.append_nil, List.cons_append,
      List.nil_append, List.mem_cons, List.not_mem_nil, or_false] at hcheck <;>
    rcases hcheck with rfl | rfl | rfl | rfl | rfl | rfl <;> simp [GateCheck.compare]

end Netlab
