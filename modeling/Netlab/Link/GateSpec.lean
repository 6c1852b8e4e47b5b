import Netlab.Link.Gate
import Netlab.Prelude.Order

/-!
# What the gate promises

The verdict, the reason and the list of predicates of `evaluate_feasibility` say the same
(`GateVerdict`): a link is feasible exactly when every condition holds and exactly when every listed
predicate passed, and otherwise the reason names the first predicate that failed. Thresholds that
are stricter accept less (`evaluateFeasibility_spec`).
-/

namespace Netlab

variable {F : Type}

/-! ## What checks record -/

/-- What running checks comes to: all of them are recorded, or those up to the first that failed. -/
theorem runChecks_spec (ageS : F) (predicates : List (GatePredicate F)) (checks : List (GateCheck F)) :
    ((∀ check ∈ checks, check.predicate.passed = true) ∧
      runChecks ageS predicates checks = {
        feasible := true, reason := .feasible
        predicates := predicates ++ checks.map GateCheck.predicate, metricAgeS := some ageS }) ∨
    ∃ before check after, checks = before ++ check :: after ∧
      (∀ c ∈ before, c.predicate.passed = true) ∧ check.predicate.passed = false ∧
      runChecks ageS predicates checks = {
        feasible := false, reason := check.reason
        predicates := predicates ++ (before ++ [check]).map GateCheck.predicate
        metricAgeS := some ageS } := by
  -- the predicates that have been collected grow with each check that passes
  induction checks generalizing predicates with
  | nil => exact Or.inl ⟨by simp, by simp [runChecks]⟩
  | cons check checks ih =>
      rw [runChecks]
      cases hpassed : check.predicate.passed with
      | false => exact Or.inr ⟨[], check, checks, rfl, by simp, hpassed, by simp⟩
      | true =>
          simp only [if_true]
          rcases ih (predicates ++ [check.predicate]) with
            ⟨hall, hrun⟩ | ⟨before, failed, after, rfl, hbefore, hfailed, hrun⟩
          · exact Or.inl ⟨List.forall_mem_cons.mpr ⟨hpassed, hall⟩, by simp [hrun]⟩
          · exact Or.inr ⟨check :: before, failed, after, rfl,
              List.forall_mem_cons.mpr ⟨hpassed, hbefore⟩, hfailed, by simp [hrun]⟩

/-! ## Names -/

/-- The names of the predicates about the ends of a link. -/
def endpointNames : List String :=
  ["source_active", "destination_active", "source_not_failed", "destination_not_failed"]

/-- The names of the predicates about the metric. -/
def metricNames : List String :=
  ["metric_fresh", "hard_outage_distance", "operational_range", "snr", "sinr", "capacity"]

/-- The names of all predicates, in the order of the conditions. -/
def gateOrder : List String := endpointNames ++ "link_metric_available" :: metricNames

/-- The reason that stands for the failure of a predicate. -/
def GateReason.ofPredicate (name : String) : Option GateReason :=
  [("source_active", .sourceInactive), ("destination_active", .destinationInactive),
    ("source_not_failed", .sourceFailed), ("destination_not_failed", .destinationFailed),
    ("link_metric_available", .linkServiceUnavailable), ("metric_fresh", .staleLinkMetric),
    ("hard_outage_distance", .hardOutageDistance), ("operational_range", .outOfRange),
    ("snr", .snrBelowThreshold), ("sinr", .sinrBelowThreshold),
    ("capacity", .capacityBelowThreshold)].lookup name

/-! ## The promise -/

section

variable [PyFloat F]

/-- The conditions of the gate. -/
structure LinkFeasible (metrics : LinkMetrics F) (endpoints : LinkEndpoints)
    (thresholds : GateThresholds F) (now : F) : Prop where
  operational : endpoints.Operational
  fresh : PyFloat.le (metrics.ageS now) thresholds.metricTtlS = true
  inHardOutage : PyFloat.lt metrics.distanceM thresholds.hardOutageDistanceM = true
  inRange : PyFloat.le metrics.distanceM thresholds.operationalRangeM = true
  snr : PyFloat.le thresholds.minSnrDb metrics.snrDb = true
  sinr : ∀ minSinrDb ∈ thresholds.minSinrDb, ∀ sinrDb ∈ metrics.sinrDb,
    PyFloat.le minSinrDb sinrDb = true
  capacity : PyFloat.le thresholds.minCapacityMbps metrics.capacityMbps = true

/-- What the gate says about a metric, or none. -/
structure GateVerdict (metrics : Option (LinkMetrics F)) (endpoints : LinkEndpoints)
    (thresholds : GateThresholds F) (now : F) (decision : FeasibilityDecision F) : Prop where
  feasible_iff : decision.feasible = true ↔
    ∃ m, metrics = some m ∧ LinkFeasible m endpoints thresholds now
  predicates_iff : decision.feasible = true ↔ ∀ p ∈ decision.predicates, p.passed = true
  accepted : decision.feasible = true → decision.reason = .feasible
  /-- The reason of a refusal names the first predicate that failed. -/
  refused : decision.feasible = false → ∃ before p after,
    decision.predicates = before ++ p :: after ∧ (∀ q ∈ before, q.passed = true) ∧
      p.passed = false ∧ GateReason.ofPredicate p.name = some decision.reason
  inOrder : (decision.predicates.map GatePredicate.name).Sublist gateOrder
  /-- Only the last predicate has failed, or one about the ends of the link. -/
  failed : ∀ before p after, decision.predicates = before ++ p :: after → p.passed = false →
    after = [] ∨ p.name ∈ endpointNames

omit [PyFloat F] in
/-- The predicates about the ends pass exactly if both are operational. -/
theorem endpoints_passed_iff (endpoints : LinkEndpoints) :
    (∀ p ∈ (endpoints.predicates : List (GatePredicate F)), p.passed = true) ↔
      endpoints.Operational := by
  simp [LinkEndpoints.predicates, LinkEndpoints.Operational]

/-- The checks of a metric pass exactly if the conditions about it hold. -/
theorem metricChecks_passed_iff {metrics : LinkMetrics F} {endpoints : LinkEndpoints}
    {thresholds : GateThresholds F} {now : F} (h : endpoints.Operational) :
    (∀ check ∈ metricChecks metrics (metrics.ageS now) thresholds, check.predicate.passed = true) ↔
      LinkFeasible metrics endpoints thresholds now := by
  have hiff := evaluateFeasibility_feasible_iff h metrics thresholds now
  rw [evaluateFeasibility_operational h, runChecks_feasible, List.all_eq_true] at hiff
  rw [hiff]
  exact ⟨fun ⟨h1, h2, h3, h4, h5, h6⟩ => ⟨h, h1, h2, h3, h4, h5, h6⟩,
    fun h => ⟨h.fresh, h.inHardOutage, h.inRange, h.snr, h.sinr, h.capacity⟩⟩

/-- The names and the reasons of the checks of a metric. -/
theorem metricChecks_names (metrics : LinkMetrics F) (ageS : F) (thresholds : GateThresholds F) :
    ((metricChecks metrics ageS thresholds).map fun check => check.predicate.name).Sublist
        metricNames ∧
      ∀ check ∈ metricChecks metrics ageS thresholds,
        GateReason.ofPredicate check.predicate.name = some check.reason := by
  cases hmin : thresholds.minSinrDb <;> cases hsinr : metrics.sinrDb <;>
    simp [metricChecks, sinrChecks, GateCheck.compare, hmin, hsinr, metricNames,
      GateReason.ofPredicate, List.lookup_cons]

/-- Where an end is not operational, the reason names the first predicate that failed. -/
theorem evaluateFeasibility_endpoints (metrics : Option (LinkMetrics F)) {endpoints : LinkEndpoints}
    (thresholds : GateThresholds F) (now : F) (h : ¬endpoints.Operational) :
    (evaluateFeasibility metrics endpoints thresholds now).predicates = endpoints.predicates ∧
      ∃ before p after, (endpoints.predicates : List (GatePredicate F)) = before ++ p :: after ∧
        (∀ q ∈ before, q.passed = true) ∧ p.passed = false ∧ GateReason.ofPredicate p.name =
          some (evaluateFeasibility metrics endpoints thresholds now).reason := by
  obtain ⟨sourceActive, destinationActive, sourceFailed, destinationFailed⟩ := endpoints
  cases sourceActive with
  | false => exact ⟨rfl, [], _, _, rfl, by simp, rfl, rfl⟩
  | true =>
  cases destinationActive with
  | false => exact ⟨rfl, [_], _, _, rfl, by simp, rfl, rfl⟩
  | true =>
  cases sourceFailed with
  | true => exact ⟨rfl, [_, _], _, _, rfl, by simp, rfl, rfl⟩
  | false =>
  cases destinationFailed with
  | true => exact ⟨rfl, [_, _, _], _, _, rfl, by simp, rfl, rfl⟩
  | false => exact absurd ⟨rfl, rfl, rfl, rfl⟩ h

omit [PyFloat F] in
/-- In a list whose last predicate alone may have failed, nothing comes after a failed one. -/
theorem eq_nil_of_failed {passed before after : List (GatePredicate F)} {last p : GatePredicate F}
    (h : passed ++ [last] = before ++ p :: after) (hpassed : ∀ q ∈ passed, q.passed = true)
    (hp : p.passed = false) : after = [] := by
  rcases List.eq_nil_or_concat after with rfl | ⟨front, x, rfl⟩
  · rfl
  · -- the failed predicate would stand before the last one
    have hsplit : passed ++ [last] = (before ++ p :: front) ++ [x] := by simpa using h
    have hmem : p ∈ passed := by
      rw [(List.append_inj' hsplit rfl).1]
      exact List.mem_append_right _ List.mem_cons_self
    exact absurd ((hpassed p hmem).symm.trans hp) (by simp)

/-- What the gate says when it stops at the ends of the link. -/
theorem gateVerdict_endpoints (metrics : Option (LinkMetrics F)) {endpoints : LinkEndpoints}
    (thresholds : GateThresholds F) (now : F) (h : ¬endpoints.Operational) :
    GateVerdict metrics endpoints thresholds now
      (evaluateFeasibility metrics endpoints thresholds now) := by
  have hfeasible := evaluateFeasibility_of_not_operational h metrics thresholds now
  obtain ⟨hpredicates, hrefused⟩ := evaluateFeasibility_endpoints metrics thresholds now h
  constructor
  · rw [hfeasible]
    refine ⟨fun hfalse => absurd hfalse (by simp), fun ⟨m, _, hm⟩ => absurd hm.operational h⟩
  · rw [hfeasible, hpredicates, endpoints_passed_iff]
    exact ⟨fun hfalse => absurd hfalse (by simp), fun hall => absurd hall h⟩
  · intro htrue
    exact absurd (hfeasible.symm.trans htrue) (by simp)
  · intro _
    rw [hpredicates]
    exact hrefused
  · rw [hpredicates]
    exact List.sublist_append_left _ _
  · -- no predicate but those of the endpoints has been written
    intro before p after hsplit _
    refine Or.inr ?_
    have hmem : p ∈ (endpoints.predicates : List (GatePredicate F)) := by
      rw [← hpredicates, hsplit]
      exact List.mem_append_right _ List.mem_cons_self
    simp only [LinkEndpoints.predicates, List.mem_cons, List.not_mem_nil, or_false] at hmem
    rcases hmem with rfl | rfl | rfl | rfl <;> simp [endpointNames]

/-- What the gate says between operational ends when there is no metric. -/
theorem gateVerdict_unavailable {endpoints : LinkEndpoints} (thresholds : GateThresholds F) (now : F)
    (h : endpoints.Operational) : GateVerdict none endpoints thresholds now
      (evaluateFeasibility none endpoints thresholds now) := by
  have hpassed := (endpoints_passed_iff (F := F) endpoints).mpr h
  obtain ⟨hs, hd, hsf, hdf⟩ := h
  have hdecision : evaluateFeasibility none endpoints thresholds now = {
      feasible := false, reason := .linkServiceUnavailable
      predicates := endpoints.predicates ++
        [{ name := "link_metric_available", passed := false, value := .missing
           threshold := .text "available" }] } := by
    simp [evaluateFeasibility, hs, hd, hsf, hdf]
  rw [hdecision]
  constructor
  · simp
  · simp
  · simp
  · intro _
    exact ⟨endpoints.predicates, _, [], rfl, hpassed, rfl, rfl⟩
  · show List.Sublist (endpointNames ++ ["link_metric_available"]) gateOrder
    exact List.Sublist.append (List.Sublist.refl _) (by decide)
  · intro before p after hsplit hp
    exact Or.inl (eq_nil_of_failed hsplit hpassed hp)

/-- What the gate says about a metric between operational ends. -/
theorem gateVerdict_metric (metrics : LinkMetrics F) {endpoints : LinkEndpoints}
    (thresholds : GateThresholds F) (now : F) (h : endpoints.Operational) :
    GateVerdict (some metrics) endpoints thresholds now
      (evaluateFeasibility (some metrics) endpoints thresholds now) := by
  have hends := (endpoints_passed_iff (F := F) endpoints).mpr h
  have hchecks := @metricChecks_passed_iff F _ metrics endpoints thresholds now h
  obtain ⟨hnames, hreasons⟩ := metricChecks_names metrics (metrics.ageS now) thresholds
  rw [evaluateFeasibility_operational h]
  rcases runChecks_spec (metrics.ageS now) endpoints.predicates
    (metricChecks metrics (metrics.ageS now) thresholds) with
    ⟨hall, hrun⟩ | ⟨before, check, after, hsplit, hbefore, hcheck, hrun⟩
  · -- every check passes
    have hpassed : ∀ p ∈ endpoints.predicates ++ (metricChecks metrics (metrics.ageS now)
        thresholds).map GateCheck.predicate, p.passed = true := by
      intro p hp
      rcases List.mem_append.mp hp with hp | hp
      · exact hends p hp
      · obtain ⟨check, hmem, rfl⟩ := List.mem_map.mp hp
        exact hall check hmem
    rw [hrun]
    constructor
    · exact ⟨fun _ => ⟨metrics, rfl, hchecks.mp hall⟩, fun _ => rfl⟩
    · exact ⟨fun _ => hpassed, fun _ => rfl⟩
    · exact fun _ => rfl
    · simp
    · rw [List.map_append, List.map_map]
      exact List.Sublist.append (List.Sublist.refl _) (hnames.trans (List.sublist_cons_self _ _))
    · intro front p back hfront hp
      dsimp only at hfront
      have hmem := hpassed p (by rw [hfront]; exact List.mem_append_right _ List.mem_cons_self)
      exact absurd (hmem.symm.trans hp) (by simp)
  · -- `check` is the first that fails, and the last that is listed
    have hpassed : ∀ p ∈ endpoints.predicates ++ before.map GateCheck.predicate,
        p.passed = true := by
      intro p hp
      rcases List.mem_append.mp hp with hp | hp
      · exact hends p hp
      · obtain ⟨earlier, hmem, rfl⟩ := List.mem_map.mp hp
        exact hbefore earlier hmem
    have hmem : check ∈ metricChecks metrics (metrics.ageS now) thresholds := by
      rw [hsplit]
      exact List.mem_append_right _ List.mem_cons_self
    have hlisted : endpoints.predicates ++ (before ++ [check]).map GateCheck.predicate =
        (endpoints.predicates ++ before.map GateCheck.predicate) ++ [check.predicate] := by simp
    rw [hrun, hlisted]
    constructor
    · refine ⟨fun hfalse => absurd hfalse (by simp), fun ⟨m, hm, hfeasible⟩ => ?_⟩
      obtain rfl := Option.some.inj hm
      exact absurd ((hchecks.mpr hfeasible check hmem).symm.trans hcheck) (by simp)
    · refine ⟨fun hfalse => absurd hfalse (by simp), fun hall => ?_⟩
      exact absurd ((hall _ (List.mem_append_right _ List.mem_cons_self)).symm.trans hcheck)
        (by simp)
    · simp
    · intro _
      exact ⟨_, _, [], rfl, hpassed, hcheck, hreasons check hmem⟩
    · -- the checks that were made are a beginning of all
      have hmade : ((before.map fun c => c.predicate.name) ++ [check.predicate.name]).Sublist
          metricNames := by
        refine List.Sublist.trans ?_ hnames
        rw [hsplit, List.map_append, List.map_cons]
        exact List.Sublist.append (List.Sublist.refl _) (by simp)
      rw [List.map_append, List.map_append, List.map_map, List.append_assoc]
      exact List.Sublist.append (List.Sublist.refl _) (hmade.trans (List.sublist_cons_self _ _))
    · intro front p back hfront hp
      exact Or.inl (eq_nil_of_failed hfront hpassed hp)

/-- What the gate says. -/
theorem gateVerdict (metrics : Option (LinkMetrics F)) (endpoints : LinkEndpoints)
    (thresholds : GateThresholds F) (now : F) :
    GateVerdict metrics endpoints thresholds now
      (evaluateFeasibility metrics endpoints thresholds now) := by
  by_cases h : endpoints.Operational
  · cases metrics with
    | none => exact gateVerdict_unavailable thresholds now h
    | some m => exact gateVerdict_metric m thresholds now h
  · exact gateVerdict_endpoints metrics thresholds now h

end

/-! ## Stricter thresholds -/

section

variable [PyOrder F]

/-- The same float, or a smaller one. -/
def AtMost (x y : F) : Prop := x = y ∨ PyFloat.le x y = true

theorem AtMost.le_left {x y z : F} (h : AtMost x y) (hle : PyFloat.le y z = true) :
    PyFloat.le x z = true := by
  rcases h with rfl | h
  · exact hle
  · exact PyFloat.Ordered.le_trans h hle

theorem AtMost.le_right {x y z : F} (h : AtMost x y) (hle : PyFloat.le z x = true) :
    PyFloat.le z y = true := by
  rcases h with rfl | h
  · exact hle
  · exact PyFloat.Ordered.le_trans hle h

theorem AtMost.lt_right {x y z : F} (h : AtMost x y) (hlt : PyFloat.lt z x = true) :
    PyFloat.lt z y = true := by
  rcases h with rfl | h
  · exact hlt
  · exact PyFloat.Ordered.lt_of_lt_of_le hlt h

/-- Thresholds that ask for at least as much as others do. -/
structure GateThresholds.Stricter (strict thresholds : GateThresholds F) : Prop where
  operationalRangeM : AtMost strict.operationalRangeM thresholds.operationalRangeM
  hardOutageDistanceM : AtMost strict.hardOutageDistanceM thresholds.hardOutageDistanceM
  minSnrDb : AtMost thresholds.minSnrDb strict.minSnrDb
  minCapacityMbps : AtMost thresholds.minCapacityMbps strict.minCapacityMbps
  /-- A minimum that is asked for stays, or becomes a higher one; one may be added. -/
  minSinrDb : ∀ minSinrDb ∈ thresholds.minSinrDb, ∃ strictSinrDb ∈ strict.minSinrDb,
    AtMost minSinrDb strictSinrDb
  metricTtlS : AtMost strict.metricTtlS thresholds.metricTtlS

/-- A link that meets stricter thresholds meets the others. -/
theorem LinkFeasible.of_stricter {metrics : LinkMetrics F} {endpoints : LinkEndpoints}
    {strict thresholds : GateThresholds F} {now : F} (hstricter : strict.Stricter thresholds)
    (h : LinkFeasible metrics endpoints strict now) :
    LinkFeasible metrics endpoints thresholds now where
  operational := h.operational
  fresh := hstricter.metricTtlS.le_right h.fresh
  inHardOutage := hstricter.hardOutageDistanceM.lt_right h.inHardOutage
  inRange := hstricter.operationalRangeM.le_right h.inRange
  snr := hstricter.minSnrDb.le_left h.snr
  sinr := by
    intro minSinrDb hmin sinrDb hsinr
    obtain ⟨strictSinrDb, hstrict, hle⟩ := hstricter.minSinrDb minSinrDb hmin
    exact hle.le_left (h.sinr strictSinrDb hstrict sinrDb hsinr)
  capacity := hstricter.minCapacityMbps.le_left h.capacity

/-- The gate keeps its promise for every metric, or none, and stricter thresholds never accept what
others refuse. -/
theorem evaluateFeasibility_spec (metrics : Option (LinkMetrics F)) (endpoints : LinkEndpoints)
    (thresholds : GateThresholds F) (now : F) :
    GateVerdict metrics endpoints thresholds now
        (evaluateFeasibility metrics endpoints thresholds now) ∧
      ∀ strict : GateThresholds F, strict.Stricter thresholds →
        (evaluateFeasibility metrics endpoints strict now).feasible = true →
          (evaluateFeasibility metrics endpoints thresholds now).feasible = true := by
  refine ⟨gateVerdict metrics endpoints thresholds now, fun strict hstricter hfeasible => ?_⟩
  obtain ⟨m, hm, hmeets⟩ := (gateVerdict metrics endpoints strict now).feasible_iff.mp hfeasible
  exact (gateVerdict metrics endpoints thresholds now).feasible_iff.mpr
    ⟨m, hm, hmeets.of_stricter hstricter⟩

end

end Netlab
