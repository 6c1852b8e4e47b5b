import Netlab.Algorithm.Shield
import Netlab.Prelude.Traverse

/-!
# What the safety shield reads off the clock

The shield reads the wall clock to tell whether an action is stale, and for each edge of the preview
to tell whether the metric that it just computed is fresh. The rest of what it decides does not
depend on the time: readings that compare in the same way lead to the same outcome
(`applySafetyShield_outcome`).
-/

namespace Netlab

variable {F : Type}

/-- What a caller goes by: whether the action is accepted, the payload that is returned, and which
edges of the preview are feasible. -/
structure ShieldOutcome (F : Type) where
  accepted : Bool
  payload : Option (Dict String (Json F))
  feasible : List Bool

/-- The outcome of a decision. -/
def ShieldDecision.outcome (decision : ShieldDecision F) : ShieldOutcome F where
  accepted := decision.accepted
  payload := decision.action.map AlgorithmAction.payload
  feasible := decision.linkPreview.map LinkPreview.feasible

/-- What a review says, up to what its issues tell in detail. -/
structure ReviewOutcome (F : Type) where
  uavs : Dict String (Dict String (Json F))
  rejected : Bool
  normalized : Dict String (Vec3 F)
  feasible : List Bool

/-- The outcome of a review. -/
def ShieldReview.outcome (review : ShieldReview F) : ReviewOutcome F where
  uavs := review.uavs
  rejected := review.issues.any ShieldIssue.isError
  normalized := review.normalized
  feasible := review.linkPreview.map LinkPreview.feasible

section

variable [PyText F] [PyFloat F]

/-- Whether the gate finds a metric fresh. -/
def LinkStamp.isFresh (stamp : LinkStamp F) (metricTtlS : F) : Bool :=
  PyFloat.le (PyFloat.max 0.0 (stamp.decidedAt - stamp.computedAt)) metricTtlS

/-- The metrics of a link depend on the clock in their time stamp only, as far as the gate is
concerned. -/
theorem computeAnalyticalLink_stamp {propagation : Propagation F} {request : LinkRequest F}
    {freshId : String} {computedAt : F} {metrics : LinkMetrics F} (freshId' : String)
    (computedAt' : F)
    (h : computeAnalyticalLink propagation freshId computedAt request = some metrics) :
    ∃ metrics', computeAnalyticalLink propagation freshId' computedAt' request = some metrics' ∧
      metrics'.distanceM = metrics.distanceM ∧ metrics'.snrDb = metrics.snrDb ∧
      metrics'.sinrDb = metrics.sinrDb ∧ metrics'.capacityMbps = metrics.capacityMbps ∧
      metrics'.timestampWallS = computedAt' ∧ metrics.timestampWallS = computedAt := by
  simp only [computeAnalyticalLink, bind, pure, Option.bind_eq_some_iff, Option.some.injEq] at h
  obtain ⟨signal, hsignal, noiseDbm, hnoise, capacity, hcapacity, delay, hdelay, rfl⟩ := h
  simp [computeAnalyticalLink, hsignal, hnoise, hcapacity, hdelay]

omit [PyText F] in
/-- What the gate decides about metrics that differ in their time stamp, if they are
equally fresh. -/
theorem evaluateFeasibility_stamp {metrics metrics' : LinkMetrics F} {endpoints : LinkEndpoints}
    {thresholds : GateThresholds F} {now now' : F}
    (hdistance : metrics'.distanceM = metrics.distanceM) (hsnr : metrics'.snrDb = metrics.snrDb)
    (hsinr : metrics'.sinrDb = metrics.sinrDb)
    (hcapacity : metrics'.capacityMbps = metrics.capacityMbps)
    (hfresh : PyFloat.le (metrics.ageS now) thresholds.metricTtlS =
      PyFloat.le (metrics'.ageS now') thresholds.metricTtlS) :
    (evaluateFeasibility (some metrics) endpoints thresholds now).feasible =
      (evaluateFeasibility (some metrics') endpoints thresholds now').feasible := by
  by_cases hendpoints : endpoints.Operational
  · rw [Bool.eq_iff_iff, evaluateFeasibility_feasible_iff hendpoints,
      evaluateFeasibility_feasible_iff hendpoints, hfresh, hdistance, hsnr, hsinr, hcapacity]
  · rw [evaluateFeasibility_of_not_operational hendpoints,
      evaluateFeasibility_of_not_operational hendpoints]

/-- An edge is feasible at two readings of the clock at which its metric is equally fresh, or at
neither. -/
theorem previewEdge_stamp {propagation : Propagation F} {stamp stamp' : LinkStamp F}
    {positions : Dict String (Vec3 F)} {config : Dict String (Json F)}
    {uavs : Dict String (Dict String (Json F))} {src dst : String}
    (h : ∀ thresholds, previewThresholds config = some thresholds →
      stamp.isFresh thresholds.metricTtlS = stamp'.isFresh thresholds.metricTtlS) :
    (previewEdge propagation stamp positions config uavs src dst).map LinkPreview.feasible =
      (previewEdge propagation stamp' positions config uavs src dst).map LinkPreview.feasible := by
  rw [previewEdge, previewEdge]
  split
  · rename_i txPosition rxPosition _ _
    cases previewRequest config src dst txPosition rxPosition with
    | none => rfl
    | some request =>
        simp only [Option.bind_eq_bind, Option.bind_some]
        cases hmetrics :
            computeAnalyticalLink propagation stamp.freshId stamp.computedAt request with
        | none =>
            cases hmetrics' :
                computeAnalyticalLink propagation stamp'.freshId stamp'.computedAt request with
            | none => rfl
            | some metrics' =>
                -- a stamp changes the metrics, never whether there are any
                obtain ⟨_, hsome, -⟩ :=
                  computeAnalyticalLink_stamp stamp.freshId stamp.computedAt hmetrics'
                simp [hmetrics] at hsome
        | some metrics =>
            obtain ⟨metrics', hmetrics', hdistance, hsnr, hsinr, hcapacity, htime', htime⟩ :=
              computeAnalyticalLink_stamp stamp'.freshId stamp'.computedAt hmetrics
            rw [hmetrics']
            cases hthresholds : previewThresholds config with
            | none => rfl
            | some thresholds =>
                -- all that the gate sees of the stamp is whether the metrics are fresh
                have hfresh := h thresholds hthresholds
                rw [LinkStamp.isFresh, LinkStamp.isFresh, ← htime, ← htime'] at hfresh
                simp only [Option.bind_some, Option.pure_def, Option.map_some,
                  LinkPreview.feasible, Option.any_some]
                rw [evaluateFeasibility_stamp hdistance hsnr hsinr hcapacity hfresh]
  · rfl

/-- Readings of the clock that the shield does not tell apart when it looks at an action. -/
structure SameReadings (config : Dict String (Json F)) (action : AlgorithmAction F) (now now' : F)
    (stamps stamps' : ℕ → LinkStamp F) : Prop where
  /-- The action is stale at both times or at neither. -/
  stale : action.isStale now = action.isStale now'
  /-- The metric of each edge is fresh at both times or at neither. -/
  fresh : ∀ thresholds edges, previewThresholds config = some thresholds →
    topologyEdges (Experiment.mappingOrEmpty config "topology") = some edges →
    ∀ i < edges.length, (stamps i).isFresh thresholds.metricTtlS =
      (stamps' i).isFresh thresholds.metricTtlS

/-- The preview at two readings of the clock that are not told apart. -/
theorem connectivityPreview_stamp {propagation : Propagation F} {stamps stamps' : ℕ → LinkStamp F}
    {positions : Dict String (Vec3 F)} {config : Dict String (Json F)}
    {uavs : Dict String (Dict String (Json F))}
    (h : ∀ thresholds edges, previewThresholds config = some thresholds →
      topologyEdges (Experiment.mappingOrEmpty config "topology") = some edges →
      ∀ i < edges.length, (stamps i).isFresh thresholds.metricTtlS =
        (stamps' i).isFresh thresholds.metricTtlS) :
    (connectivityPreview propagation stamps positions config uavs).map
        (fun preview => (preview.1.map LinkPreview.feasible, preview.2)) =
      (connectivityPreview propagation stamps' positions config uavs).map
        (fun preview => (preview.1.map LinkPreview.feasible, preview.2)) := by
  rw [connectivityPreview, connectivityPreview]
  cases hedges : topologyEdges (Experiment.mappingOrEmpty config "topology") with
  | none => simp only [Option.bind_eq_bind, Option.bind_none, Option.map_none]
  | some edges =>
      -- the loop stamps the edge at index i with the stamp i
      have hpreviews : (previewEdges propagation stamps positions config uavs edges).map
            (List.map LinkPreview.feasible) =
          (previewEdges propagation stamps' positions config uavs edges).map
            (List.map LinkPreview.feasible) := by
        rw [previewEdges, previewEdges, List.map_mapM, List.map_mapM]
        refine List.mapM_congr_left fun ⟨edge, i⟩ hedge => ?_
        have hi : i < edges.length := by
          obtain ⟨hi, -⟩ := List.getElem?_eq_some_iff.mp (List.mem_zipIdx_iff_getElem?.mp hedge)
          exact hi
        exact previewEdge_stamp fun thresholds hthresholds =>
          h thresholds edges hthresholds hedges i hi
      simp only [Option.bind_eq_bind, Option.bind_some, Option.pure_def]
      rcases Option.cases_of_map_eq hpreviews with
        ⟨hleft, hright⟩ | ⟨left, right, hleft, hright, heq⟩
      · rw [hleft, hright]
      · rw [hleft, hright]
        have hall : left.all LinkPreview.feasible = right.all LinkPreview.feasible := by
          simpa [List.all_map, Function.comp_def] using congrArg (List.all · id) heq
        simp only [Option.bind_some, Option.map_some, hall, heq]

end

variable [PyText F] [PyMotion F]

/-- A review at two readings of the clock that are not told apart. -/
theorem reviewPositions_outcome {propagation : Propagation F} {stamps stamps' : ℕ → LinkStamp F}
    {requireConnectivity : Bool} {config : Dict String (Json F)} {action : AlgorithmAction F}
    {now now' : F} {frame : String} {uavs : Dict String (Dict String (Json F))}
    {desired : Dict String (Vec3 F)} (h : SameReadings config action now now' stamps stamps') :
    (reviewPositions propagation stamps requireConnectivity config frame uavs desired).map
        ShieldReview.outcome =
      (reviewPositions propagation stamps' requireConnectivity config frame uavs desired).map
        ShieldReview.outcome := by
  simp only [reviewPositions, Option.bind_eq_bind, Option.pure_def]
  -- up to the preview the clock is not read
  refine Option.map_bind_congr (fun limits => ?_) _
  refine Option.map_bind_congr (fun commands => ?_) _
  refine Option.map_bind_congr (fun complete => ?_) _
  refine Option.map_bind_congr (fun reserve => ?_) _
  refine Option.map_bind_congr (fun lowBattery => ?_) _
  rcases Option.cases_of_map_eq
      (connectivityPreview_stamp h.fresh : (connectivityPreview propagation stamps complete config
        uavs).map _ = (connectivityPreview propagation stamps' complete config uavs).map _) with
    ⟨hleft, hright⟩ | ⟨⟨left, connected⟩, ⟨right, connected'⟩, hleft, hright, heq⟩
  · rw [hleft, hright]
  · obtain ⟨hfeasible, rfl⟩ := Prod.mk.inj heq
    have hissue : ∀ preview preview' : List (LinkPreview F),
        (if requireConnectivity && !connected then [connectivityIssue preview] else []).any
            ShieldIssue.isError =
          (if requireConnectivity && !connected then [connectivityIssue preview'] else []).any
            ShieldIssue.isError := by
      intro preview preview'
      split <;> rfl
    rw [hleft, hright]
    simp only [Option.bind_some, Option.map_some, ShieldReview.outcome, hfeasible, List.any_append,
      hissue left right]

/-- The conclusion only depends on the outcome of the review. -/
theorem concludeReview_outcome {config : Dict String (Json F)} {action : AlgorithmAction F}
    {review review' : ShieldReview F} (h : review.outcome = review'.outcome) :
    (concludeReview config action review).map ShieldDecision.outcome =
      (concludeReview config action review').map ShieldDecision.outcome := by
  obtain ⟨huavs, hrejected, hnormalized, hfeasible⟩ := ReviewOutcome.mk.inj h
  simp only [concludeReview, Option.bind_eq_bind, Option.pure_def, huavs, hrejected]
  cases Experiment.section? (Experiment.mappingOrEmpty config "swarm") "controller" with
  | none => rfl
  | some controller =>
      simp only [Option.bind_some]
      split
      · cases fallbackPositions review'.uavs with
        | none => rfl
        | some positions => simp [ShieldDecision.outcome, hfeasible]
      · simp [ShieldDecision.outcome, hfeasible, hnormalized]

/-- The shield comes to the same outcome at readings of the clock that it does not tell apart. -/
theorem applySafetyShield_outcome {propagation : Propagation F} {now now' : F}
    {stamps stamps' : ℕ → LinkStamp F} {requireConnectivity : Bool} {action : AlgorithmAction F}
    {snapshot config : Dict String (Json F)}
    (h : SameReadings config action now now' stamps stamps') :
    (applySafetyShield propagation now stamps requireConnectivity action snapshot config).map
        ShieldDecision.outcome =
      (applySafetyShield propagation now' stamps' requireConnectivity action snapshot config).map
        ShieldDecision.outcome := by
  have hvalidate : action.validate now = action.validate now' := by
    rw [AlgorithmAction.validate, AlgorithmAction.validate, h.stale]
  rw [applySafetyShield, applySafetyShield, hvalidate]
  split
  · -- past the validation the clock is read through the stamps only
    refine Option.map_bind_congr (fun uavs => ?_) _
    rw [shieldPositions.eq_def, shieldPositions.eq_def]
    split
    · rfl
    · split
      · rfl
      · rfl
      · rename_i desired _
        simp only [Option.bind_eq_bind]
        rcases Option.cases_of_map_eq
            (reviewPositions_outcome h : (reviewPositions propagation stamps requireConnectivity
              config action.coordinateFrame uavs desired).map _ = _) with
          ⟨hleft, hright⟩ | ⟨left, right, hleft, hright, heq⟩
        · rw [hleft, hright]
        · rw [hleft, hright]
          exact concludeReview_outcome heq
  · rfl

end Netlab
