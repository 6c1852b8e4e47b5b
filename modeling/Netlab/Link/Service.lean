import Netlab.Link.Gate

/-!
# The link service

`evaluate_one` of `realtime_link_server.py`. A request is a mapping of JSON values. The service
computes the metrics of the link, reports them in a payload for which an older field,
`noise_floor_dbm`, can replace the thermal noise, and runs the feasibility gate on the metrics when
the request carries a gate field. A request on which the service raises gives `none`.
-/

namespace Netlab

variable {F : Type}

/-- The error of a refused request. -/
structure ServiceError where
  code : String
  message : String
  component : String
  recommendation : String
  deriving DecidableEq, Repr

/-- No adapter for ray tracing is ever active. -/
def sionnaRtNotReady : ServiceError where
  code := "SIONNA_RT_ADAPTER_NOT_READY"
  message := "A geometry-aware Sionna RT scene adapter is not active for this request."
  component := "link_service"
  recommendation := "Load a validated world with electromagnetic materials or enable an explicit " ++
    "analytical fallback."

/-- The metrics as the service reports them. A number that is not finite is reported as `null`,
here `none`. -/
structure MetricPayload (F : Type) where
  linkId : String
  src : String
  dst : String
  distanceM : Option F
  pathLossDb : Option F
  rxPowerDbm : Option F
  noiseDbm : Option F
  snrDb : Option F
  sinrDb : Option F
  capacityMbps : Option F
  propagationDelayMs : Option F
  totalDelayMs : Option F
  losState : String
  model : String
  modelVersion : String
  fidelity : FidelityProfile
  componentsDb : List (String × Option F)
  requestId : String
  engine : String
  status : String
  modelSource : String
  fidelityProfile : String
  txAntenna : Json F
  rxAntenna : Json F
  txAntennaGainDbi : Option F
  rxAntennaGainDbi : Option F
  cacheStatus : String
  uncertaintyKind : String
  shadowingSigmaDb : Option F
  noiseModel : String
  requestedModel : Option String := none
  fallbackUsed : Option Bool := none
  fallbackReason : Option String := none

/-- The answer of the service. The decision is there when the request carries a gate field. -/
inductive LinkResponse (F : Type)
  | refused (requestId : String) (error : ServiceError)
  | evaluated (requestId : String) (metrics : MetricPayload F)
      (decision : Option (FeasibilityDecision F))

variable [PyText F] [PyFloat F]

/-- A number of the payload, `null` unless it is finite. -/
def jsonSafe (x : F) : Option F := if PyFloat.isFinite x then some x else none

/-- The part of the metrics that depends on the noise. -/
structure NoiseMetrics (F : Type) where
  noiseDbm : Option F
  snrDb : F
  sinrDb : Option F
  capacityMbps : F
  noiseModel : String

/-- The noise-dependent metrics that are reported: those of the link, unless the request supplies
a noise floor, which replaces the thermal noise. -/
def reportedNoise (metrics : LinkMetrics F) (request : Dict String (Json F)) :
    Option (NoiseMetrics F) :=
  match request.get? "noise_floor_dbm" with
  | some floor => do
      let noiseDbm ← floor.toFloat?
      -- a noise floor of the request replaces the thermal noise in what is reported
      let snrDb := metrics.rxPowerDbm - noiseDbm
      let interferenceMargin ← request.getFloat "interference_margin_db" 0.0
      let sinrDb := snrDb - interferenceMargin
      let factor ← request.getFloat "spectral_efficiency_factor" 0.75
      let bandwidthHz ← request.getFloat "bandwidth_hz" 20e6
      return {
        noiseDbm := some noiseDbm, snrDb, sinrDb := some sinrDb
        capacityMbps := ← capacityAt factor bandwidthHz sinrDb
        noiseModel := "explicit_legacy_noise_floor" }
  | none => some {
      noiseDbm := none, snrDb := metrics.snrDb, sinrDb := metrics.sinrDb
      capacityMbps := metrics.capacityMbps
      noiseModel := "thermal_noise_plus_receiver_noise_figure" }

/-- The payload that reports metrics. -/
def metricPayload (metrics : LinkMetrics F) (request : Dict String (Json F)) :
    Option (MetricPayload F) := do
  let txAntennaGainDbi ← request.getFloatOr "tx_antenna_gain_dbi" "tx_gain_dbi" 0.0
  let rxAntennaGainDbi ← request.getFloatOr "rx_antenna_gain_dbi" "rx_gain_dbi" 0.0
  let shadowingSigmaDb ← request.getFloat "shadowing_sigma_db" 0.0
  let noise ← reportedNoise metrics request
  let unspecified : Json F := .str "unspecified"
  return {
    linkId := metrics.linkId
    src := metrics.src
    dst := metrics.dst
    distanceM := jsonSafe metrics.distanceM
    pathLossDb := jsonSafe metrics.pathLossDb
    rxPowerDbm := jsonSafe metrics.rxPowerDbm
    noiseDbm := noise.noiseDbm.bind jsonSafe
    snrDb := jsonSafe noise.snrDb
    sinrDb := noise.sinrDb.bind jsonSafe
    capacityMbps := jsonSafe noise.capacityMbps
    propagationDelayMs := jsonSafe metrics.propagationDelayMs
    totalDelayMs := jsonSafe metrics.totalDelayMs
    losState := metrics.losState
    model := metrics.model
    modelVersion := metrics.modelVersion
    fidelity := metrics.fidelity
    componentsDb := metrics.componentsDb.map fun component =>
      (component.1, jsonSafe component.2)
    requestId := metrics.requestId
    engine := "netlab-link-service"
    status := "ok"
    modelSource := metrics.model
    fidelityProfile := metrics.fidelity.value
    txAntenna := (request.getD "tx_antenna" (request.getD "tx_antenna_id" unspecified)).safe
    rxAntenna := (request.getD "rx_antenna" (request.getD "rx_antenna_id" unspecified)).safe
    txAntennaGainDbi := jsonSafe txAntennaGainDbi
    rxAntennaGainDbi := jsonSafe rxAntennaGainDbi
    cacheStatus := "MISS"
    uncertaintyKind := "analytical_or_seeded_stochastic"
    shadowingSigmaDb := jsonSafe shadowingSigmaDb
    noiseModel := noise.noiseModel }

/-- The thresholds block of a request; anything but a mapping counts as empty. -/
def thresholdBlock (raw : Dict String (Json F)) : Dict String (Json F) :=
  ((raw.getD "thresholds" (.obj [])).dict?).getD .empty

/-- A threshold under any of its names: for each name the flat field comes before the block. -/
def threshold (raw thresholds : Dict String (Json F)) : List String → F → Option F
  | [], default => some default
  | key :: names, default =>
      match raw.get? key, thresholds.get? key with
      | some value, _ => value.toFloat?
      | none, some value => value.toFloat?
      | none, none => threshold raw thresholds names default

/-- The fields that ask for a gate decision. -/
def gateKeys : List String :=
  ["operational_range_m", "max_single_hop_range_m", "hard_outage_distance_m",
    "hard_outage_range_m", "min_snr_db", "min_sinr_db", "min_capacity_mbps",
    "required_capacity_mbps", "source_active", "destination_active", "source_failed",
    "destination_failed"]

/-- Whether a request carries a gate field, flat or in its thresholds block. -/
def hasGateRequest (raw : Dict String (Json F)) : Bool :=
  gateKeys.any (fun key => (raw.get? key).isSome) ||
    gateKeys.any fun key => ((thresholdBlock raw).get? key).isSome

/-- The thresholds of a request. -/
def gateThresholds (raw : Dict String (Json F)) : Option (GateThresholds F) := do
  let block := thresholdBlock raw
  let minSnrDb ← threshold raw block ["min_snr_db"] 3.0
  return {
    -- each threshold has a name of its own in the older requests
    operationalRangeM :=
      ← threshold raw block ["operational_range_m", "max_single_hop_range_m"] 90.0
    hardOutageDistanceM :=
      ← threshold raw block ["hard_outage_distance_m", "hard_outage_range_m"] 220.0
    minSnrDb
    minSinrDb := some (← threshold raw block ["min_sinr_db"] minSnrDb)
    minCapacityMbps := ← threshold raw block ["min_capacity_mbps", "required_capacity_mbps"] 1.0
    metricTtlS := ← threshold raw block ["metric_ttl_s"] 2.0 }

/-- The end points of a request. -/
def linkEndpoints (raw : Dict String (Json F)) : LinkEndpoints where
  sourceActive := raw.getBool "source_active" true
  destinationActive := raw.getBool "destination_active" true
  sourceFailed := raw.getBool "source_failed" false
  destinationFailed := raw.getBool "destination_failed" false

/-- The model a request names, in lower case and without blanks around it. -/
def requestedModel (raw : Dict String (Json F)) : String :=
  PyText.lower F (PyText.strip F (raw.getText "model" "sionna_analytical"))

/-- The request that is evaluated: ray tracing is replaced by the fallback model, and the request
has an identifier. -/
def normalizedRequest (requestId : String) (raw : Dict String (Json F)) :
    Dict String (Json F) :=
  let normalized :=
    if requestedModel raw = "sionna_rt" then
      raw.set "model" (.str (raw.getText "fallback_model" "free_space"))
    else raw
  normalized.set "request_id" (.str requestId)

/-- The identifier of a request: its own, or the one drawn for it. -/
def requestIdOf (freshId : String) (raw : Dict String (Json F)) : String :=
  match raw.get? "request_id" with
  | some requestId => if requestId.truthy then requestId.toText else freshId
  | none => freshId

/-- The decision on the metrics of a request, if it asks for one. -/
def gateDecision (metrics : LinkMetrics F) (raw : Dict String (Json F)) (now : F) :
    Option (Option (FeasibilityDecision F)) :=
  if hasGateRequest raw then do
    return some (evaluateFeasibility (some metrics) (linkEndpoints raw) (← gateThresholds raw) now)
  else some none

/-- The payload with the model that was asked for and whether a fallback replaced it. -/
def MetricPayload.withFallback (payload : MetricPayload F) (requestedModel : String)
    (fallback : Bool) : MetricPayload F :=
  { payload with
    requestedModel := some requestedModel
    fallbackUsed := some fallback
    fallbackReason := if fallback then some sionnaRtNotReady.code else payload.fallbackReason
    status := if fallback then "analytical_fallback" else payload.status }

/-- Evaluate one request. The clock is read when the metrics are computed and again by the gate. -/
def evaluateOne (propagation : Propagation F) (freshId : String) (computedAt now : F)
    (raw : Dict String (Json F)) : Option (LinkResponse F) :=
  let requestId := requestIdOf freshId raw
  -- the ray tracer is not there, so its requests fall back to an analytical model
  let fallback : Bool := requestedModel raw = "sionna_rt"
  if fallback && !raw.getBool "allow_fallback" true then
    some (.refused requestId sionnaRtNotReady)
  else do
    let request ← LinkRequest.fromMapping (normalizedRequest requestId raw)
    let metrics ← computeAnalyticalLink propagation freshId computedAt request
    let payload ← metricPayload metrics raw
    return .evaluated requestId (payload.withFallback (requestedModel raw) fallback)
      (← gateDecision metrics raw now)

/-! ## What an evaluated request went through -/

/-- The link request that is evaluated for a raw one. -/
def linkRequest (freshId : String) (raw : Dict String (Json F)) : Option (LinkRequest F) :=
  LinkRequest.fromMapping (normalizedRequest (requestIdOf freshId raw) raw)

/-- Normalizing touches the model and the identifier only. -/
theorem getFloat_normalizedRequest {raw : Dict String (Json F)} {requestId key : String}
    (hmodel : key ≠ "model") (hid : key ≠ "request_id") (default : F) :
    (normalizedRequest requestId raw).getFloat key default = raw.getFloat key default := by
  rw [normalizedRequest, Dict.getFloat, Dict.getD, Dict.get?_set_of_ne _ _ hid]
  split
  · rw [Dict.get?_set_of_ne _ _ hmodel, Dict.getFloat, Dict.getD]
  · rfl

/-- The reported noise-dependent metrics of a request that supplies a noise floor. -/
theorem reportedNoise_floor {freshId : String} {metrics : LinkMetrics F}
    {raw : Dict String (Json F)} {request : LinkRequest F} {noise : NoiseMetrics F}
    {value : Json F} (hrequest : linkRequest freshId raw = some request)
    (hvalue : raw.get? "noise_floor_dbm" = some value)
    (h : reportedNoise metrics raw = some noise) :
    ∃ floor sinrDb, value.toFloat? = some floor ∧ noise.snrDb = metrics.rxPowerDbm - floor ∧
      noise.sinrDb = some sinrDb ∧ sinrDb = noise.snrDb - request.interferenceMarginDb ∧
      capacityAt request.spectralEfficiencyFactor request.bandwidthHz sinrDb =
        some noise.capacityMbps := by
  obtain ⟨hbandwidth, hinterference, hfactor⟩ := LinkRequest.fromMapping_radio hrequest
  rw [getFloat_normalizedRequest (by decide) (by decide)] at hbandwidth hinterference hfactor
  simp only [reportedNoise, hvalue, hbandwidth, hinterference, hfactor, bind, pure,
    Option.bind_eq_some_iff, Option.some.injEq] at h
  obtain ⟨floor, hfloor, _, rfl, _, rfl, _, rfl, capacity, hcapacity, rfl⟩ := h
  exact ⟨floor, _, hfloor, rfl, rfl, rfl, hcapacity⟩

/-- An evaluated request with a decision: the reported numbers are those of the link under the
reported noise, and the decision is the gate's on the link itself. -/
theorem evaluateOne_evaluated {propagation : Propagation F} {freshId requestId : String}
    {computedAt now : F} {raw : Dict String (Json F)} {payload : MetricPayload F}
    {decision : FeasibilityDecision F}
    (h : evaluateOne propagation freshId computedAt now raw =
      some (.evaluated requestId payload (some decision))) :
    ∃ request metrics noise thresholds,
      linkRequest freshId raw = some request ∧
        computeAnalyticalLink propagation freshId computedAt request = some metrics ∧
        reportedNoise metrics raw = some noise ∧ gateThresholds raw = some thresholds ∧
        payload.distanceM = jsonSafe metrics.distanceM ∧ payload.snrDb = jsonSafe noise.snrDb ∧
        payload.sinrDb = noise.sinrDb.bind jsonSafe ∧
        payload.capacityMbps = jsonSafe noise.capacityMbps ∧
        decision = evaluateFeasibility (some metrics) (linkEndpoints raw) thresholds now := by
  unfold evaluateOne at h
  dsimp only at h
  split at h
  · simp at h
  · simp only [metricPayload, gateDecision, bind, pure, Option.bind_eq_some_iff,
      Option.some.injEq, LinkResponse.evaluated.injEq] at h
    obtain ⟨request, hrequest, metrics, hmetrics, _, ⟨_, _, _, _, _, _, noise, hnoise, rfl⟩,
      decided, hdecided, _, rfl, rfl⟩ := h
    -- without a request for a decision there is none
    split at hdecided
    · simp only [Option.bind_eq_some_iff, Option.some.injEq] at hdecided
      obtain ⟨thresholds, hthresholds, hdecision⟩ := hdecided
      exact ⟨request, metrics, noise, thresholds, hrequest, hmetrics, hnoise, hthresholds, rfl,
        rfl, rfl, rfl, hdecision.symm⟩
    · simp at hdecided

/-- A request for another model than ray tracing is evaluated when each part of it is. -/
theorem evaluateOne_eq {propagation : Propagation F} {freshId : String} {computedAt now : F}
    {raw : Dict String (Json F)} {request : LinkRequest F} {metrics : LinkMetrics F}
    {payload : MetricPayload F} {decision : Option (FeasibilityDecision F)}
    (hmodel : requestedModel raw ≠ "sionna_rt")
    (hrequest : linkRequest freshId raw = some request)
    (hmetrics : computeAnalyticalLink propagation freshId computedAt request = some metrics)
    (hpayload : metricPayload metrics raw = some payload)
    (hdecision : gateDecision metrics raw now = some decision) :
    evaluateOne propagation freshId computedAt now raw =
      some (.evaluated (requestIdOf freshId raw)
        (payload.withFallback (requestedModel raw) false) decision) := by
  rw [linkRequest] at hrequest
  simp [evaluateOne, hmodel, hrequest, hmetrics, hpayload, hdecision]

/-- The decision of a request that carries a gate field. -/
theorem gateDecision_eq {metrics : LinkMetrics F} {raw : Dict String (Json F)} {now : F}
    {thresholds : GateThresholds F} (hgate : hasGateRequest raw = true)
    (hthresholds : gateThresholds raw = some thresholds) :
    gateDecision metrics raw now =
      some (some (evaluateFeasibility (some metrics) (linkEndpoints raw) thresholds now)) := by
  simp [gateDecision, hgate, hthresholds]

end Netlab
