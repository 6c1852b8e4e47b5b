import Netlab.Link.Service
import Mathlib.Analysis.Real.Pi.Bounds

/-!
# Reported metrics and the gate's decision

The link service reports the metrics of a link under the noise floor that a request supplies, but
decides on the metrics under thermal noise. In exact arithmetic each threshold bounds the noise a
link tolerates (`NoiseTolerable`), so the decision agrees with the reported numbers exactly when
the thermal noise and the supplied floor are both tolerable or both not
(`feasible_iff_reported_iff`).
-/

namespace Netlab

/-! ## Capacity as a limit on the noise -/

theorem capacityAt_real (factor bandwidthHz sinrDb : ℝ) :
    capacityAt factor bandwidthHz sinrDb =
      some (factor * bandwidthHz * Real.logb 2 (1 + 10 ^ (sinrDb / 10)) / 1e6) := by
  have hpos : (0 : ℝ) < 10 ^ (sinrDb / 10) := by positivity
  have hone : (1.0 : ℝ) + max 0.0 (10 ^ (sinrDb / 10)) = 1 + 10 ^ (sinrDb / 10) := by
    rw [max_eq_right (by norm_num; exact hpos.le)]
    norm_num
  have hdiv : PyFloat.div sinrDb (10.0 : ℝ) = some (sinrDb / 10) := by
    rw [PyFloat.div_real (by norm_num)]
    norm_num
  simp only [capacityAt, bind, hdiv, Option.bind_some, PyFloat.tenPow_real, PyFloat.max_real,
    hone, PyFloat.log2_real (show (0 : ℝ) < 1 + 10 ^ (sinrDb / 10) by positivity)]
  exact PyFloat.div_real (by norm_num)

/-- The SINR in dB at which a link that gains `rate` Mbit/s per bit of spectral efficiency has a
given capacity. -/
noncomputable def sinrForCapacityDb (rate capacityMbps : ℝ) : ℝ :=
  10 * Real.logb 10 (2 ^ (capacityMbps / rate) - 1)

/-- The linear SINR needed for a positive share of capacity is positive. -/
private theorem needed_pos {rate capacity : ℝ} (h : 0 < capacity / rate) :
    (0 : ℝ) < 2 ^ (capacity / rate) - 1 :=
  sub_pos.mpr (Real.one_lt_rpow one_lt_two h)

/-- With a positive rate a capacity is reached from a certain SINR on. -/
theorem capacity_le_iff_of_pos {rate capacity sinrDb : ℝ} (h : 0 < rate) :
    capacity ≤ rate * Real.logb 2 (1 + 10 ^ (sinrDb / 10)) ↔
      capacity ≤ 0 ∨ sinrForCapacityDb rate capacity ≤ sinrDb := by
  have hpos : (0 : ℝ) < 10 ^ (sinrDb / 10) := by positivity
  have hlin : capacity ≤ rate * Real.logb 2 (1 + 10 ^ (sinrDb / 10)) ↔
      2 ^ (capacity / rate) - 1 ≤ (10 : ℝ) ^ (sinrDb / 10) := by
    rw [← div_le_iff₀' h, Real.le_logb_iff_rpow_le one_lt_two (by positivity), sub_le_iff_le_add']
  rw [hlin]
  rcases le_or_gt capacity 0 with hc | hc
  · have hone : (2 : ℝ) ^ (capacity / rate) ≤ 1 :=
      Real.rpow_le_one_of_one_le_of_nonpos one_le_two (div_nonpos_of_nonpos_of_nonneg hc h.le)
    simp only [hc, true_or, iff_true]
    linarith
  · have hneed := needed_pos (div_pos hc h)
    rw [or_iff_right hc.not_ge, ← Real.logb_le_iff_le_rpow (by norm_num) hneed,
      le_div_iff₀' (by norm_num)]
    rfl

/-- With a negative rate a capacity below zero is reached up to a certain SINR. -/
theorem capacity_le_iff_of_neg {rate capacity sinrDb : ℝ} (h : rate < 0) :
    capacity ≤ rate * Real.logb 2 (1 + 10 ^ (sinrDb / 10)) ↔
      capacity < 0 ∧ sinrDb ≤ sinrForCapacityDb rate capacity := by
  have hpos : (0 : ℝ) < 10 ^ (sinrDb / 10) := by positivity
  have hlin : capacity ≤ rate * Real.logb 2 (1 + 10 ^ (sinrDb / 10)) ↔
      (10 : ℝ) ^ (sinrDb / 10) ≤ 2 ^ (capacity / rate) - 1 := by
    rw [← le_div_iff_of_neg' h, Real.logb_le_iff_le_rpow one_lt_two (by positivity),
      le_sub_iff_add_le']
  rw [hlin]
  rcases le_or_gt 0 capacity with hc | hc
  · have hone : (2 : ℝ) ^ (capacity / rate) ≤ 1 :=
      Real.rpow_le_one_of_one_le_of_nonpos one_le_two (div_nonpos_of_nonneg_of_nonpos hc h.le)
    simp only [hc.not_gt, false_and, iff_false, not_le]
    linarith
  · have hneed := needed_pos (div_pos_of_neg_of_neg hc h)
    rw [and_iff_right hc, ← Real.le_logb_iff_rpow_le (by norm_num) hneed,
      div_le_iff₀' (by norm_num)]
    rfl

/-! ## Tolerable noise -/

/-- The capacity in Mbit/s that a request gains per bit of spectral efficiency. -/
noncomputable def LinkRequest.rateMbps (request : LinkRequest ℝ) : ℝ :=
  request.spectralEfficiencyFactor * request.bandwidthHz / 1e6

/-- The noise powers under which a link with the given request has a capacity. A request with a
negative spectral efficiency factor, which the service does not exclude, has less capacity the
better the signal. -/
def CapacityTolerates (request : LinkRequest ℝ) (rxPowerDbm capacityMbps noiseDbm : ℝ) : Prop :=
  let limit := rxPowerDbm - request.interferenceMarginDb -
    sinrForCapacityDb request.rateMbps capacityMbps
  if 0 < request.rateMbps then capacityMbps ≤ 0 ∨ noiseDbm ≤ limit
  else if request.rateMbps = 0 then capacityMbps ≤ 0
  else capacityMbps < 0 ∧ limit ≤ noiseDbm

/-- The noise powers that the thresholds leave room for, given the received power: each threshold
is a limit on the noise. -/
def NoiseTolerable (request : LinkRequest ℝ) (thresholds : GateThresholds ℝ)
    (rxPowerDbm noiseDbm : ℝ) : Prop :=
  noiseDbm ≤ rxPowerDbm - thresholds.minSnrDb ∧
    (∀ minSinrDb ∈ thresholds.minSinrDb,
      noiseDbm ≤ rxPowerDbm - request.interferenceMarginDb - minSinrDb) ∧
    CapacityTolerates request rxPowerDbm thresholds.minCapacityMbps noiseDbm

/-- The capacity under a noise meets a threshold exactly when the noise is within the limit. -/
theorem capacityTolerates_iff {request : LinkRequest ℝ} {rxPowerDbm noiseDbm : ℝ}
    {threshold capacityMbps : ℝ}
    (h : capacityAt request.spectralEfficiencyFactor request.bandwidthHz
      (rxPowerDbm - noiseDbm - request.interferenceMarginDb) = some capacityMbps) :
    threshold ≤ capacityMbps ↔ CapacityTolerates request rxPowerDbm threshold noiseDbm := by
  rw [capacityAt_real, Option.some.injEq] at h
  have hcap : capacityMbps = request.rateMbps * Real.logb 2
      (1 + 10 ^ ((rxPowerDbm - noiseDbm - request.interferenceMarginDb) / 10)) := by
    rw [← h, LinkRequest.rateMbps]
    ring
  rw [hcap, CapacityTolerates]
  -- the sign of the rate decides whether more noise means less capacity
  rcases lt_trichotomy request.rateMbps 0 with hrate | hrate | hrate
  · rw [capacity_le_iff_of_neg hrate, if_neg hrate.not_gt, if_neg hrate.ne]
    refine and_congr_right fun _ => ?_
    constructor <;> intro hle <;> linarith
  · simp [hrate]
  · rw [capacity_le_iff_of_pos hrate, if_pos hrate]
    refine or_congr_right ?_
    constructor <;> intro hle <;> linarith

/-- The noise-dependent metrics under a noise meet the thresholds exactly when the noise is
tolerable. -/
theorem noiseTolerable_iff {request : LinkRequest ℝ} {thresholds : GateThresholds ℝ}
    {rxPowerDbm noiseDbm capacityMbps : ℝ}
    (h : capacityAt request.spectralEfficiencyFactor request.bandwidthHz
      (rxPowerDbm - noiseDbm - request.interferenceMarginDb) = some capacityMbps) :
    (thresholds.minSnrDb ≤ rxPowerDbm - noiseDbm ∧
        (∀ minSinrDb ∈ thresholds.minSinrDb,
          minSinrDb ≤ rxPowerDbm - noiseDbm - request.interferenceMarginDb) ∧
        thresholds.minCapacityMbps ≤ capacityMbps) ↔
      NoiseTolerable request thresholds rxPowerDbm noiseDbm := by
  rw [NoiseTolerable, capacityTolerates_iff h, le_sub_comm]
  refine and_congr_right fun _ => and_congr_left fun _ => forall₂_congr fun minSinrDb _ => ?_
  constructor <;> intro hle <;> linarith

/-! ## The decision and the report -/

/-- The reported numbers satisfy the distance, SNR, SINR and capacity thresholds. -/
def MetricPayload.Meets {F : Type} [PyFloat F] (payload : MetricPayload F)
    (thresholds : GateThresholds F) : Prop :=
  (∃ distanceM ∈ payload.distanceM, PyFloat.lt distanceM thresholds.hardOutageDistanceM = true ∧
      PyFloat.le distanceM thresholds.operationalRangeM = true) ∧
    (∃ snrDb ∈ payload.snrDb, PyFloat.le thresholds.minSnrDb snrDb = true) ∧
    (∀ minSinrDb ∈ thresholds.minSinrDb, ∃ sinrDb ∈ payload.sinrDb,
      PyFloat.le minSinrDb sinrDb = true) ∧
    ∃ capacityMbps ∈ payload.capacityMbps,
      PyFloat.le thresholds.minCapacityMbps capacityMbps = true

/-- The distance passes both distance thresholds. -/
def InRange (thresholds : GateThresholds ℝ) (distanceM : ℝ) : Prop :=
  distanceM < thresholds.hardOutageDistanceM ∧ distanceM ≤ thresholds.operationalRangeM

/-- A supplied noise floor, on a link that is in range, is tolerable exactly when the thermal noise
is. -/
def FloorAgrees [PyText ℝ] (raw : Dict String (Json ℝ)) (request : LinkRequest ℝ)
    (thresholds : GateThresholds ℝ) (signal : ReceivedSignal ℝ) (thermalDbm : ℝ) : Prop :=
  ∀ value floorDbm, raw.get? "noise_floor_dbm" = some value → value.toFloat? = some floorDbm →
    InRange thresholds signal.distanceM →
    (NoiseTolerable request thresholds signal.rxPowerDbm thermalDbm ↔
      NoiseTolerable request thresholds signal.rxPowerDbm floorDbm)

/-- The payload meets the thresholds exactly when the distance does and the reported noise is
tolerable. -/
private theorem meets_iff {payload : MetricPayload ℝ} {request : LinkRequest ℝ}
    (thresholds : GateThresholds ℝ) (rxPowerDbm noiseDbm : ℝ)
    {distanceM snrDb sinrDb capacityMbps : ℝ}
    (hdistance : payload.distanceM = some distanceM) (hsnr : payload.snrDb = some snrDb)
    (hsinr : payload.sinrDb = some sinrDb) (hcapacity : payload.capacityMbps = some capacityMbps)
    (hsnr' : snrDb = rxPowerDbm - noiseDbm)
    (hsinr' : sinrDb = snrDb - request.interferenceMarginDb)
    (hat : capacityAt request.spectralEfficiencyFactor request.bandwidthHz sinrDb =
      some capacityMbps) :
    payload.Meets thresholds ↔
      InRange thresholds distanceM ∧ NoiseTolerable request thresholds rxPowerDbm noiseDbm := by
  subst hsinr' hsnr'
  rw [← noiseTolerable_iff hat]
  simp [MetricPayload.Meets, InRange, hdistance, hsnr, hsinr, hcapacity]

/-- For a request with operational end points and a fresh metric, the service decides `FEASIBLE`
exactly when the numbers it reports meet the thresholds, if and only if a supplied noise floor
agrees with the thermal noise. -/
theorem feasible_iff_reported_iff [PyText ℝ] {propagation : Propagation ℝ}
    {freshId requestId : String} {computedAt now : ℝ} {raw : Dict String (Json ℝ)}
    {payload : MetricPayload ℝ} {decision : FeasibilityDecision ℝ}
    {thresholds : GateThresholds ℝ}
    (h : evaluateOne propagation freshId computedAt now raw =
      some (.evaluated requestId payload (some decision)))
    (hthresholds : gateThresholds raw = some thresholds)
    (hoperational : (linkEndpoints raw).Operational)
    (hfresh : max 0 (now - computedAt) ≤ thresholds.metricTtlS) :
    ∃ request signal thermalDbm,
      linkRequest freshId raw = some request ∧
        receivedSignal propagation request = some signal ∧
        thermalNoiseDbm request.bandwidthHz request.receiverNoiseFigureDb = some thermalDbm ∧
        ((decision.reason = .feasible ↔ payload.Meets thresholds) ↔
          FloorAgrees raw request thresholds signal thermalDbm) := by
  obtain ⟨request, metrics, noise, thresholds', hrequest, hmetrics, hnoise, hthresholds', hpd,
    hps, hpi, hpc, rfl⟩ := evaluateOne_evaluated h
  obtain rfl : thresholds' = thresholds :=
    Option.some.inj (hthresholds'.symm.trans hthresholds)
  obtain ⟨signal, thermalDbm, sinrDb, hsignal, hthermal, hdistance, hpower, hsnr, hsinr, hsinr',
    hcapacity, hstamp⟩ := computeAnalyticalLink_spec hmetrics
  refine ⟨request, signal, thermalDbm, hrequest, hsignal, hthermal, ?_⟩
  -- the gate decides on the link under thermal noise
  have hgate : (evaluateFeasibility (some metrics) (linkEndpoints raw) thresholds' now).reason =
      .feasible ↔ InRange thresholds' signal.distanceM ∧
        NoiseTolerable request thresholds' signal.rxPowerDbm thermalDbm := by
    have hage : PyFloat.le (metrics.ageS now) thresholds'.metricTtlS = true := by
      have hzero : (0.0 : ℝ) = 0 := by norm_num
      rw [LinkMetrics.ageS, hstamp, PyFloat.max_real, hzero, PyFloat.le_real]
      exact decide_eq_true hfresh
    rw [evaluateFeasibility_reason_iff hoperational,
      evaluateFeasibility_feasible_iff hoperational]
    subst hsinr'
    rw [hsnr] at hcapacity hsinr
    rw [← noiseTolerable_iff hcapacity]
    simp [hage, InRange, hdistance, hsnr, hsinr, and_assoc]
  rw [hgate, FloorAgrees]
  cases hfloor : raw.get? "noise_floor_dbm" with
  | none =>
      -- without a supplied floor the report is the link under thermal noise as well
      simp only [reportedNoise, hfloor, Option.some.injEq] at hnoise
      subst hnoise
      have hmeets := meets_iff thresholds' signal.rxPowerDbm thermalDbm
        (hdistance ▸ hpd) hps (hpi.trans (by rw [hsinr]; rfl)) hpc hsnr
        hsinr' hcapacity
      simp [hmeets]
  | some value =>
      obtain ⟨floorDbm, floorSinrDb, hvalue, hsnrf, hsinrf, hsinrf', hcapacityf⟩ :=
        reportedNoise_floor hrequest hfloor hnoise
      have hmeets := meets_iff thresholds' signal.rxPowerDbm floorDbm
        (hdistance ▸ hpd) hps (hpi.trans (by rw [hsinrf]; rfl)) hpc
        (hpower ▸ hsnrf) hsinrf' hcapacityf
      rw [hmeets, and_congr_right_iff]
      constructor
      · rintro hsame _ _ ⟨⟩ hfloorDbm
        obtain rfl := Option.some.inj (hvalue.symm.trans hfloorDbm)
        exact hsame
      · intro hall
        exact hall value floorDbm rfl hvalue

/-! ## A jammed receiver -/

section Jammed

attribute [local instance] PyText.exact

/-- A request for a link of ten metres whose receiver is said to hear a noise of -20 dBm. -/
noncomputable def jammedRequest : Dict String (Json ℝ) :=
  .ofList [("tx", .arr [.float 0, .float 0, .float 0]),
    ("rx", .arr [.float 10, .float 0, .float 0]), ("frequency_hz", .float 299792458),
    ("bandwidth_hz", .float 1e7), ("noise_floor_dbm", .float (-20)), ("min_snr_db", .float 3)]

/-- `jammedRequest` as it is read. -/
noncomputable def jammedLink : LinkRequest ℝ where
  frequencyHz := 299792458
  bandwidthHz := 1e7
  txPowerDbm := 23.0
  receiverNoiseFigureDb := 7.0
  txGainDbi := 0.0
  rxGainDbi := 0.0
  interferenceMarginDb := 0.0
  spectralEfficiencyFactor := 0.75
  implementationLossDb := 2.0
  txCableLossDb := 0.0
  rxCableLossDb := 0.0
  atmosphericLossDb := 0.0
  rainLossDb := 0.0
  foliageLossDb := 0.0
  clutterLossDb := 0.0
  blockageLossDb := 0.0
  polarizationLossDb := 0.0
  miscellaneousLossDb := 0.0
  src := "tx"
  dst := "rx"
  txPosition := .arr [.float 0, .float 0, .float 0]
  rxPosition := .arr [.float 10, .float 0, .float 0]
  pathLossExponent := 2.0
  referenceDistanceM := 1.0
  shadowingSigmaDb := 0.0
  seed := 0
  model := "free_space"
  requestId := "r"

private theorem linkRequest_jammed : linkRequest "r" jammedRequest = some jammedLink := by
  rfl

private theorem gateThresholds_jammed : gateThresholds jammedRequest = some {
    operationalRangeM := 90.0, hardOutageDistanceM := 220.0, minSnrDb := 3
    minCapacityMbps := 1.0, minSinrDb := some 3, metricTtlS := 2.0 } := by
  rfl

private theorem linkEndpoints_jammed : (linkEndpoints jammedRequest).Operational := by
  exact ⟨rfl, rfl, rfl, rfl⟩

/-- The free-space loss over ten metres, at a wavelength of one metre. -/
noncomputable def jammedLossDb : ℝ := 20 * Real.logb 10 (40 * Real.pi)

private theorem jammedLossDb_bounds : 40 ≤ jammedLossDb ∧ jammedLossDb ≤ 60 := by
  have hpi := Real.pi_gt_three
  have hpi' := Real.pi_lt_four
  have hlow : (2 : ℝ) ≤ Real.logb 10 (40 * Real.pi) := by
    rw [Real.le_logb_iff_rpow_le (by norm_num) (by positivity)]
    norm_num
    linarith
  have hhigh : Real.logb 10 (40 * Real.pi) ≤ 3 := by
    rw [Real.logb_le_iff_le_rpow (by norm_num) (by positivity)]
    norm_num
    linarith
  constructor <;> rw [jammedLossDb] <;> linarith

private theorem pathLoss_jammed :
    analyticalPathLoss jammedLink 10 = some (jammedLossDb, "free_space") := by
  have hmodel : analyticalPathLoss jammedLink 10 =
      (freeSpacePathLossDb 10 299792458).bind fun loss => some (loss, "free_space") := by
    rfl
  have hloss : freeSpacePathLossDb (10 : ℝ) 299792458 = some jammedLossDb := by
    have hwave : PyFloat.div (cMps : ℝ) 299792458 = some 1 := by
      rw [PyFloat.div_real (by norm_num), cMps]
      norm_num
    have hratio : PyFloat.div ((4.0 : ℝ) * PyFloat.pi * 10) 1 = some (40 * Real.pi) := by
      rw [PyFloat.div_real one_ne_zero]
      show some ((4.0 : ℝ) * Real.pi * 10 / 1) = _
      norm_num
      ring
    simp only [freeSpacePathLossDb, bind, hwave, Option.bind_some, hratio,
      PyFloat.log10_real (show (0 : ℝ) < 40 * Real.pi by positivity)]
    norm_num [jammedLossDb]
  rw [hmodel, hloss, Option.bind_some]

private theorem linkDistance_jammed : linkDistance jammedLink = some 10 := by
  have hpos : linkDistance jammedLink =
      some (PyFloat.max 1e-3 (Vec3.dist (⟨0, 0, 0⟩ : Vec3 ℝ) ⟨10, 0, 0⟩)) := by
    rfl
  have hdist : Vec3.dist (⟨0, 0, 0⟩ : Vec3 ℝ) ⟨10, 0, 0⟩ = 10 := by
    show √((0 - 10) ^ 2 + (0 - 0) ^ 2 + (0 - 0) ^ 2) = (10 : ℝ)
    rw [show ((0 : ℝ) - 10) ^ 2 + (0 - 0) ^ 2 + (0 - 0) ^ 2 = 10 ^ 2 by norm_num]
    exact Real.sqrt_sq (by norm_num)
  rw [hpos, hdist, PyFloat.max_real]
  norm_num

private theorem receivedSignal_jammed (gauss : LinkRequest ℝ → ℝ → ℝ) :
    receivedSignal (.analytical gauss) jammedLink = some {
      distanceM := 10
      componentsDb := lossComponents jammedLink jammedLossDb 0.0
      pathLossDb := jammedLossDb + 2
      rxPowerDbm := 21 - jammedLossDb
      model := "free_space" } := by
  have hshadow : shadowingDb (.analytical gauss) jammedLink 10 = 0.0 := by
    simp [shadowingDb, jammedLink]
  have hsum : PyFloat.sum ((lossComponents jammedLink jammedLossDb 0.0).map Prod.snd) =
      jammedLossDb + 2 := by
    simp [lossComponents, jammedLink]
    norm_num
  have hpower : (23.0 : ℝ) + 0.0 + 0.0 - (jammedLossDb + 2) = 21 - jammedLossDb := by
    norm_num
    ring
  simp only [receivedSignal, linkDistance_jammed, Propagation.analytical, pathLoss_jammed, bind,
    Option.bind_some, pure] at hshadow ⊢
  rw [hshadow, hsum]
  show some (ReceivedSignal.mk _ _ _ ((23.0 : ℝ) + 0.0 + 0.0 - (jammedLossDb + 2)) _) = _
  rw [hpower]

private theorem thermalNoise_jammed :
    thermalNoiseDbm jammedLink.bandwidthHz jammedLink.receiverNoiseFigureDb = some (-97) :=
  thermalNoiseDbm_wide

/-- The metrics of the link of `jammedRequest`. -/
theorem metrics_jammed (gauss : LinkRequest ℝ → ℝ → ℝ) :
    ∃ metrics, computeAnalyticalLink (.analytical gauss) "r" 0 jammedLink = some metrics ∧
      metrics.distanceM = 10 ∧ metrics.rxPowerDbm = 21 - jammedLossDb ∧
      metrics.snrDb = 118 - jammedLossDb ∧ metrics.sinrDb = some (118 - jammedLossDb) ∧
      1 ≤ metrics.capacityMbps ∧ metrics.timestampWallS = 0 := by
  obtain ⟨_, hhigh⟩ := jammedLossDb_bounds
  have hdelay : PyFloat.div (10 : ℝ) cMps = some (10 / cMps) :=
    PyFloat.div_real (by rw [cMps]; norm_num)
  have hsnr : 21 - jammedLossDb - -97 = 118 - jammedLossDb := by ring
  have hsinr : 118 - jammedLossDb - 0.0 = 118 - jammedLossDb := by norm_num
  -- an SNR above 0 dB carries at least one bit per symbol
  have hbits : (1 : ℝ) ≤ Real.logb 2 (1 + 10 ^ ((118 - jammedLossDb) / 10)) := by
    have hone : (1 : ℝ) ≤ 10 ^ ((118 - jammedLossDb) / 10) :=
      Real.one_le_rpow (by norm_num) (by linarith)
    rw [Real.le_logb_iff_rpow_le one_lt_two (by linarith), Real.rpow_one]
    linarith
  have hcapacity : (1 : ℝ) ≤
      0.75 * 1e7 * Real.logb 2 (1 + 10 ^ ((118 - jammedLossDb) / 10)) / 1e6 := by
    norm_num
    linarith
  simp only [computeAnalyticalLink, receivedSignal_jammed, thermalNoise_jammed, capacityAt_real,
    hdelay, bind, Option.bind_some, pure, hsnr]
  refine ⟨_, rfl, rfl, rfl, rfl, congrArg some hsinr, ?_, rfl⟩
  show (1 : ℝ) ≤ 0.75 * 1e7 * Real.logb 2 (1 + 10 ^ ((118 - jammedLossDb - 0.0) / 10)) / 1e6
  rw [hsinr]
  exact hcapacity

private theorem reportedNoise_jammed (metrics : LinkMetrics ℝ) :
    ∃ noise, reportedNoise metrics jammedRequest = some noise ∧
      noise.snrDb = metrics.rxPowerDbm - -20 := by
  have hnoise : reportedNoise metrics jammedRequest =
      (capacityAt (0.75 : ℝ) 1e7 (metrics.rxPowerDbm - -20 - 0.0)).bind fun capacityMbps =>
        some {
          noiseDbm := some (-20), snrDb := metrics.rxPowerDbm - -20
          sinrDb := some (metrics.rxPowerDbm - -20 - 0.0), capacityMbps
          noiseModel := "explicit_legacy_noise_floor" } := by
    rfl
  rw [hnoise, capacityAt_real, Option.bind_some]
  exact ⟨_, rfl, rfl⟩

private theorem metricPayload_jammed (metrics : LinkMetrics ℝ) :
    ∃ payload, metricPayload metrics jammedRequest = some payload ∧
      payload.snrDb = some (metrics.rxPowerDbm - -20) := by
  obtain ⟨noise, hnoise, hsnr⟩ := reportedNoise_jammed metrics
  have hgain : jammedRequest.getFloatOr "tx_antenna_gain_dbi" "tx_gain_dbi" 0.0 = some 0.0 := by
    rfl
  have hgain' : jammedRequest.getFloatOr "rx_antenna_gain_dbi" "rx_gain_dbi" 0.0 = some 0.0 := by
    rfl
  have hsigma : jammedRequest.getFloat "shadowing_sigma_db" 0.0 = some 0.0 := by
    rfl
  simp only [metricPayload, hgain, hgain', hsigma, hnoise, bind, Option.bind_some, pure]
  refine ⟨_, rfl, ?_⟩
  show jsonSafe noise.snrDb = some (metrics.rxPowerDbm - -20)
  rw [hsnr]
  rfl

private theorem evaluateOne_jammed : ∃ metrics payload thresholds,
    evaluateOne (.analytical fun _ _ => 0) "r" 0 0 jammedRequest = some (.evaluated "r" payload
        (some (evaluateFeasibility (some metrics) (linkEndpoints jammedRequest) thresholds 0))) ∧
      gateThresholds jammedRequest = some thresholds ∧ max 0 ((0 : ℝ) - 0) ≤ thresholds.metricTtlS ∧
      (evaluateFeasibility (some metrics) (linkEndpoints jammedRequest) thresholds 0).feasible ∧
      payload.snrDb = some (41 - jammedLossDb) ∧ thresholds.minSnrDb = 3 := by
  obtain ⟨_, hhigh⟩ := jammedLossDb_bounds
  obtain ⟨metrics, hmetrics, hdistance, hpower, hsnr, hsinr, hcapacity, hstamp⟩ :=
    metrics_jammed fun _ _ => 0
  obtain ⟨payload, hpayload, hreported⟩ := metricPayload_jammed metrics
  refine ⟨metrics, _, _, evaluateOne_eq (by decide) linkRequest_jammed hmetrics hpayload
    (gateDecision_eq rfl gateThresholds_jammed), gateThresholds_jammed, by norm_num, ?_, ?_, rfl⟩
  · -- the gate goes by the thermal noise
    rw [evaluateFeasibility_feasible_iff linkEndpoints_jammed]
    have hage : metrics.ageS 0 = 0 := by
      rw [LinkMetrics.ageS, hstamp, PyFloat.max_real]
      norm_num
    simp only [hage, hdistance, hsnr, hsinr, PyFloat.le_real, PyFloat.lt_real, decide_eq_true_eq,
      Option.mem_def, Option.some.injEq, forall_eq']
    refine ⟨by norm_num, by norm_num, by norm_num, by linarith, by linarith, ?_⟩
    norm_num
    exact hcapacity
  · show payload.snrDb = some (41 - jammedLossDb)
    rw [hreported, hpower]
    congr 1
    ring

/-- `feasible_iff_reported_iff` for the request of the jammed receiver. -/
theorem feasible_iff_reported_jammed :
    ∃ payload decision thresholds request signal thermalDbm,
      evaluateOne (.analytical fun _ _ => 0) "r" 0 0 jammedRequest =
          some (.evaluated "r" payload (some decision)) ∧
        linkRequest "r" jammedRequest = some request ∧
        receivedSignal (.analytical fun _ _ => 0) request = some signal ∧
        thermalNoiseDbm request.bandwidthHz request.receiverNoiseFigureDb = some thermalDbm ∧
        ((decision.reason = .feasible ↔ payload.Meets thresholds) ↔
          FloorAgrees jammedRequest request thresholds signal thermalDbm) := by
  obtain ⟨_, _, _, hevaluated, hthresholds, hfresh, _⟩ := evaluateOne_jammed
  obtain ⟨request, signal, thermalDbm, hiff⟩ :=
    feasible_iff_reported_iff hevaluated hthresholds linkEndpoints_jammed hfresh
  exact ⟨_, _, _, request, signal, thermalDbm, hevaluated, hiff⟩

/-- The receiver of `jammedRequest` reports an SNR below the threshold, and the decision is
`FEASIBLE`: the gate saw thermal noise only. -/
theorem feasible_above_noise_floor :
    ∃ payload decision thresholds,
      evaluateOne (.analytical fun _ _ => 0) "r" 0 0 jammedRequest =
          some (.evaluated "r" payload (some decision)) ∧
        gateThresholds jammedRequest = some thresholds ∧
        (linkEndpoints jammedRequest).Operational ∧
        max 0 ((0 : ℝ) - 0) ≤ thresholds.metricTtlS ∧
        decision.reason = .feasible ∧ ¬payload.Meets thresholds := by
  obtain ⟨hlow, _⟩ := jammedLossDb_bounds
  obtain ⟨metrics, payload, thresholds, hevaluated, hthresholds, hfresh, hfeasible, hreported,
    hmin⟩ := evaluateOne_jammed
  refine ⟨payload, _, thresholds, hevaluated, hthresholds, linkEndpoints_jammed, hfresh,
    (evaluateFeasibility_reason_iff linkEndpoints_jammed _ _ _).mpr hfeasible, ?_⟩
  rintro ⟨_, ⟨snrDb, hmem, hle⟩, _⟩
  obtain rfl : 41 - jammedLossDb = snrDb :=
    Option.some.inj (hreported.symm.trans (Option.mem_def.mp hmem))
  rw [PyFloat.le_real, decide_eq_true_eq, hmin] at hle
  -- forty decibels of path loss leave an SNR of at most one
  linarith

end Jammed

end Netlab
