import Netlab.Link.GateSpec
import Netlab.Link.NoiseFloor

/-!
# Closer end points

In exact arithmetic a link does not get worse when its end points come closer: the path loss of both
families grows with the distance (`analyticalPathLoss_mono`), the rest of the budget is the same,
and the gate asks for no more (`computeAnalyticalLink_closer`). A request with shadowing is left
out, because its draw is seeded with the distance, and one with a negative spectral efficiency loses
capacity when the signal gets better.
-/

namespace Netlab

/-! ## Path loss over the distance -/

/-- The free-space loss, where it is defined. -/
theorem freeSpacePathLossDb_eq_some_iff {distanceM frequencyHz lossDb : ℝ} :
    freeSpacePathLossDb distanceM frequencyHz = some lossDb ↔
      0 < distanceM ∧ 0 < frequencyHz ∧
        lossDb = 20 * Real.logb 10 (4 * Real.pi * distanceM / (cMps / frequencyHz)) := by
  have hc : (0 : ℝ) < cMps := by
    rw [cMps]
    norm_num
  by_cases hpos : 0 < distanceM ∧ 0 < frequencyHz
  · obtain ⟨hd, hf⟩ := hpos
    have hguard : (PyFloat.le distanceM 0.0 || PyFloat.le frequencyHz 0.0) = false := by
      have hzero : (0.0 : ℝ) = 0 := by norm_num
      rw [PyFloat.le_real, PyFloat.le_real, hzero, decide_eq_false hd.not_ge,
        decide_eq_false hf.not_ge, Bool.or_false]
    have hratio : (0 : ℝ) < 4 * Real.pi * distanceM / (cMps / frequencyHz) := by positivity
    have hfour : (4.0 : ℝ) * PyFloat.pi * distanceM = 4 * Real.pi * distanceM := by
      show (4.0 : ℝ) * Real.pi * distanceM = _
      norm_num
    have htwenty : (20.0 : ℝ) = 20 := by norm_num
    simp only [freeSpacePathLossDb, hguard, Bool.false_eq_true, if_false, bind, pure,
      PyFloat.div_real hf.ne', Option.bind_some, hfour, PyFloat.div_real (div_pos hc hf).ne',
      PyFloat.log10_real hratio, htwenty, Option.some.injEq]
    exact ⟨fun h => ⟨hd, hf, h.symm⟩, fun h => h.2.2.symm⟩
  · -- a distance or a frequency that is not positive raises
    have hguard : (PyFloat.le distanceM 0.0 || PyFloat.le frequencyHz 0.0) = true := by
      have hzero : (0.0 : ℝ) = 0 := by norm_num
      rw [PyFloat.le_real, PyFloat.le_real, hzero, Bool.or_eq_true, decide_eq_true_eq,
        decide_eq_true_eq]
      by_contra hnot
      exact hpos (by simpa [not_or] using hnot)
    rw [freeSpacePathLossDb, hguard, if_pos rfl]
    exact ⟨fun h => by simp at h, fun h => absurd ⟨h.1, h.2.1⟩ hpos⟩

/-- The free-space loss is at most as large over a smaller distance. -/
theorem freeSpacePathLossDb_mono {distanceM closerM frequencyHz lossDb : ℝ} (hpos : 0 < closerM)
    (hle : closerM ≤ distanceM) (h : freeSpacePathLossDb distanceM frequencyHz = some lossDb) :
    ∃ closerDb, freeSpacePathLossDb closerM frequencyHz = some closerDb ∧ closerDb ≤ lossDb := by
  obtain ⟨-, hf, rfl⟩ := freeSpacePathLossDb_eq_some_iff.mp h
  refine ⟨_, freeSpacePathLossDb_eq_some_iff.mpr ⟨hpos, hf, rfl⟩, ?_⟩
  have hc : (0 : ℝ) < cMps / frequencyHz := by
    refine div_pos ?_ hf
    rw [cMps]
    norm_num
  have hlog : Real.logb 10 (4 * Real.pi * closerM / (cMps / frequencyHz)) ≤
      Real.logb 10 (4 * Real.pi * distanceM / (cMps / frequencyHz)) := by
    apply Real.logb_le_logb_of_le (by norm_num) (by positivity)
    gcongr
  linarith

/-- The log-distance loss, where it is defined: the distance counts from the reference on. -/
theorem logDistancePathLossDb_eq_some_iff {distanceM frequencyHz exponent referenceM lossDb : ℝ} :
    logDistancePathLossDb distanceM frequencyHz exponent referenceM = some lossDb ↔
      (1 ≤ exponent ∧ exponent ≤ 8) ∧ ∃ baseDb,
        freeSpacePathLossDb (max 1e-3 referenceM) frequencyHz = some baseDb ∧
          lossDb = baseDb + 10 * exponent *
            Real.logb 10 (max distanceM (max 1e-3 referenceM) / max 1e-3 referenceM) := by
  have hd0 : (0 : ℝ) < max 1e-3 referenceM := lt_max_of_lt_left (by norm_num)
  by_cases hexp : 1 ≤ exponent ∧ exponent ≤ 8
  · have hguard : (PyFloat.lt exponent 1.0 || PyFloat.lt 8.0 exponent) = false := by
      have hone : (1.0 : ℝ) = 1 := by norm_num
      have height : (8.0 : ℝ) = 8 := by norm_num
      rw [PyFloat.lt_real, PyFloat.lt_real, hone, height, decide_eq_false hexp.1.not_gt,
        decide_eq_false hexp.2.not_gt, Bool.or_false]
    have hratio : 0 < max distanceM (max 1e-3 referenceM) / max 1e-3 referenceM :=
      div_pos (lt_max_of_lt_right hd0) hd0
    have hten : (10.0 : ℝ) = 10 := by norm_num
    simp only [logDistancePathLossDb, hguard, Bool.false_eq_true, if_false, bind, pure,
      PyFloat.max_real, PyFloat.div_real hd0.ne', Option.bind_some, PyFloat.log10_real hratio,
      Option.bind_eq_some_iff, Option.some.injEq, hten]
    exact ⟨fun ⟨base, hbase, h⟩ => ⟨hexp, base, hbase, h.symm⟩,
      fun ⟨_, base, hbase, h⟩ => ⟨base, hbase, h.symm⟩⟩
  · -- an exponent out of range raises
    have hguard : (PyFloat.lt exponent 1.0 || PyFloat.lt 8.0 exponent) = true := by
      have hone : (1.0 : ℝ) = 1 := by norm_num
      have height : (8.0 : ℝ) = 8 := by norm_num
      rw [PyFloat.lt_real, PyFloat.lt_real, hone, height, Bool.or_eq_true, decide_eq_true_eq,
        decide_eq_true_eq]
      by_contra hnot
      exact hexp (by simpa [not_or] using hnot)
    rw [logDistancePathLossDb, hguard, if_pos rfl]
    exact ⟨fun h => by simp at h, fun h => absurd h.1 hexp⟩

/-- The log-distance loss is at most as large over a smaller distance. -/
theorem logDistancePathLossDb_mono {distanceM closerM frequencyHz exponent referenceM lossDb : ℝ}
    (hle : closerM ≤ distanceM)
    (h : logDistancePathLossDb distanceM frequencyHz exponent referenceM = some lossDb) :
    ∃ closerDb, logDistancePathLossDb closerM frequencyHz exponent referenceM = some closerDb ∧
      closerDb ≤ lossDb := by
  obtain ⟨hexp, baseDb, hbase, rfl⟩ := logDistancePathLossDb_eq_some_iff.mp h
  refine ⟨_, logDistancePathLossDb_eq_some_iff.mpr ⟨hexp, baseDb, hbase, rfl⟩, ?_⟩
  have hd0 : (0 : ℝ) < max 1e-3 referenceM := lt_max_of_lt_left (by norm_num)
  -- below the reference distance both sides are the base loss
  have hlog : Real.logb 10 (max closerM (max 1e-3 referenceM) / max 1e-3 referenceM) ≤
      Real.logb 10 (max distanceM (max 1e-3 referenceM) / max 1e-3 referenceM) := by
    apply Real.logb_le_logb_of_le (by norm_num)
      (div_pos (lt_max_of_lt_right hd0) hd0)
    gcongr
  have hslope : 0 ≤ 10 * exponent := by linarith [hexp.1]
  linarith [mul_le_mul_of_nonneg_left hlog hslope]

/-- In both families the path loss is at most as large over a smaller distance. -/
theorem analyticalPathLoss_mono [PyText ℝ] {request : LinkRequest ℝ} {distanceM closerM : ℝ}
    {base : ℝ × String} (hpos : 0 < closerM) (hle : closerM ≤ distanceM)
    (h : analyticalPathLoss request distanceM = some base) :
    ∃ closer, analyticalPathLoss request closerM = some closer ∧ closer.1 ≤ base.1 := by
  unfold analyticalPathLoss at h ⊢
  dsimp only at h ⊢
  -- one family after the other, each of which loses less over less distance
  split
  · rename_i hfree
    rw [if_pos hfree] at h
    obtain ⟨loss, hloss, h⟩ := Option.bind_eq_some_iff.mp h
    obtain rfl := Option.some.inj h
    obtain ⟨closer, hcloser, hmono⟩ := freeSpacePathLossDb_mono hpos hle hloss
    exact ⟨_, Option.bind_eq_some_iff.mpr ⟨closer, hcloser, rfl⟩, hmono⟩
  · rename_i hfree
    rw [if_neg hfree] at h
    split
    · rename_i hlog
      rw [if_pos hlog] at h
      obtain ⟨loss, hloss, h⟩ := Option.bind_eq_some_iff.mp h
      obtain rfl := Option.some.inj h
      obtain ⟨closer, hcloser, hmono⟩ := logDistancePathLossDb_mono hle hloss
      exact ⟨_, Option.bind_eq_some_iff.mpr ⟨closer, hcloser, rfl⟩, hmono⟩
    · rename_i hlog
      rw [if_neg hlog] at h
      simp at h

/-! ## The budget over the distance -/

/-- A request between other places. -/
def LinkRequest.between (request : LinkRequest ℝ) (txPosition rxPosition : Json ℝ) :
    LinkRequest ℝ :=
  { request with txPosition, rxPosition }

/-- Places that can be read, no further apart than those of the request. -/
structure LinkRequest.Closer [PyText ℝ] (request : LinkRequest ℝ) (txPosition rxPosition : Json ℝ) :
    Prop where
  readable : ∃ tx rx, normalizeVec3 txPosition = some tx ∧ normalizeVec3 rxPosition = some rx ∧
    ∀ tx' rx', normalizeVec3 request.txPosition = some tx' →
      normalizeVec3 request.rxPosition = some rx' → tx.dist rx ≤ tx'.dist rx'

/-- The clamped distance is positive, and at most as large between closer places. -/
theorem linkDistance_closer [PyText ℝ] {request : LinkRequest ℝ} {txPosition rxPosition : Json ℝ}
    {distanceM : ℝ} (hcloser : request.Closer txPosition rxPosition)
    (h : linkDistance request = some distanceM) :
    ∃ closerM, linkDistance (request.between txPosition rxPosition) = some closerM ∧
      0 < closerM ∧ closerM ≤ distanceM := by
  obtain ⟨tx', htx', h⟩ := Option.bind_eq_some_iff.mp h
  obtain ⟨rx', hrx', h⟩ := Option.bind_eq_some_iff.mp h
  obtain rfl := Option.some.inj h
  obtain ⟨tx, rx, htx, hrx, hle⟩ := hcloser.readable
  refine ⟨PyFloat.max 1e-3 (tx.dist rx), ?_, ?_, ?_⟩
  · rw [linkDistance, LinkRequest.between, htx, hrx]
    rfl
  · rw [PyFloat.max_real]
    exact lt_max_of_lt_left (by norm_num)
  · rw [PyFloat.max_real, PyFloat.max_real]
    exact max_le_max_left _ (hle tx' rx' htx' hrx')

/-- Without shadowing the received power is the transmit power and the gains, less the path loss
and the fixed losses. -/
theorem receivedSignal_eq_some_iff [PyText ℝ] {gauss : LinkRequest ℝ → ℝ → ℝ}
    {request : LinkRequest ℝ} {signal : ReceivedSignal ℝ} (hsigma : request.shadowingSigmaDb = 0) :
    receivedSignal (.analytical gauss) request = some signal ↔
      ∃ distanceM base, linkDistance request = some distanceM ∧
        analyticalPathLoss request distanceM = some base ∧
        signal = {
          distanceM, componentsDb := lossComponents request base.1 0.0
          pathLossDb := PyFloat.sum ((lossComponents request base.1 0.0).map Prod.snd)
          rxPowerDbm := request.txPowerDbm + request.txGainDbi + request.rxGainDbi -
            PyFloat.sum ((lossComponents request base.1 0.0).map Prod.snd)
          model := base.2 } := by
  have hshadow : ∀ distanceM, shadowingDb (.analytical gauss) request distanceM = 0.0 := by
    intro distanceM
    have hnot : ¬(0.0 : ℝ) < 0 := by norm_num
    rw [shadowingDb, hsigma, PyFloat.lt_real, decide_eq_false hnot]
    rfl
  simp only [receivedSignal, bind, pure, Option.bind_eq_some_iff, Option.some.injEq, hshadow]
  constructor
  · rintro ⟨distanceM, hdistance, base, hbase, rfl⟩
    exact ⟨distanceM, base, hdistance, hbase, rfl⟩
  · rintro ⟨distanceM, base, hdistance, hbase, rfl⟩
    exact ⟨distanceM, hdistance, base, hbase, rfl⟩

/-- A link between closer places receives at least as much power. -/
theorem receivedSignal_closer [PyText ℝ] {gauss : LinkRequest ℝ → ℝ → ℝ} {request : LinkRequest ℝ}
    {txPosition rxPosition : Json ℝ} {signal : ReceivedSignal ℝ}
    (hcloser : request.Closer txPosition rxPosition) (hsigma : request.shadowingSigmaDb = 0)
    (h : receivedSignal (.analytical gauss) request = some signal) :
    ∃ closer, receivedSignal (.analytical gauss) (request.between txPosition rxPosition) =
      some closer ∧ closer.distanceM ≤ signal.distanceM ∧
        signal.rxPowerDbm ≤ closer.rxPowerDbm := by
  obtain ⟨distanceM, base, hdistance, hbase, rfl⟩ := (receivedSignal_eq_some_iff hsigma).mp h
  obtain ⟨closerM, hcloserM, hpos, hle⟩ := linkDistance_closer hcloser hdistance
  obtain ⟨closerBase, hcloserBase, hmono⟩ := analyticalPathLoss_mono hpos hle hbase
  have hsigma' : (request.between txPosition rxPosition).shadowingSigmaDb = 0 := hsigma
  refine ⟨_, (receivedSignal_eq_some_iff hsigma').mpr ⟨closerM, closerBase, hcloserM, ?_, rfl⟩,
    hle, ?_⟩
  · exact hcloserBase
  · -- only the first of the components differs
    simp only [lossComponents, LinkRequest.between, List.map_cons, List.map_nil, PyFloat.sum_real,
      List.sum_cons, List.sum_nil]
    linarith

/-- The capacity is at least as large at a better SINR. -/
theorem capacityAt_mono {factor bandwidthHz sinrDb betterDb capacityMbps : ℝ}
    (hrate : 0 ≤ factor * bandwidthHz) (hle : sinrDb ≤ betterDb)
    (h : capacityAt factor bandwidthHz sinrDb = some capacityMbps) :
    ∃ betterMbps, capacityAt factor bandwidthHz betterDb = some betterMbps ∧
      capacityMbps ≤ betterMbps := by
  rw [capacityAt_real, Option.some.injEq] at h
  refine ⟨_, capacityAt_real _ _ _, ?_⟩
  have hpow : (10 : ℝ) ^ (sinrDb / 10) ≤ 10 ^ (betterDb / 10) :=
    Real.rpow_le_rpow_of_exponent_le (by norm_num) (by linarith)
  have hlog : Real.logb 2 (1 + 10 ^ (sinrDb / 10)) ≤ Real.logb 2 (1 + 10 ^ (betterDb / 10)) := by
    apply Real.logb_le_logb_of_le (by norm_num) (by positivity)
    linarith
  rw [← h]
  gcongr

/-- What a link between closer places has over the link of the request. -/
structure LinkMetrics.NoWorse (closer metrics : LinkMetrics ℝ) : Prop where
  distance : closer.distanceM ≤ metrics.distanceM
  snr : metrics.snrDb ≤ closer.snrDb
  sinr : ∃ sinrDb closerDb, metrics.sinrDb = some sinrDb ∧ closer.sinrDb = some closerDb ∧
    sinrDb ≤ closerDb
  capacity : metrics.capacityMbps ≤ closer.capacityMbps
  computedAt : closer.timestampWallS = metrics.timestampWallS

/-- A link that is no worse passes the gate as well. -/
theorem LinkFeasible.of_noWorse {closer metrics : LinkMetrics ℝ} {endpoints : LinkEndpoints}
    {thresholds : GateThresholds ℝ} {now : ℝ} (hbetter : closer.NoWorse metrics)
    (h : LinkFeasible metrics endpoints thresholds now) :
    LinkFeasible closer endpoints thresholds now := by
  obtain ⟨sinrDb, closerDb, hsinr, hcloser, hle⟩ := hbetter.sinr
  -- the thresholds on the signal are lower bounds
  have hmono : ∀ {x y z : ℝ}, PyFloat.le x y = true → y ≤ z → PyFloat.le x z = true := by
    intro x y z hxy hyz
    rw [PyFloat.le_real, decide_eq_true_eq] at *
    exact hxy.trans hyz
  constructor
  · exact h.operational
  · rw [LinkMetrics.ageS, hbetter.computedAt]
    exact h.fresh
  · have hlt := h.inHardOutage
    rw [PyFloat.lt_real, decide_eq_true_eq] at *
    exact hbetter.distance.trans_lt hlt
  · have hrange := h.inRange
    rw [PyFloat.le_real, decide_eq_true_eq] at *
    exact hbetter.distance.trans hrange
  · exact hmono h.snr hbetter.snr
  · intro minSinrDb hmin value hvalue
    obtain rfl : closerDb = value := Option.some.inj (hcloser.symm.trans hvalue)
    exact hmono (h.sinr minSinrDb hmin sinrDb hsinr) hle
  · exact hmono h.capacity hbetter.capacity

/-- What a computed link consists of is enough for the computation to succeed. -/
theorem exists_computeAnalyticalLink [PyText ℝ] {propagation : Propagation ℝ} (freshId : String)
    (computedAt : ℝ) {request : LinkRequest ℝ} {signal : ReceivedSignal ℝ}
    {noiseDbm capacityMbps : ℝ} (hsignal : receivedSignal propagation request = some signal)
    (hnoise : thermalNoiseDbm request.bandwidthHz request.receiverNoiseFigureDb = some noiseDbm)
    (hcapacity : capacityAt request.spectralEfficiencyFactor request.bandwidthHz
      (signal.rxPowerDbm - noiseDbm - request.interferenceMarginDb) = some capacityMbps) :
    ∃ metrics, computeAnalyticalLink propagation freshId computedAt request = some metrics := by
  have hc : (cMps : ℝ) ≠ 0 := by
    rw [cMps]
    norm_num
  simp only [computeAnalyticalLink, bind, pure, hsignal, hnoise, hcapacity, Option.bind_some,
    PyFloat.div_real hc]
  exact ⟨_, rfl⟩

/-- Without shadowing and with a spectral efficiency that is not negative, a link between places
that are no further apart has at least the SNR, the SINR and the capacity, and it is feasible for
all thresholds for which the first link is. -/
theorem computeAnalyticalLink_closer [PyText ℝ] {gauss : LinkRequest ℝ → ℝ → ℝ}
    {freshId closerId : String} {computedAt : ℝ} {request : LinkRequest ℝ}
    {txPosition rxPosition : Json ℝ} {metrics : LinkMetrics ℝ}
    (hcloser : request.Closer txPosition rxPosition) (hsigma : request.shadowingSigmaDb = 0)
    (hfactor : 0 ≤ request.spectralEfficiencyFactor) (hbandwidth : 0 < request.bandwidthHz)
    (h : computeAnalyticalLink (.analytical gauss) freshId computedAt request = some metrics) :
    ∃ closer, computeAnalyticalLink (.analytical gauss) closerId computedAt
        (request.between txPosition rxPosition) = some closer ∧
      closer.NoWorse metrics ∧
      ∀ endpoints thresholds now,
        (evaluateFeasibility (some metrics) endpoints thresholds now).feasible = true →
          (evaluateFeasibility (some closer) endpoints thresholds now).feasible = true := by
  obtain ⟨signal, noiseDbm, sinrDb, hsignal, hnoise, hdistance, -, hsnr, hsinr, hsinrDb, hcapacity,
    hat⟩ := computeAnalyticalLink_spec h
  obtain ⟨nearer, hnearer, hnearerM, hpower⟩ := receivedSignal_closer hcloser hsigma hsignal
  -- the noise and the interference are the same, so the power decides
  have hbetter : sinrDb ≤ nearer.rxPowerDbm - noiseDbm - request.interferenceMarginDb := by linarith
  obtain ⟨betterMbps, hbetterMbps, hmbps⟩ := capacityAt_mono
    (mul_nonneg hfactor hbandwidth.le) hbetter hcapacity
  obtain ⟨closer, hcomputed⟩ := exists_computeAnalyticalLink closerId computedAt hnearer
    hnoise hbetterMbps
  obtain ⟨signal', noise', sinr', hsignal', hnoise', hdistance', -, hsnr', hsinr', hsinrDb',
    hcapacity', hat'⟩ := computeAnalyticalLink_spec hcomputed
  obtain rfl : signal' = nearer := Option.some.inj (hsignal'.symm.trans hnearer)
  obtain rfl : noise' = noiseDbm := Option.some.inj (hnoise'.symm.trans hnoise)
  have hmargin : (request.between txPosition rxPosition).interferenceMarginDb =
      request.interferenceMarginDb := rfl
  have hsnrLe : metrics.snrDb ≤ closer.snrDb := by linarith
  have hnoWorse : closer.NoWorse metrics := by
    refine ⟨?_, hsnrLe, ⟨sinrDb, sinr', hsinr, hsinr', by linarith⟩, ?_, hat'.trans hat.symm⟩
    · rw [hdistance, hdistance']
      exact hnearerM
    · rw [hsinrDb', hsnr'] at hcapacity'
      rw [Option.some.inj (hcapacity'.symm.trans hbetterMbps)]
      exact hmbps
  refine ⟨closer, hcomputed, hnoWorse, fun endpoints thresholds now hfeasible => ?_⟩
  obtain ⟨m, hm, hmeets⟩ := (gateVerdict (some metrics) endpoints thresholds now).feasible_iff.mp
    hfeasible
  obtain rfl := Option.some.inj hm
  exact (gateVerdict (some closer) endpoints thresholds now).feasible_iff.mpr
    ⟨closer, rfl, hmeets.of_noWorse hnoWorse⟩

section

attribute [local instance] PyText.exact

/-- A receiver that comes from ten metres to one metre. -/
theorem computeAnalyticalLink_closer_metre :
    ∃ metrics closer,
      computeAnalyticalLink (.analytical fun _ _ => 0) "r" 0 jammedLink = some metrics ∧
        computeAnalyticalLink (.analytical fun _ _ => 0) "s" 0 (jammedLink.between
          (.arr [.float 0, .float 0, .float 0]) (.arr [.float 1, .float 0, .float 0])) =
          some closer ∧ closer.NoWorse metrics := by
  obtain ⟨metrics, hmetrics, -⟩ := metrics_jammed fun _ _ => 0
  have hcloser : jammedLink.Closer (.arr [.float 0, .float 0, .float 0])
      (.arr [.float 1, .float 0, .float 0]) := by
    refine ⟨⟨0, 0, 0⟩, ⟨1, 0, 0⟩, rfl, rfl, fun tx rx htx hrx => ?_⟩
    obtain rfl : ⟨0, 0, 0⟩ = tx := Option.some.inj htx
    obtain rfl : ⟨10, 0, 0⟩ = rx := Option.some.inj hrx
    apply Real.sqrt_le_sqrt
    norm_num
  have hsigma : jammedLink.shadowingSigmaDb = 0 := by
    show (0.0 : ℝ) = 0
    norm_num
  have hfactor : 0 ≤ jammedLink.spectralEfficiencyFactor := by
    show (0 : ℝ) ≤ 0.75
    norm_num
  have hbandwidth : 0 < jammedLink.bandwidthHz := by
    show (0 : ℝ) < 1e7
    norm_num
  obtain ⟨closer, hcomputed, hnoWorse, -⟩ := @computeAnalyticalLink_closer _ (fun _ _ => 0) "r" "s" 0
    jammedLink _ _ metrics hcloser hsigma hfactor hbandwidth hmetrics
  exact ⟨metrics, closer, hmetrics, hcomputed, hnoWorse⟩

end

end Netlab
