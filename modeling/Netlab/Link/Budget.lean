import Netlab.Prelude.Float
import Netlab.Models

/-!
# Link budgets

The analytical communication model of `netlab/link.py`: a link request read from a mapping, the two
families of path loss, and the budget that turns a path loss into received power, SNR, SINR and
capacity. The path loss and the seeded shadowing draw enter `computeAnalyticalLink` as a
`Propagation`, so that what follows from the budget alone is stated for every propagation model;
`Propagation.analytical` is the one of the source.
-/

namespace Netlab

variable {F : Type}

/-- How a link metric was obtained (`FidelityProfile`). -/
inductive FidelityProfile
  | preview
  | analytical
  | stochastic
  | geometryAware
  | protocolAware
  | autopilot
  | hardwareAssisted
  deriving DecidableEq, Repr

/-- The wire text of a fidelity profile. -/
def FidelityProfile.value : FidelityProfile → String
  | preview => "F0_PREVIEW"
  | analytical => "F1_ANALYTICAL"
  | stochastic => "F2_STOCHASTIC"
  | geometryAware => "F3_GEOMETRY_AWARE"
  | protocolAware => "F4_PROTOCOL_AWARE"
  | autopilot => "F5_AUTOPILOT"
  | hardwareAssisted => "F6_HARDWARE_ASSISTED"

/-- The radio parameters of a link request. -/
structure LinkRadio (F : Type) where
  frequencyHz : F
  bandwidthHz : F
  txPowerDbm : F
  receiverNoiseFigureDb : F
  txGainDbi : F
  rxGainDbi : F
  interferenceMarginDb : F
  spectralEfficiencyFactor : F

/-- The losses of a link request that do not depend on the distance. -/
structure LinkLosses (F : Type) where
  implementationLossDb : F
  txCableLossDb : F
  rxCableLossDb : F
  atmosphericLossDb : F
  rainLossDb : F
  foliageLossDb : F
  clutterLossDb : F
  blockageLossDb : F
  polarizationLossDb : F
  miscellaneousLossDb : F

/-- What a link evaluation is asked for. The two positions are kept as they came: they are checked
when the budget is computed. -/
structure LinkRequest (F : Type) extends LinkRadio F, LinkLosses F where
  src : String
  dst : String
  txPosition : Json F
  rxPosition : Json F
  pathLossExponent : F
  referenceDistanceM : F
  shadowingSigmaDb : F
  seed : ℤ
  model : String
  requestId : String

/-- The metrics of one link (`LinkMetrics`). -/
structure LinkMetrics (F : Type) where
  linkId : String
  src : String
  dst : String
  distanceM : F
  pathLossDb : F
  rxPowerDbm : F
  snrDb : F
  sinrDb : Option F
  capacityMbps : F
  propagationDelayMs : F
  totalDelayMs : F
  losState : String
  model : String
  modelVersion : String
  fidelity : FidelityProfile
  /-- When the metric was computed. -/
  timestampWallS : F
  /-- The contributions to the path loss, by name. -/
  componentsDb : List (String × F)
  requestId : String

/-- A propagation model: the path loss over a distance with the name under which it is reported,
and the shadowing draw of a request. -/
structure Propagation (F : Type) where
  basePathLoss : LinkRequest F → F → Option (F × String)
  shadowing : LinkRequest F → F → F

variable [PyText F] [PyFloat F]

/-- The three coordinates of a value that lists exactly three finite numbers. -/
def normalizeVec3 (value : Json F) : Option (Vec3 F) := do
  match ← (← value.elements?).mapM Json.toFloat? with
  | [x, y, z] =>
      if [x, y, z].all PyFloat.isFinite then some ⟨x, y, z⟩ else none
  | _ => none

/-- Read the radio parameters. Some fields have an older name. -/
def LinkRadio.fromMapping (value : Dict String (Json F)) : Option (LinkRadio F) := do
  return {
    frequencyHz := ← value.getFloat "frequency_hz" 3.5e9
    bandwidthHz := ← value.getFloat "bandwidth_hz" 20e6
    txPowerDbm := ← value.getFloat "tx_power_dbm" 23.0
    receiverNoiseFigureDb := ← value.getFloatOr "receiver_noise_figure_db" "noise_figure_db" 7.0
    txGainDbi := ← value.getFloatOr "tx_gain_dbi" "tx_antenna_gain_dbi" 0.0
    rxGainDbi := ← value.getFloatOr "rx_gain_dbi" "rx_antenna_gain_dbi" 0.0
    interferenceMarginDb := ← value.getFloat "interference_margin_db" 0.0
    spectralEfficiencyFactor := ← value.getFloat "spectral_efficiency_factor" 0.75 }

/-- Read the losses. -/
def LinkLosses.fromMapping (value : Dict String (Json F)) : Option (LinkLosses F) := do
  return {
    implementationLossDb := ← value.getFloat "implementation_loss_db" 2.0
    txCableLossDb := ← value.getFloat "tx_cable_loss_db" 0.0
    rxCableLossDb := ← value.getFloat "rx_cable_loss_db" 0.0
    atmosphericLossDb := ← value.getFloat "atmospheric_loss_db" 0.0
    rainLossDb := ← value.getFloat "rain_loss_db" 0.0
    foliageLossDb := ← value.getFloat "foliage_loss_db" 0.0
    clutterLossDb := ← value.getFloat "clutter_loss_db" 0.0
    blockageLossDb := ← value.getFloat "blockage_loss_db" 0.0
    polarizationLossDb := ← value.getFloat "polarization_loss_db" 0.0
    miscellaneousLossDb := ← value.getFloat "miscellaneous_loss_db" 0.0 }

/-- Read a link request: every number goes through `float`, the seed through `int`. -/
def LinkRequest.fromMapping (value : Dict String (Json F)) : Option (LinkRequest F) := do
  let origin : Json F := .arr [.float 0.0, .float 0.0, .float 0.0]
  let radio ← LinkRadio.fromMapping value
  let losses ← LinkLosses.fromMapping value
  return {
    toLinkRadio := radio
    toLinkLosses := losses
    -- the older names of the ends are read if the newer ones are missing
    src := value.getTextOr "src" "tx_entity" "tx"
    dst := value.getTextOr "dst" "rx_entity" "rx"
    txPosition := value.getD "tx_position" (value.getD "tx" origin)
    rxPosition := value.getD "rx_position" (value.getD "rx" origin)
    pathLossExponent := ← value.getFloat "path_loss_exponent" 2.0
    referenceDistanceM := ← value.getFloat "reference_distance_m" 1.0
    shadowingSigmaDb := ← value.getFloatOr "shadowing_sigma_db" "shadow_loss_db" 0.0
    seed := ← (value.getD "seed" (.int 0)).toInt?
    model := value.getText "model" "free_space"
    requestId := value.getText "request_id" "" }

/-- The radio parameters that the budget of a request uses besides the power. -/
theorem LinkRequest.fromMapping_radio {value : Dict String (Json F)} {request : LinkRequest F}
    (h : LinkRequest.fromMapping value = some request) :
    value.getFloat "bandwidth_hz" 20e6 = some request.bandwidthHz ∧
      value.getFloat "interference_margin_db" 0.0 = some request.interferenceMarginDb ∧
      value.getFloat "spectral_efficiency_factor" 0.75 =
        some request.spectralEfficiencyFactor := by
  simp only [LinkRequest.fromMapping, bind, pure, Option.bind_eq_some_iff, Option.some.injEq] at h
  obtain ⟨radio, hradio, _, _, _, _, _, _, _, _, _, _, rfl⟩ := h
  simp only [LinkRadio.fromMapping, bind, pure, Option.bind_eq_some_iff, Option.some.injEq]
    at hradio
  obtain ⟨_, _, _, hbandwidth, _, _, _, _, _, _, _, _, _, hinterference, _, hfactor, rfl⟩ := hradio
  exact ⟨hbandwidth, hinterference, hfactor⟩

/-! ## Noise and path loss -/

/-- The speed of light in metres per second. -/
def cMps : F := 299792458.0

/-- The thermal noise density in dBm per hertz. -/
def boltzmannDbmHz : F := -(174.0 : F)

/-- The noise power in a bandwidth behind a receiver with the given noise figure. -/
def thermalNoiseDbm (bandwidthHz noiseFigureDb : F) : Option F :=
  if PyFloat.le bandwidthHz 0.0 then none
  else do
    return boltzmannDbmHz + 10.0 * (← PyFloat.log10 bandwidthHz) + noiseFigureDb

/-- In exact arithmetic the noise of a bandwidth that is positive. -/
theorem thermalNoiseDbm_real {bandwidthHz : ℝ} (h : 0 < bandwidthHz) (noiseFigureDb : ℝ) :
    thermalNoiseDbm bandwidthHz noiseFigureDb =
      some (-174 + 10 * Real.logb 10 bandwidthHz + noiseFigureDb) := by
  have hpos : PyFloat.le bandwidthHz 0.0 = false := by
    rw [PyFloat.le_real]
    exact decide_eq_false (by norm_num [h])
  simp only [thermalNoiseDbm, hpos, PyFloat.log10_real h, bind, Option.bind_some, pure,
    boltzmannDbmHz]
  norm_num

/-- The noise of ten megahertz at the noise figure that is assumed where none is given. -/
theorem thermalNoiseDbm_wide : thermalNoiseDbm (1e7 : ℝ) 7.0 = some (-97) := by
  have hlog : Real.logb 10 (1e7 : ℝ) = 7 := by
    rw [show (1e7 : ℝ) = 10 ^ (7 : ℝ) by norm_num]
    exact Real.logb_rpow (by norm_num) (by norm_num)
  rw [thermalNoiseDbm_real (by norm_num), hlog]
  norm_num

/-- Path loss in free space. -/
def freeSpacePathLossDb (distanceM frequencyHz : F) : Option F :=
  if PyFloat.le distanceM 0.0 || PyFloat.le frequencyHz 0.0 then none
  else do
    let wavelengthM ← PyFloat.div cMps frequencyHz
    let ratio ← PyFloat.div (4.0 * PyFloat.pi * distanceM) wavelengthM
    return 20.0 * (← PyFloat.log10 ratio)

/-- Path loss that grows with the logarithm of the distance from a reference distance on. -/
def logDistancePathLossDb (distanceM frequencyHz exponent referenceDistanceM : F) : Option F :=
  if PyFloat.lt exponent 1.0 || PyFloat.lt 8.0 exponent then none
  else do
    let d0 := PyFloat.max 1e-3 referenceDistanceM
    let d := PyFloat.max distanceM d0
    let base ← freeSpacePathLossDb d0 frequencyHz
    return base + 10.0 * exponent * (← PyFloat.log10 (← PyFloat.div d d0))

/-- The models that use free-space path loss. -/
def freeSpaceModels : List String := ["free_space", "sionna_analytical", "analytical_fspl"]

/-- The models that use log-distance path loss. -/
def logDistanceModels : List String :=
  ["log_distance", "stochastic_shadowing", "probabilistic_air_to_ground"]

/-- The path loss of the model a request names, with the name the metrics report. -/
def analyticalPathLoss (request : LinkRequest F) (distanceM : F) : Option (F × String) :=
  let model := PyText.strip F (PyText.lower F request.model)
  if model ∈ freeSpaceModels then do
    let loss ← freeSpacePathLossDb distanceM request.frequencyHz
    return (loss, if model = "free_space" then "free_space" else "sionna_analytical_reference")
  else if model ∈ logDistanceModels then do
    let loss ← logDistancePathLossDb distanceM request.frequencyHz request.pathLossExponent
      request.referenceDistanceM
    return (loss, model)
  -- an unknown model raises
  else none

/-- The propagation model of the source, with `gauss` for the normal draw that is seeded with the
request's seed, its end points and the distance. -/
def Propagation.analytical (gauss : LinkRequest F → F → F) : Propagation F where
  basePathLoss := analyticalPathLoss
  shadowing := gauss

/-! ## The budget -/

/-- The capacity in Mbit/s at a given SINR. -/
def capacityAt (spectralEfficiencyFactor bandwidthHz sinrDb : F) : Option F := do
  let sinrLinear ← PyFloat.tenPow (← PyFloat.div sinrDb 10.0)
  PyFloat.div
    (spectralEfficiencyFactor * bandwidthHz *
      (← PyFloat.log2 (1.0 + PyFloat.max 0.0 sinrLinear))) 1e6

/-- The shadowing loss of a request: no draw is made unless the deviation is positive. -/
def shadowingDb (propagation : Propagation F) (request : LinkRequest F) (distanceM : F) : F :=
  if PyFloat.lt 0.0 request.shadowingSigmaDb then propagation.shadowing request distanceM else 0.0

/-- The contributions to the path loss, in the order in which they are added. -/
def lossComponents (request : LinkRequest F) (basePathLossDb shadowingDb : F) :
    List (String × F) :=
  [("base_path_loss_db", basePathLossDb),
    ("shadowing_db", shadowingDb),
    ("atmospheric_loss_db", request.atmosphericLossDb),
    ("rain_loss_db", request.rainLossDb),
    ("foliage_loss_db", request.foliageLossDb),
    ("clutter_loss_db", request.clutterLossDb),
    ("blockage_loss_db", request.blockageLossDb),
    ("polarization_loss_db", request.polarizationLossDb),
    ("tx_cable_loss_db", request.txCableLossDb),
    ("rx_cable_loss_db", request.rxCableLossDb),
    ("implementation_loss_db", request.implementationLossDb),
    ("miscellaneous_loss_db", request.miscellaneousLossDb)]

/-- What arrives at the receiver of a link, before noise is taken into account. -/
structure ReceivedSignal (F : Type) where
  distanceM : F
  componentsDb : List (String × F)
  pathLossDb : F
  rxPowerDbm : F
  model : String

/-- The distance between the end points of a request, at least a millimetre. -/
def linkDistance (request : LinkRequest F) : Option F := do
  let tx ← normalizeVec3 request.txPosition
  let rx ← normalizeVec3 request.rxPosition
  return PyFloat.max 1e-3 (tx.dist rx)

/-- The signal at the receiver of a request. -/
def receivedSignal (propagation : Propagation F) (request : LinkRequest F) :
    Option (ReceivedSignal F) := do
  let distanceM ← linkDistance request
  let base ← propagation.basePathLoss request distanceM
  let componentsDb := lossComponents request base.1 (shadowingDb propagation request distanceM)
  -- every component adds to the loss, the cables and the implementation too
  let pathLossDb := PyFloat.sum (componentsDb.map Prod.snd)
  return {
    distanceM, componentsDb, pathLossDb
    rxPowerDbm := request.txPowerDbm + request.txGainDbi + request.rxGainDbi - pathLossDb
    model := base.2 }

/-- Compute the metrics of a link. `freshId` is the identifier drawn for a request without one, and
`computedAt` the wall clock. -/
def computeAnalyticalLink (propagation : Propagation F) (freshId : String) (computedAt : F)
    (request : LinkRequest F) : Option (LinkMetrics F) := do
  let signal ← receivedSignal propagation request
  let noiseDbm ← thermalNoiseDbm request.bandwidthHz request.receiverNoiseFigureDb
  let snrDb := signal.rxPowerDbm - noiseDbm
  -- interference is a margin, not a sum of powers
  let sinrDb := snrDb - request.interferenceMarginDb
  let capacityMbps ← capacityAt request.spectralEfficiencyFactor request.bandwidthHz sinrDb
  let propagationDelayMs := (← PyFloat.div signal.distanceM cMps) * 1000.0
  let requestId := if request.requestId = "" then freshId else request.requestId
  return {
    linkId := request.src ++ "->" ++ request.dst ++ ":" ++ .ofList (requestId.toList.take 8)
    src := request.src
    dst := request.dst
    distanceM := signal.distanceM
    pathLossDb := signal.pathLossDb
    rxPowerDbm := signal.rxPowerDbm
    snrDb
    sinrDb := some sinrDb
    capacityMbps
    propagationDelayMs
    totalDelayMs := propagationDelayMs
    losState := "UNDETERMINED_ANALYTICAL"
    model := signal.model
    modelVersion := "2.0"
    -- shadowing makes the metrics stochastic, whatever it comes to
    fidelity := if PyFloat.lt 0.0 request.shadowingSigmaDb then .stochastic else .analytical
    timestampWallS := computedAt
    componentsDb := signal.componentsDb
    requestId }

/-- The metrics of a request: the signal above thermal noise. -/
theorem computeAnalyticalLink_spec {propagation : Propagation F} {freshId : String}
    {computedAt : F} {request : LinkRequest F} {metrics : LinkMetrics F}
    (h : computeAnalyticalLink propagation freshId computedAt request = some metrics) :
    ∃ signal noiseDbm sinrDb,
      receivedSignal propagation request = some signal ∧
        thermalNoiseDbm request.bandwidthHz request.receiverNoiseFigureDb = some noiseDbm ∧
        metrics.distanceM = signal.distanceM ∧ metrics.rxPowerDbm = signal.rxPowerDbm ∧
        metrics.snrDb = signal.rxPowerDbm - noiseDbm ∧
        metrics.sinrDb = some sinrDb ∧ sinrDb = metrics.snrDb - request.interferenceMarginDb ∧
        capacityAt request.spectralEfficiencyFactor request.bandwidthHz sinrDb =
          some metrics.capacityMbps ∧
        metrics.timestampWallS = computedAt := by
  simp only [computeAnalyticalLink, bind, pure, Option.bind_eq_some_iff, Option.some.injEq] at h
  obtain ⟨signal, hsignal, noiseDbm, hnoise, capacity, hcapacity, _, _, rfl⟩ := h
  exact ⟨signal, noiseDbm, _, hsignal, hnoise, rfl, rfl, rfl, rfl, rfl, hcapacity, rfl⟩

end Netlab
