import Netlab.Preview.Editors

/-!
# How the previews put a link together

The three previews of a link, the two of the editors and the one of the safety shield, read the same
numbers for the radio (`LinkBasis`). They differ in the propagation model, in where they look for
the antennas of the ends, in what they know about the ends, and in how long a metric is fresh.
-/

namespace Netlab

open Experiment (mappingOrEmpty)

variable {F : Type} [PyText F] [PyFloat F]

/-- What the requests of a configuration have in common. -/
structure LinkBasis (F : Type) where
  frequencyHz : F
  bandwidthHz : F
  txPowerDbm : F
  receiverNoiseFigureDb : F
  implementationLossDb : F
  interferenceMarginDb : F
  pathLossExponent : F
  shadowingSigmaDb : F
  spectralEfficiencyFactor : F
  seed : ℤ

/-- Read the numbers of the radio and the seed. -/
def LinkBasis.read (config : Dict String (Json F)) : Option (LinkBasis F) := do
  let communication := mappingOrEmpty config "communication"
  let experiment ← Experiment.section? config "experiment"
  return {
    frequencyHz := ← communication.getFloat "carrier_frequency_hz" 3.5e9
    bandwidthHz := ← communication.getFloat "bandwidth_hz" 20e6
    txPowerDbm := ← communication.getFloat "tx_power_dbm" 23.0
    receiverNoiseFigureDb := ← communication.getFloat "receiver_noise_figure_db" 7.0
    implementationLossDb := ← communication.getFloat "implementation_loss_db" 2.0
    interferenceMarginDb := ← communication.getFloat "interference_margin_db" 0.0
    pathLossExponent := ← communication.getFloat "path_loss_exponent" 2.0
    shadowingSigmaDb := ← communication.getFloat "shadowing_sigma_db" 0.0
    spectralEfficiencyFactor := ← communication.getFloat "spectral_efficiency_factor" 0.75
    seed := ← (experiment.getD "seed" (.int 0)).toInt? }

/-- The request of an edge with a propagation model, the gains and cable losses of the antennas, and
the positions of the ends. -/
def LinkBasis.request (basis : LinkBasis F) (model : String) (edge : Edge) (tx rx : F × F)
    (txPosition rxPosition : Json F) : LinkRequest F where
  src := edge.1
  dst := edge.2
  txPosition := txPosition
  rxPosition := rxPosition
  frequencyHz := basis.frequencyHz
  bandwidthHz := basis.bandwidthHz
  txPowerDbm := basis.txPowerDbm
  receiverNoiseFigureDb := basis.receiverNoiseFigureDb
  implementationLossDb := basis.implementationLossDb
  txGainDbi := tx.1
  rxGainDbi := rx.1
  txCableLossDb := tx.2
  rxCableLossDb := rx.2
  interferenceMarginDb := basis.interferenceMarginDb
  pathLossExponent := basis.pathLossExponent
  shadowingSigmaDb := basis.shadowingSigmaDb
  spectralEfficiencyFactor := basis.spectralEfficiencyFactor
  seed := basis.seed
  model := model
  referenceDistanceM := 1.0
  atmosphericLossDb := 0.0
  rainLossDb := 0.0
  foliageLossDb := 0.0
  clutterLossDb := 0.0
  blockageLossDb := 0.0
  polarizationLossDb := 0.0
  miscellaneousLossDb := 0.0
  requestId := ""

/-- The gain and the cable loss of an antenna. -/
def antennaPair (definition : Dict String (Json F)) : Option (F × F) := do
  return (← definition.getFloat "gain_dbi" 0.0, ← definition.getFloat "cable_loss_db" 0.0)

/-- The fallback model of a configuration. -/
def fallbackModel (config : Dict String (Json F)) : String :=
  (mappingOrEmpty config "communication").getText "fallback_model" "free_space"

/-- The numbers that a basis is read from. -/
structure LinkBasis.ReadFrom (config : Dict String (Json F)) (basis : LinkBasis F) : Prop where
  frequency : (mappingOrEmpty config "communication").getFloat "carrier_frequency_hz" 3.5e9 =
    some basis.frequencyHz
  bandwidth : (mappingOrEmpty config "communication").getFloat "bandwidth_hz" 20e6 =
    some basis.bandwidthHz
  power : (mappingOrEmpty config "communication").getFloat "tx_power_dbm" 23.0 =
    some basis.txPowerDbm
  figure : (mappingOrEmpty config "communication").getFloat "receiver_noise_figure_db" 7.0 =
    some basis.receiverNoiseFigureDb
  implementation : (mappingOrEmpty config "communication").getFloat "implementation_loss_db" 2.0 =
    some basis.implementationLossDb
  interference : (mappingOrEmpty config "communication").getFloat "interference_margin_db" 0.0 =
    some basis.interferenceMarginDb
  exponent : (mappingOrEmpty config "communication").getFloat "path_loss_exponent" 2.0 =
    some basis.pathLossExponent
  sigma : (mappingOrEmpty config "communication").getFloat "shadowing_sigma_db" 0.0 =
    some basis.shadowingSigmaDb
  factor : (mappingOrEmpty config "communication").getFloat "spectral_efficiency_factor" 0.75 =
    some basis.spectralEfficiencyFactor
  seed : ∃ experiment, Experiment.section? config "experiment" = some experiment ∧
    (experiment.getD "seed" (.int 0)).toInt? = some basis.seed

theorem LinkBasis.read_eq_some_iff {config : Dict String (Json F)} {basis : LinkBasis F} :
    LinkBasis.read config = some basis ↔ basis.ReadFrom config := by
  constructor
  · intro h
    simp only [LinkBasis.read, bind, pure, Option.bind_eq_some_iff, Option.some.injEq] at h
    obtain ⟨experiment, hexperiment, frequency, hfrequency, bandwidth, hbandwidth, power, hpower,
      figure, hfigure, loss, hloss, interference, hinterference, exponent, hexponent, sigma, hsigma,
      factor, hfactor, seed, hseed, rfl⟩ := h
    exact ⟨hfrequency, hbandwidth, hpower, hfigure, hloss, hinterference, hexponent, hsigma, hfactor,
      experiment, hexperiment, hseed⟩
  · intro h
    obtain ⟨experiment, hexperiment, hseed⟩ := h.seed
    simp only [LinkBasis.read, hexperiment, hseed, h.frequency, h.bandwidth, h.power, h.figure,
      h.implementation, h.interference, h.exponent, h.sigma, h.factor, bind, pure, Option.bind_some]

/-- The request of the shield. -/
theorem previewRequest_eq_some_iff {config : Dict String (Json F)} {edge : Edge}
    {txPosition rxPosition : Json F} {request : LinkRequest F} :
    previewRequest config edge.1 edge.2 txPosition rxPosition = some request ↔
      ∃ basis tx rx, LinkBasis.read config = some basis ∧ antennaGain config edge.1 = some tx ∧
        antennaGain config edge.2 = some rx ∧
        request = basis.request (fallbackModel config) edge tx rx txPosition rxPosition := by
  constructor
  · intro h
    unfold previewRequest at h
    obtain ⟨tx, htx, h⟩ := Option.bind_eq_some_iff.mp h
    obtain ⟨rx, hrx, h⟩ := Option.bind_eq_some_iff.mp h
    obtain ⟨experiment, hexperiment, h⟩ := Option.bind_eq_some_iff.mp h
    obtain ⟨frequency, hfrequency, h⟩ := Option.bind_eq_some_iff.mp h
    obtain ⟨bandwidth, hbandwidth, h⟩ := Option.bind_eq_some_iff.mp h
    obtain ⟨power, hpower, h⟩ := Option.bind_eq_some_iff.mp h
    obtain ⟨figure, hfigure, h⟩ := Option.bind_eq_some_iff.mp h
    obtain ⟨loss, hloss, h⟩ := Option.bind_eq_some_iff.mp h
    obtain ⟨exponent, hexponent, h⟩ := Option.bind_eq_some_iff.mp h
    obtain ⟨sigma, hsigma, h⟩ := Option.bind_eq_some_iff.mp h
    obtain ⟨interference, hinterference, h⟩ := Option.bind_eq_some_iff.mp h
    obtain ⟨factor, hfactor, h⟩ := Option.bind_eq_some_iff.mp h
    obtain ⟨seed, hseed, h⟩ := Option.bind_eq_some_iff.mp h
    obtain rfl := Option.some.inj h
    exact ⟨⟨_, _, _, _, _, _, _, _, _, _⟩, tx, rx,
      LinkBasis.read_eq_some_iff.mpr ⟨hfrequency, hbandwidth, hpower, hfigure, hloss, hinterference,
        hexponent, hsigma, hfactor, experiment, hexperiment, hseed⟩, htx, hrx, rfl⟩
  · rintro ⟨basis, tx, rx, hbasis, htx, hrx, rfl⟩
    have h := LinkBasis.read_eq_some_iff.mp hbasis
    obtain ⟨experiment, hexperiment, hseed⟩ := h.seed
    simp only [previewRequest, htx, hrx, hexperiment, hseed, h.frequency, h.bandwidth, h.power,
      h.figure, h.implementation, h.interference, h.exponent, h.sigma, h.factor, bind, pure,
      Option.bind_some]
    rfl

theorem antennaPair_eq_some_iff {definition : Dict String (Json F)} {pair : F × F} :
    antennaPair definition = some pair ↔ definition.getFloat "gain_dbi" 0.0 = some pair.1 ∧
      definition.getFloat "cable_loss_db" 0.0 = some pair.2 := by
  constructor
  · intro h
    obtain ⟨gain, hgain, h⟩ := Option.bind_eq_some_iff.mp h
    obtain ⟨cable, hcable, h⟩ := Option.bind_eq_some_iff.mp h
    obtain rfl := Option.some.inj h
    exact ⟨hgain, hcable⟩
  · rintro ⟨hgain, hcable⟩
    simp only [antennaPair, hgain, hcable, bind, pure, Option.bind_some]

/-- The request of the preview of the link service. -/
theorem EditorPreview.request_eq_some_iff
    {definitions : Dict String (Dict String (Json F))} {config : Dict String (Json F)} {edge : Edge}
    {source destination : Dict String (Json F)} {request : LinkRequest F} :
    EditorPreview.request definitions config edge source destination = some request ↔
      ∃ basis tx rx, LinkBasis.read config = some basis ∧
        antennaPair (antennaOf definitions (antennaId config edge.1 source)) = some tx ∧
        antennaPair (antennaOf definitions (antennaId config edge.2 destination)) = some rx ∧
        request = basis.request (previewModel config) edge tx rx (position source)
          (position destination) := by
  constructor
  · intro h
    -- every field that is read names one conversion, in the order in which the record lists them
    unfold EditorPreview.request at h
    obtain ⟨experiment, hexperiment, h⟩ := Option.bind_eq_some_iff.mp h
    obtain ⟨frequency, hfrequency, h⟩ := Option.bind_eq_some_iff.mp h
    obtain ⟨bandwidth, hbandwidth, h⟩ := Option.bind_eq_some_iff.mp h
    obtain ⟨power, hpower, h⟩ := Option.bind_eq_some_iff.mp h
    obtain ⟨figure, hfigure, h⟩ := Option.bind_eq_some_iff.mp h
    obtain ⟨loss, hloss, h⟩ := Option.bind_eq_some_iff.mp h
    obtain ⟨txGain, htxGain, h⟩ := Option.bind_eq_some_iff.mp h
    obtain ⟨rxGain, hrxGain, h⟩ := Option.bind_eq_some_iff.mp h
    obtain ⟨txCable, htxCable, h⟩ := Option.bind_eq_some_iff.mp h
    obtain ⟨rxCable, hrxCable, h⟩ := Option.bind_eq_some_iff.mp h
    obtain ⟨interference, hinterference, h⟩ := Option.bind_eq_some_iff.mp h
    obtain ⟨exponent, hexponent, h⟩ := Option.bind_eq_some_iff.mp h
    obtain ⟨sigma, hsigma, h⟩ := Option.bind_eq_some_iff.mp h
    obtain ⟨seed, hseed, h⟩ := Option.bind_eq_some_iff.mp h
    obtain ⟨factor, hfactor, h⟩ := Option.bind_eq_some_iff.mp h
    obtain rfl := Option.some.inj h
    exact ⟨⟨_, _, _, _, _, _, _, _, _, _⟩, ⟨txGain, txCable⟩, ⟨rxGain, rxCable⟩,
      LinkBasis.read_eq_some_iff.mpr ⟨hfrequency, hbandwidth, hpower, hfigure, hloss, hinterference,
        hexponent, hsigma, hfactor, experiment, hexperiment, hseed⟩,
      antennaPair_eq_some_iff.mpr ⟨htxGain, htxCable⟩,
      antennaPair_eq_some_iff.mpr ⟨hrxGain, hrxCable⟩, rfl⟩
  · rintro ⟨basis, tx, rx, hbasis, htx, hrx, rfl⟩
    have h := LinkBasis.read_eq_some_iff.mp hbasis
    obtain ⟨experiment, hexperiment, hseed⟩ := h.seed
    obtain ⟨htxGain, htxCable⟩ := antennaPair_eq_some_iff.mp htx
    obtain ⟨hrxGain, hrxCable⟩ := antennaPair_eq_some_iff.mp hrx
    simp only [EditorPreview.request, htxGain, htxCable, hrxGain, hrxCable, hexperiment, hseed,
      h.frequency, h.bandwidth, h.power, h.figure, h.implementation, h.interference, h.exponent,
      h.sigma, h.factor, bind, pure, Option.bind_some]
    rfl

/-! ## The request of a mapping -/

omit [PyText F] [PyFloat F] in
/-- The members of a request are found by name. -/
theorem get?_ofList_lookup {entries : List (String × Json F)} (h : (entries.map Prod.fst).Nodup)
    (key : String) : (Dict.ofList entries).get? key = entries.lookup key := by
  rw [Dict.get?, Dict.entries_ofList h]

namespace TopologyPreview

omit [PyText F] in
theorem nodup_requestMembers (config tx rx : Dict String (Json F)) (edge : Edge)
    (txPosition rxPosition seed : Json F) :
    ((requestMembers config tx rx edge txPosition rxPosition seed).map Prod.fst).Nodup := by
  show ["src", "dst", "tx_position", "rx_position", "frequency_hz", "bandwidth_hz", "tx_power_dbm",
    "receiver_noise_figure_db", "implementation_loss_db", "tx_gain_dbi", "rx_gain_dbi",
    "tx_cable_loss_db", "rx_cable_loss_db", "path_loss_exponent", "shadowing_sigma_db",
    "interference_margin_db", "spectral_efficiency_factor", "model", "seed"].Nodup
  decide

omit [PyText F] in
/-- What is read of the mapping of a request. -/
theorem getD_requestMembers (config tx rx : Dict String (Json F)) (edge : Edge)
    (txPosition rxPosition seed default : Json F) (key : String) :
    (Dict.ofList (requestMembers config tx rx edge txPosition rxPosition seed)).getD key default =
      ((requestMembers config tx rx edge txPosition rxPosition seed).lookup key).getD default := by
  rw [Dict.getD, get?_ofList_lookup (nodup_requestMembers ..)]

/-- The radio parameters of the request. -/
theorem radio_requestMembers (config tx rx : Dict String (Json F)) (edge : Edge)
    (txPosition rxPosition seed : Json F) :
    LinkRadio.fromMapping
        (.ofList (requestMembers config tx rx edge txPosition rxPosition seed)) = do
      let communication := mappingOrEmpty config "communication"
      return {
        frequencyHz := ← communication.getFloat "carrier_frequency_hz" 3.5e9
        bandwidthHz := ← communication.getFloat "bandwidth_hz" 20e6
        txPowerDbm := ← communication.getFloat "tx_power_dbm" 23.0
        receiverNoiseFigureDb := ← communication.getFloat "receiver_noise_figure_db" 7.0
        txGainDbi := ← tx.getFloat "gain_dbi" 0.0
        rxGainDbi := ← rx.getFloat "gain_dbi" 0.0
        interferenceMarginDb := ← communication.getFloat "interference_margin_db" 0.0
        spectralEfficiencyFactor :=
          ← communication.getFloat "spectral_efficiency_factor" 0.75 } := by
  simp only [LinkRadio.fromMapping, Dict.getFloat, Dict.getFloatOr, getD_requestMembers]
  simp [requestMembers, List.lookup_cons]

/-- The losses of the request. -/
theorem losses_requestMembers (config tx rx : Dict String (Json F)) (edge : Edge)
    (txPosition rxPosition seed : Json F) :
    LinkLosses.fromMapping
        (.ofList (requestMembers config tx rx edge txPosition rxPosition seed)) = do
      return {
        implementationLossDb :=
          ← (mappingOrEmpty config "communication").getFloat "implementation_loss_db" 2.0
        txCableLossDb := ← tx.getFloat "cable_loss_db" 0.0
        rxCableLossDb := ← rx.getFloat "cable_loss_db" 0.0
        atmosphericLossDb := 0.0
        rainLossDb := 0.0
        foliageLossDb := 0.0
        clutterLossDb := 0.0
        blockageLossDb := 0.0
        polarizationLossDb := 0.0
        miscellaneousLossDb := 0.0 } := by
  simp only [LinkLosses.fromMapping, Dict.getFloat, getD_requestMembers]
  simp [requestMembers, List.lookup_cons]

/-- The request of the mapping. -/
theorem fromMapping_requestMembers (config tx rx : Dict String (Json F)) (edge : Edge)
    (txPosition rxPosition seed : Json F) :
    LinkRequest.fromMapping
        (.ofList (requestMembers config tx rx edge txPosition rxPosition seed)) = do
      let communication := mappingOrEmpty config "communication"
      let radio ← LinkRadio.fromMapping
        (.ofList (requestMembers config tx rx edge txPosition rxPosition seed))
      let losses ← LinkLosses.fromMapping
        (.ofList (requestMembers config tx rx edge txPosition rxPosition seed))
      return {
        toLinkRadio := radio
        toLinkLosses := losses
        src := edge.1
        dst := edge.2
        txPosition := txPosition
        rxPosition := rxPosition
        pathLossExponent := ← communication.getFloat "path_loss_exponent" 2.0
        referenceDistanceM := 1.0
        shadowingSigmaDb := ← communication.getFloat "shadowing_sigma_db" 0.0
        seed := ← seed.toInt?
        model := fallbackModel config
        requestId := "" } := by
  simp only [LinkRequest.fromMapping, Dict.getFloat, Dict.getFloatOr, Dict.getText, Dict.getTextOr,
    fallbackModel, getD_requestMembers]
  simp [requestMembers, List.lookup_cons, Json.toText]

omit [PyFloat F] in
/-- The `experiment` section, where it is an object. -/
theorem experiment_eq {config experiment : Dict String (Json F)}
    (h : Experiment.section? config "experiment" = some experiment) :
    ((config.getD "experiment" (.obj [])).orElse (.obj [])).dict? = some experiment := by
  rw [Experiment.section?] at h
  rw [Dict.getD]
  cases hget : config.get? "experiment" with
  | none =>
      rw [hget] at h
      exact h
  | some value =>
      rw [hget] at h
      dsimp only at h
      cases value with
      | obj members =>
          rw [Option.getD_some, Json.orElse]
          split
          · exact h
          · rename_i hfalse
            obtain rfl : members = [] := by simpa [Json.truthy] using hfalse
            exact h
      | _ => simp [Json.dict?] at h

/-- The request of the preview next to the checks of the topology. -/
theorem request_eq_some_iff {definitions : Dict String (Dict String (Json F))}
    {config experiment : Dict String (Json F)} {edge : Edge} {txPosition rxPosition : Json F}
    {request : LinkRequest F}
    (hexperiment : Experiment.section? config "experiment" = some experiment) :
    TopologyPreview.request definitions config edge txPosition rxPosition = some request ↔
      ∃ basis tx rx, LinkBasis.read config = some basis ∧
        antennaPair (antenna definitions config edge.1) = some tx ∧
        antennaPair (antenna definitions config edge.2) = some rx ∧
        request = basis.request (fallbackModel config) edge tx rx txPosition rxPosition := by
  rw [TopologyPreview.request, experiment_eq hexperiment, Option.bind_eq_bind, Option.bind_some,
    fromMapping_requestMembers, radio_requestMembers, losses_requestMembers]
  constructor
  · intro h
    -- the mapping is converted in two groups, so the ten basic fields are gathered from both
    obtain ⟨radio, hradio, h⟩ := Option.bind_eq_some_iff.mp h
    obtain ⟨losses, hlosses, h⟩ := Option.bind_eq_some_iff.mp h
    obtain ⟨exponent, hexponent, h⟩ := Option.bind_eq_some_iff.mp h
    obtain ⟨sigma, hsigma, h⟩ := Option.bind_eq_some_iff.mp h
    obtain ⟨seed, hseed, h⟩ := Option.bind_eq_some_iff.mp h
    obtain rfl := Option.some.inj h
    obtain ⟨frequency, hfrequency, hradio⟩ := Option.bind_eq_some_iff.mp hradio
    obtain ⟨bandwidth, hbandwidth, hradio⟩ := Option.bind_eq_some_iff.mp hradio
    obtain ⟨power, hpower, hradio⟩ := Option.bind_eq_some_iff.mp hradio
    obtain ⟨figure, hfigure, hradio⟩ := Option.bind_eq_some_iff.mp hradio
    obtain ⟨txGain, htxGain, hradio⟩ := Option.bind_eq_some_iff.mp hradio
    obtain ⟨rxGain, hrxGain, hradio⟩ := Option.bind_eq_some_iff.mp hradio
    obtain ⟨interference, hinterference, hradio⟩ := Option.bind_eq_some_iff.mp hradio
    obtain ⟨factor, hfactor, hradio⟩ := Option.bind_eq_some_iff.mp hradio
    obtain rfl := Option.some.inj hradio
    obtain ⟨loss, hloss, hlosses⟩ := Option.bind_eq_some_iff.mp hlosses
    obtain ⟨txCable, htxCable, hlosses⟩ := Option.bind_eq_some_iff.mp hlosses
    obtain ⟨rxCable, hrxCable, hlosses⟩ := Option.bind_eq_some_iff.mp hlosses
    obtain rfl := Option.some.inj hlosses
    exact ⟨⟨_, _, _, _, _, _, _, _, _, _⟩, ⟨txGain, txCable⟩, ⟨rxGain, rxCable⟩,
      LinkBasis.read_eq_some_iff.mpr ⟨hfrequency, hbandwidth, hpower, hfigure, hloss, hinterference,
        hexponent, hsigma, hfactor, experiment, hexperiment, hseed⟩,
      antennaPair_eq_some_iff.mpr ⟨htxGain, htxCable⟩,
      antennaPair_eq_some_iff.mpr ⟨hrxGain, hrxCable⟩, rfl⟩
  · rintro ⟨basis, tx, rx, hbasis, htx, hrx, rfl⟩
    have h := LinkBasis.read_eq_some_iff.mp hbasis
    obtain ⟨experiment', hexperiment', hseed⟩ := h.seed
    obtain rfl := Option.some.inj (hexperiment.symm.trans hexperiment')
    obtain ⟨htxGain, htxCable⟩ := antennaPair_eq_some_iff.mp htx
    obtain ⟨hrxGain, hrxCable⟩ := antennaPair_eq_some_iff.mp hrx
    simp only [htxGain, htxCable, hrxGain, hrxCable, hseed, h.frequency, h.bandwidth, h.power,
      h.figure, h.implementation, h.interference, h.exponent, h.sigma, h.factor, bind, pure,
      Option.bind_some]
    rfl

end TopologyPreview

end Netlab
