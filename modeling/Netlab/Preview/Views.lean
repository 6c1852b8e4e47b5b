import Netlab.Link.GateSpec
import Netlab.Link.NoiseFloor
import Netlab.Preview.Assembly
import Mathlib.Algebra.Field.Periodic

/-!
# When two previews agree on a link

The verdict about a link in exact arithmetic, with the path loss as an abstract function of its
family, the distance and the radio. What the previews can differ in is a `LinkView`: the family of
path loss, the antennas, what is known about the ends, and for how long a metric is fresh. Two views
give the same verdict for every path loss exactly when they match (`forall_verdict_iff_matches`).
-/

/-- A set that is bounded below and not empty is moved by every translation. -/
theorem eq_of_forall_add_mem_iff {α : Type*} [AddCommGroup α] [LinearOrder α]
    [IsOrderedAddMonoid α] [Archimedean α] {s : Set α} (hne : s.Nonempty) (hbdd : BddBelow s)
    {a b : α} (h : ∀ x, x + a ∈ s ↔ x + b ∈ s) : a = b := by
  obtain ⟨x, hx⟩ := hne
  obtain ⟨m, hm⟩ := hbdd
  have hstep : Function.Periodic (fun y => y ∈ s) (b - a) := fun y => propext <| by
    have hmove := h (y - a)
    rw [sub_add_cancel, sub_add_eq_add_sub, add_sub_assoc] at hmove
    exact hmove.symm
  have hperiodic : Function.Periodic (fun y => y ∈ s) |b - a| := by
    rcases abs_choice (b - a) with habs | habs <;> rw [habs]
    · exact hstep
    · exact hstep.neg
  by_contra hne
  -- a number of steps leads below every bound
  obtain ⟨y, ⟨-, hlt⟩, hmem⟩ := hperiodic.exists_mem_Ico
    (abs_pos.mpr (sub_ne_zero.mpr (Ne.symm hne))) x (m - |b - a|)
  rw [sub_add_cancel] at hlt
  exact absurd (hm (cast hmem hx)) (not_le.mpr hlt)

namespace Netlab

variable {F : Type}

/-! ## Path loss as an abstract function -/

/-- The two families of path loss that the link computation knows. -/
inductive PathLossFamily
  | freeSpace
  | logDistance
  deriving DecidableEq, Repr

/-- Path loss as an abstract function of the family, the distance, the frequency, the exponent and
the reference distance, with the shadowing of a seed, two ends, a distance and a deviation. -/
structure PathLoss (F : Type) where
  loss : PathLossFamily → F → F → F → F → F
  shadowing : ℤ → String → String → F → F → F

variable [PyText F] [PyFloat F]

/-- The family of a model. The link computation raises on an unknown model, and on an exponent that
is out of range if the model needs one. -/
def pathLossFamily? (model : String) (exponent : F) : Option PathLossFamily :=
  let model := PyText.strip F (PyText.lower F model)
  if model ∈ freeSpaceModels then some .freeSpace
  else if model ∈ logDistanceModels then
    if PyFloat.lt exponent 1.0 || PyFloat.lt 8.0 exponent then none else some .logDistance
  else none

namespace PathLoss

/-- The propagation model with an abstract path loss. -/
def propagation (pathLoss : PathLoss F) : Propagation F where
  basePathLoss request distanceM :=
    (pathLossFamily? request.model request.pathLossExponent).map fun family =>
      (pathLoss.loss family distanceM request.frequencyHz request.pathLossExponent
        request.referenceDistanceM, request.model)
  shadowing request distanceM := pathLoss.shadowing request.seed request.src request.dst distanceM
    request.shadowingSigmaDb

/-- The path loss of the source. -/
def analytical (gauss : ℤ → String → String → F → F → F) : PathLoss F where
  loss
    | .freeSpace, distanceM, frequencyHz, _, _ =>
        (freeSpacePathLossDb distanceM frequencyHz).getD 0.0
    | .logDistance, distanceM, frequencyHz, exponent, referenceDistanceM =>
        (logDistancePathLossDb distanceM frequencyHz exponent referenceDistanceM).getD 0.0
  shadowing := gauss

end PathLoss

/-- Free-space path loss exists over a positive distance at a positive frequency. -/
theorem isSome_freeSpacePathLossDb {distanceM frequencyHz : ℝ} (hdistance : 0 < distanceM)
    (hfrequency : 0 < frequencyHz) : (freeSpacePathLossDb distanceM frequencyHz).isSome = true := by
  have hzero : (0.0 : ℝ) = 0 := by norm_num
  have hspeed : (0 : ℝ) < cMps := by
    rw [cMps]
    norm_num
  have hpi : (0 : ℝ) < 4.0 * PyFloat.pi * distanceM := by
    have := Real.pi_pos
    show (0 : ℝ) < 4.0 * Real.pi * distanceM
    positivity
  have hwave : (0 : ℝ) < cMps / frequencyHz := div_pos hspeed hfrequency
  simp [freeSpacePathLossDb, hzero, hdistance.not_ge, hfrequency.not_ge,
    PyFloat.div_real hfrequency.ne', PyFloat.div_real hwave.ne',
    PyFloat.log10_real (div_pos hpi hwave)]

/-- Log-distance path loss exists at a positive frequency unless the exponent is out of range. -/
theorem isSome_logDistancePathLossDb {distanceM frequencyHz exponent : ℝ}
    (referenceDistanceM : ℝ) (hdistance : 0 < distanceM) (hfrequency : 0 < frequencyHz)
    (hexponent : ¬(PyFloat.lt exponent 1.0 || PyFloat.lt 8.0 exponent) = true) :
    (logDistancePathLossDb distanceM frequencyHz exponent referenceDistanceM).isSome = true := by
  -- the reference distance is positive, so both logarithms exist
  have hd0 : (0 : ℝ) < PyFloat.max 1e-3 referenceDistanceM := by
    rw [PyFloat.max_real]
    exact lt_max_of_lt_left (by norm_num)
  have hd : (0 : ℝ) < PyFloat.max distanceM (PyFloat.max 1e-3 referenceDistanceM) := by
    rw [PyFloat.max_real]
    exact lt_max_of_lt_left hdistance
  obtain ⟨base, hbase⟩ := Option.isSome_iff_exists.mp (isSome_freeSpacePathLossDb hd0 hfrequency)
  rw [logDistancePathLossDb, if_neg hexponent]
  simp only [bind, pure, hbase, PyFloat.div_real hd0.ne', Option.bind_some,
    PyFloat.log10_real (div_pos hd hd0), Option.isSome_some]

/-- The source's path loss is an instance of the abstract one. -/
theorem PathLoss.basePathLoss_analytical [PyText ℝ]
    (gauss : ℤ → String → String → ℝ → ℝ → ℝ) {request : LinkRequest ℝ} {distanceM : ℝ}
    (hdistance : 0 < distanceM) (hfrequency : 0 < request.frequencyHz) :
    (analyticalPathLoss request distanceM).map Prod.fst =
      ((analytical gauss).propagation.basePathLoss request distanceM).map Prod.fst := by
  simp only [analyticalPathLoss, PathLoss.propagation, pathLossFamily?]
  split
  · obtain ⟨loss, hloss⟩ :=
      Option.isSome_iff_exists.mp (isSome_freeSpacePathLossDb hdistance hfrequency)
    simp [analytical, hloss]
  · split
    · split
      · rename_i hexponent
        rw [logDistancePathLossDb, if_pos hexponent]
        rfl
      · rename_i hexponent
        obtain ⟨loss, hloss⟩ := Option.isSome_iff_exists.mp (isSome_logDistancePathLossDb
          request.referenceDistanceM hdistance hfrequency hexponent)
        simp [analytical, hloss]
    · rfl

/-! ## Views -/

/-- What the previews of an edge have in common. -/
structure LinkSetting (F : Type) where
  basis : LinkBasis F
  thresholds : GateThresholds F
  edge : Edge
  distanceM : F
  noiseDbm : F

/-- What a preview puts into the verdict about an edge on its own. Without a family the link
computation raises. -/
structure LinkView (F : Type) where
  family : Option PathLossFamily
  tx : F × F
  rx : F × F
  endpoints : LinkEndpoints
  metricTtlS : F

/-- The path loss of a family, with the shadowing. -/
noncomputable def PathLoss.totalDb (pathLoss : PathLoss ℝ) (setting : LinkSetting ℝ)
    (family : PathLossFamily) : ℝ :=
  pathLoss.loss family setting.distanceM setting.basis.frequencyHz setting.basis.pathLossExponent
      1.0 +
    if 0 < setting.basis.shadowingSigmaDb then
      pathLoss.shadowing setting.basis.seed setting.edge.1 setting.edge.2 setting.distanceM
        setting.basis.shadowingSigmaDb
    else 0

/-- The thresholds accept an SNR. -/
def LinkSetting.Accepts (setting : LinkSetting ℝ) (snrDb : ℝ) : Prop :=
  let sinrDb := snrDb - setting.basis.interferenceMarginDb
  setting.thresholds.minSnrDb ≤ snrDb ∧
    (∀ minSinrDb ∈ setting.thresholds.minSinrDb, minSinrDb ≤ sinrDb) ∧
    ∃ capacityMbps ∈ capacityAt setting.basis.spectralEfficiencyFactor setting.basis.bandwidthHz
      sinrDb, setting.thresholds.minCapacityMbps ≤ capacityMbps

/-- Some path loss lets a link pass: its distance is in range, and the thresholds accept some
SNR. -/
def LinkSetting.Passable (setting : LinkSetting ℝ) : Prop :=
  InRange setting.thresholds setting.distanceM ∧ ∃ snrDb, setting.Accepts snrDb

namespace LinkView

/-- What the antennas of both ends gain. -/
def netGainDb (view : LinkView ℝ) : ℝ := view.tx.1 + view.rx.1 - (view.tx.2 + view.rx.2)

/-- The SNR over a path loss. -/
def snrDb (view : LinkView ℝ) (setting : LinkSetting ℝ) (lossDb : ℝ) : ℝ :=
  setting.basis.txPowerDbm - setting.basis.implementationLossDb - setting.noiseDbm - lossDb +
    view.netGainDb

/-- The verdict about a link whose metric has the given age. -/
def Verdict (view : LinkView ℝ) (setting : LinkSetting ℝ) (ageS : ℝ) (pathLoss : PathLoss ℝ) :
    Prop :=
  ∃ family ∈ view.family, view.endpoints.Operational ∧ ageS ≤ view.metricTtlS ∧
    InRange setting.thresholds setting.distanceM ∧
    setting.Accepts (view.snrDb setting (pathLoss.totalDb setting family))

/-- Nothing but the path loss stands between the link and a positive verdict: the model is
implemented, both ends are operational, and a metric of the given age is fresh. -/
def Live (view : LinkView ℝ) (ageS : ℝ) : Prop :=
  view.family.isSome = true ∧ view.endpoints.Operational ∧ ageS ≤ view.metricTtlS

/-- Two views come to the same verdict if no path loss lets the link pass; or else if both are live
or neither is, with the same family and the same net gain if they are. -/
def Matches (view other : LinkView ℝ) (setting : LinkSetting ℝ) (ageS : ℝ) : Prop :=
  setting.Passable → (view.Live ageS ↔ other.Live ageS) ∧
    (view.Live ageS → view.family = other.family ∧ view.netGainDb = other.netGainDb)

theorem Verdict.live {view : LinkView ℝ} {setting : LinkSetting ℝ} {ageS : ℝ}
    {pathLoss : PathLoss ℝ} (h : view.Verdict setting ageS pathLoss) : view.Live ageS := by
  obtain ⟨family, hfamily, hends, hfresh, -, -⟩ := h
  rw [Option.mem_def] at hfamily
  exact ⟨by rw [hfamily]; rfl, hends, hfresh⟩

theorem Verdict.passable {view : LinkView ℝ} {setting : LinkSetting ℝ} {ageS : ℝ}
    {pathLoss : PathLoss ℝ} (h : view.Verdict setting ageS pathLoss) : setting.Passable := by
  obtain ⟨family, -, -, -, hrange, haccepts⟩ := h
  exact ⟨hrange, _, haccepts⟩

theorem Matches.symm {view other : LinkView ℝ} {setting : LinkSetting ℝ} {ageS : ℝ}
    (h : view.Matches other setting ageS) : other.Matches view setting ageS := by
  intro hpassable
  obtain ⟨hlive, hsame⟩ := h hpassable
  refine ⟨hlive.symm, fun hother => ?_⟩
  obtain ⟨hfamily, hgain⟩ := hsame (hlive.mpr hother)
  exact ⟨hfamily.symm, hgain.symm⟩

/-- A positive verdict carries over to a view that matches. -/
theorem Matches.verdict {view other : LinkView ℝ} {setting : LinkSetting ℝ} {ageS : ℝ}
    {pathLoss : PathLoss ℝ} (h : view.Matches other setting ageS)
    (hverdict : view.Verdict setting ageS pathLoss) : other.Verdict setting ageS pathLoss := by
  obtain ⟨hlive, hsame⟩ := h hverdict.passable
  obtain ⟨hfamily, hgain⟩ := hsame hverdict.live
  obtain ⟨-, hends, hfresh⟩ := hlive.mp hverdict.live
  obtain ⟨family, hmem, -, -, hrange, haccepts⟩ := hverdict
  refine ⟨family, hfamily ▸ hmem, hends, hfresh, hrange, ?_⟩
  rwa [snrDb, ← hgain]

/-- The path loss that leaves a given SNR, before the antennas, of each family. -/
def leaving (setting : LinkSetting ℝ) (snrDb : PathLossFamily → ℝ) : PathLoss ℝ where
  loss family _ _ _ _ := setting.basis.txPowerDbm - setting.basis.implementationLossDb -
    setting.noiseDbm - snrDb family
  shadowing _ _ _ _ _ := 0

theorem verdict_leaving_iff {view : LinkView ℝ} {setting : LinkSetting ℝ} {ageS : ℝ}
    {snrDb : PathLossFamily → ℝ} : view.Verdict setting ageS (leaving setting snrDb) ↔
      ∃ family ∈ view.family, view.endpoints.Operational ∧ ageS ≤ view.metricTtlS ∧
        InRange setting.thresholds setting.distanceM ∧
        setting.Accepts (snrDb family + view.netGainDb) := by
  have hsnr (family : PathLossFamily) : view.snrDb setting
      ((leaving setting snrDb).totalDb setting family) = snrDb family + view.netGainDb := by
    rw [LinkView.snrDb, PathLoss.totalDb, leaving]
    dsimp only
    rw [ite_self]
    ring
  simp only [Verdict, hsnr]

/-- A view that is live makes another live if each of its positive verdicts is one of the other. -/
theorem Live.of_verdict {view other : LinkView ℝ} {setting : LinkSetting ℝ} {ageS : ℝ}
    (h : ∀ pathLoss, view.Verdict setting ageS pathLoss → other.Verdict setting ageS pathLoss)
    (hpassable : setting.Passable) (hlive : view.Live ageS) : other.Live ageS := by
  obtain ⟨hrange, snrDb, haccepts⟩ := hpassable
  obtain ⟨hfamily, hends, hfresh⟩ := hlive
  obtain ⟨family, hfamily⟩ := Option.isSome_iff_exists.mp hfamily
  refine (h (leaving setting fun _ => snrDb - view.netGainDb) ?_).live
  refine verdict_leaving_iff.mpr ⟨family, hfamily, hends, hfresh, hrange, ?_⟩
  rwa [sub_add_cancel]

/-- When two views agree. -/
theorem forall_verdict_iff_matches {view other : LinkView ℝ} {setting : LinkSetting ℝ} {ageS : ℝ} :
    (∀ pathLoss, view.Verdict setting ageS pathLoss ↔ other.Verdict setting ageS pathLoss) ↔
      view.Matches other setting ageS := by
  refine ⟨fun h hpassable => ?_, fun h pathLoss => ⟨h.verdict, h.symm.verdict⟩⟩
  have hlive : view.Live ageS ↔ other.Live ageS :=
    ⟨Live.of_verdict (fun p => (h p).mp) hpassable, Live.of_verdict (fun p => (h p).mpr) hpassable⟩
  refine ⟨hlive, fun hview => ?_⟩
  obtain ⟨hrange, snrDb, haccepts⟩ := hpassable
  obtain ⟨hfamily', hends', hfresh'⟩ := hlive.mp hview
  obtain ⟨hfamily, hends, hfresh⟩ := hview
  obtain ⟨family, hfamily⟩ := Option.isSome_iff_exists.mp hfamily
  obtain ⟨family', hfamily'⟩ := Option.isSome_iff_exists.mp hfamily'
  have hleaving (level : PathLossFamily → ℝ) :
      setting.Accepts (level family + view.netGainDb) ↔
        setting.Accepts (level family' + other.netGainDb) := by
    have hiff := h (leaving setting level)
    rw [verdict_leaving_iff, verdict_leaving_iff] at hiff
    simpa [hfamily, hfamily', hends, hfresh, hends', hfresh', hrange] using hiff
  -- two families have losses of their own, so one verdict can be turned without the other
  have hsame : family = family' := by
    by_contra hne
    have hbelow := (hleaving fun f => if f = family then snrDb - view.netGainDb
      else setting.thresholds.minSnrDb - 1 - other.netGainDb).mp (by
        rwa [if_pos rfl, sub_add_cancel])
    rw [if_neg (Ne.symm hne), sub_add_cancel] at hbelow
    have := hbelow.1
    linarith
  subst hsame
  refine ⟨hfamily.trans hfamily'.symm, ?_⟩
  -- the accepted levels are bounded from below, so only a shift by zero maps them to themselves
  exact eq_of_forall_add_mem_iff (s := {x | setting.Accepts x}) ⟨snrDb, haccepts⟩
    ⟨setting.thresholds.minSnrDb, fun x hx => hx.1⟩ fun x => hleaving fun _ => x

end LinkView

/-! ## The verdict of the gate -/

/-- The distance between two positions, as the link computation takes it. -/
def positionDistance (txPosition rxPosition : Json F) : Option F := do
  let tx ← normalizeVec3 txPosition
  let rx ← normalizeVec3 rxPosition
  return PyFloat.max 1e-3 (tx.dist rx)

/-- Read what the previews of an edge between two positions have in common. -/
def LinkSetting.read (config : Dict String (Json F)) (edge : Edge)
    (txPosition rxPosition : Json F) : Option (LinkSetting F) := do
  let basis ← LinkBasis.read config
  return {
    basis
    thresholds := ← previewThresholds config
    edge
    distanceM := ← positionDistance txPosition rxPosition
    noiseDbm := ← thermalNoiseDbm basis.bandwidthHz basis.receiverNoiseFigureDb }

theorem LinkSetting.read_eq_some_iff {config : Dict String (Json F)} {edge : Edge}
    {txPosition rxPosition : Json F} {setting : LinkSetting F} :
    LinkSetting.read config edge txPosition rxPosition = some setting ↔
      LinkBasis.read config = some setting.basis ∧
        previewThresholds config = some setting.thresholds ∧ setting.edge = edge ∧
        positionDistance txPosition rxPosition = some setting.distanceM ∧
        thermalNoiseDbm setting.basis.bandwidthHz setting.basis.receiverNoiseFigureDb =
          some setting.noiseDbm := by
  constructor
  · intro h
    simp only [LinkSetting.read, bind, pure, Option.bind_eq_some_iff, Option.some.injEq] at h
    obtain ⟨basis, hbasis, thresholds, hthresholds, distanceM, hdistance, noiseDbm, hnoise, rfl⟩ :=
      h
    exact ⟨hbasis, hthresholds, rfl, hdistance, hnoise⟩
  · rintro ⟨hbasis, hthresholds, rfl, hdistance, hnoise⟩
    simp only [LinkSetting.read, bind, pure, hbasis, hthresholds, hdistance, hnoise,
      Option.bind_some]

/-- What the link computation needs for a request. -/
theorem computeAnalyticalLink_request {pathLoss : PathLoss F} {basis : LinkBasis F} {model : String}
    {edge : Edge} {tx rx : F × F} {txPosition rxPosition : Json F} {freshId : String}
    {computedAt : F} {metrics : LinkMetrics F}
    (h : computeAnalyticalLink pathLoss.propagation freshId computedAt
      (basis.request model edge tx rx txPosition rxPosition) = some metrics) :
    (pathLossFamily? model basis.pathLossExponent).isSome = true ∧
      (positionDistance txPosition rxPosition).isSome = true ∧
      (thermalNoiseDbm basis.bandwidthHz basis.receiverNoiseFigureDb).isSome = true := by
  obtain ⟨signal, noiseDbm, -, hsignal, hnoise, -⟩ := computeAnalyticalLink_spec h
  simp only [receivedSignal, bind, pure, Option.bind_eq_some_iff] at hsignal
  obtain ⟨distanceM, hdistance, base, hbase, -⟩ := hsignal
  obtain ⟨family, hfamily, -⟩ := Option.map_eq_some_iff.mp hbase
  have hdistance' : positionDistance txPosition rxPosition = some distanceM := hdistance
  have hfamily' : pathLossFamily? model basis.pathLossExponent = some family := hfamily
  have hnoise' : thermalNoiseDbm basis.bandwidthHz basis.receiverNoiseFigureDb = some noiseDbm :=
    hnoise
  rw [hdistance', hfamily', hnoise']
  exact ⟨rfl, rfl, rfl⟩

section

variable [PyText ℝ]

/-- The signal of a request. -/
theorem receivedSignal_request (pathLoss : PathLoss ℝ) {setting : LinkSetting ℝ} (view : LinkView ℝ)
    {model : String} {family : PathLossFamily} {txPosition rxPosition : Json ℝ}
    (hdistance : positionDistance txPosition rxPosition = some setting.distanceM)
    (hfamily : pathLossFamily? model setting.basis.pathLossExponent = some family) :
    ∃ signal, receivedSignal pathLoss.propagation (setting.basis.request model setting.edge view.tx
        view.rx txPosition rxPosition) = some signal ∧ signal.distanceM = setting.distanceM ∧
      signal.rxPowerDbm - setting.noiseDbm =
        view.snrDb setting (pathLoss.totalDb setting family) := by
  have hdistance' : linkDistance (setting.basis.request model setting.edge view.tx view.rx
      txPosition rxPosition) = some setting.distanceM := hdistance
  have hbase : pathLoss.propagation.basePathLoss (setting.basis.request model setting.edge view.tx
      view.rx txPosition rxPosition) setting.distanceM = some (pathLoss.loss family
        setting.distanceM setting.basis.frequencyHz setting.basis.pathLossExponent 1.0, model) := by
    show Option.map _ (pathLossFamily? model setting.basis.pathLossExponent) = _
    rw [hfamily]
    rfl
  refine ⟨_, by rw [receivedSignal, hdistance', Option.bind_eq_bind, Option.bind_some, hbase,
    Option.bind_eq_bind, Option.bind_some]; rfl, rfl, ?_⟩
  have hzero : (0.0 : ℝ) = 0 := by norm_num
  simp only [lossComponents, shadowingDb, LinkBasis.request, PathLoss.propagation, PyFloat.sum_real,
    PyFloat.lt_real, decide_eq_true_eq, List.map_cons, List.map_nil, List.sum_cons, List.sum_nil,
    LinkView.snrDb, LinkView.netGainDb, PathLoss.totalDb, hzero]
  ring

/-- The gate accepts the metrics of a request exactly when the verdict of the view is positive. -/
theorem exists_metrics (pathLoss : PathLoss ℝ) {setting : LinkSetting ℝ} {view : LinkView ℝ}
    {model : String} {family : PathLossFamily} {txPosition rxPosition : Json ℝ}
    (hdistance : positionDistance txPosition rxPosition = some setting.distanceM)
    (hnoise : thermalNoiseDbm setting.basis.bandwidthHz setting.basis.receiverNoiseFigureDb =
      some setting.noiseDbm)
    (hfamily : pathLossFamily? model setting.basis.pathLossExponent = some family)
    (hview : view.family = some family) (freshId : String) (computedAt : ℝ) :
    ∃ metrics, computeAnalyticalLink pathLoss.propagation freshId computedAt
        (setting.basis.request model setting.edge view.tx view.rx txPosition rxPosition) =
          some metrics ∧
      ∀ now, (evaluateFeasibility (some metrics) view.endpoints
          { setting.thresholds with metricTtlS := view.metricTtlS } now).feasible = true ↔
        view.Verdict setting (max 0 (now - computedAt)) pathLoss := by
  obtain ⟨signal, hsignal, hspan, hpower⟩ :=
    receivedSignal_request pathLoss view hdistance hfamily
  have hspeed : (cMps : ℝ) ≠ 0 := by
    rw [cMps]
    norm_num
  have hnoise' : thermalNoiseDbm (setting.basis.request model setting.edge view.tx view.rx
      txPosition rxPosition).bandwidthHz (setting.basis.request model setting.edge view.tx view.rx
        txPosition rxPosition).receiverNoiseFigureDb = some setting.noiseDbm := hnoise
  have hcompute : ∃ metrics, computeAnalyticalLink pathLoss.propagation freshId computedAt
      (setting.basis.request model setting.edge view.tx view.rx txPosition rxPosition) =
        some metrics := by
    simp only [computeAnalyticalLink, bind, pure, hsignal, hnoise', capacityAt_real,
      PyFloat.div_real hspeed, Option.bind_some]
    exact ⟨_, rfl⟩
  obtain ⟨metrics, hmetrics⟩ := hcompute
  refine ⟨metrics, hmetrics, fun now => ?_⟩
  obtain ⟨signal', noiseDbm, sinrDb, hsignal', hnoise'', hmetricSpan, -, hsnr, hsinr, hsinr',
    hcapacity, hstamp⟩ := computeAnalyticalLink_spec hmetrics
  obtain rfl := Option.some.inj (hsignal.symm.trans hsignal')
  obtain rfl := Option.some.inj (hnoise'.symm.trans hnoise'')
  have hmargin : sinrDb = metrics.snrDb - setting.basis.interferenceMarginDb := hsinr'
  rw [hpower] at hsnr
  have hcapacity' : capacityAt setting.basis.spectralEfficiencyFactor setting.basis.bandwidthHz
      (view.snrDb setting (pathLoss.totalDb setting family) -
        setting.basis.interferenceMarginDb) = some metrics.capacityMbps := by
    rw [← hsnr, ← hmargin]
    exact hcapacity
  rw [hspan] at hmetricSpan
  have hzero : (0.0 : ℝ) = 0 := by norm_num
  have hage : metrics.ageS now = max 0 (now - computedAt) := by
    rw [LinkMetrics.ageS, hstamp, PyFloat.max_real, hzero]
  -- with its metrics at hand the gate has seven conditions left
  rw [(gateVerdict (some metrics) view.endpoints _ now).feasible_iff]
  constructor
  · rintro ⟨_, ⟨⟩, hends, hfresh, hhard, hrange, hminSnr, hminSinr, hminCapacity⟩
    simp only [PyFloat.le_real, PyFloat.lt_real, decide_eq_true_eq, hage, hmetricSpan, hsnr, hsinr,
      hmargin, Option.mem_some_iff, forall_eq'] at hfresh hhard hrange hminSnr hminSinr hminCapacity
    exact ⟨family, hview, hends, hfresh, ⟨hhard, hrange⟩, hminSnr, hminSinr, _, hcapacity',
      hminCapacity⟩
  · rintro ⟨family', hfamily', hends, hfresh, ⟨hhard, hrange⟩, hminSnr, hminSinr, capacityMbps,
      hat, hminCapacity⟩
    obtain rfl := Option.some.inj (hview.symm.trans hfamily')
    obtain rfl := Option.some.inj (hcapacity'.symm.trans hat)
    refine ⟨metrics, rfl, hends, ?_, ?_, ?_, ?_, ?_, ?_⟩ <;>
    simp only [PyFloat.le_real, PyFloat.lt_real, decide_eq_true_eq, hage, hmetricSpan, hsnr, hsinr,
      hmargin, Option.mem_some_iff, forall_eq']
    · exact hfresh
    · exact hhard
    · exact hrange
    · exact hminSnr
    · exact hminSinr
    · exact hminCapacity

end

end Netlab
