import Netlab.Preview.Verdicts
import Netlab.Preview.Views

/-!
# What the previews come to

Each of the three previews as it runs over the edges of a validated configuration, in exact
arithmetic and with an abstract path loss. What a preview says about an edge is the verdict of the
view that it reads for it (`TopologyPreview.of_mem_verdicts`, `EditorPreview.of_verdicts`,
`of_shieldVerdicts`), and a preview ends if nothing that it reads raises.
-/

namespace Netlab

open Experiment (mappingOrEmpty)

variable {F : Type} [PyText F] [PyFloat F]

/-! ## What the previews read for an edge -/

/-- The records of the two ends of an edge. -/
structure KnownEnds (config : Dict String (Json F)) (edge : Edge)
    (source destination : Dict String (Json F)) : Prop where
  source : entityRecord config edge.1 = some source
  destination : entityRecord config edge.2 = some destination

omit [PyFloat F] in
/-- The records of the ends are determined by the configuration. -/
theorem KnownEnds.unique {config : Dict String (Json F)} {edge : Edge}
    {source destination source' destination' : Dict String (Json F)}
    (h : KnownEnds config edge source destination)
    (h' : KnownEnds config edge source' destination') :
    source = source' ∧ destination = destination' :=
  ⟨Option.some.inj (h.source.symm.trans h'.source),
    Option.some.inj (h.destination.symm.trans h'.destination)⟩

/-- Read what the previews of an edge between two entities have in common. -/
def LinkSetting.between (config : Dict String (Json F)) (edge : Edge)
    (source destination : Dict String (Json F)) : Option (LinkSetting F) :=
  LinkSetting.read config edge (EditorPreview.position source) (EditorPreview.position destination)

/-- Read the view of a preview with a model, the antennas of the ends, what it knows about the ends,
and for how long a metric is fresh. -/
def LinkView.read (config : Dict String (Json F)) (model : String) (tx rx : Option (F × F))
    (endpoints : LinkEndpoints) (ttl : F → F) : Option (LinkView F) := do
  let basis ← LinkBasis.read config
  let thresholds ← previewThresholds config
  return {
    family := pathLossFamily? model basis.pathLossExponent
    tx := ← tx
    rx := ← rx
    endpoints
    metricTtlS := ttl thresholds.metricTtlS }

/-- The view of the preview next to the checks of the topology. -/
def TopologyPreview.view (definitions : Dict String (Dict String (Json F)))
    (config : Dict String (Json F)) (edge : Edge) : Option (LinkView F) :=
  LinkView.read config (fallbackModel config) (antennaPair (antenna definitions config edge.1))
    (antennaPair (antenna definitions config edge.2)) (endpoints config edge) id

/-- The view of the preview of the link service on an edge between two entities. -/
def EditorPreview.view (definitions : Dict String (Dict String (Json F)))
    (config : Dict String (Json F)) (edge : Edge) (source destination : Dict String (Json F)) :
    Option (LinkView F) :=
  LinkView.read config (previewModel config)
    (antennaPair (antennaOf definitions (antennaId config edge.1 source)))
    (antennaPair (antennaOf definitions (antennaId config edge.2 destination)))
    (endpoints source destination) (PyFloat.max 2.0)

/-- The view of the preview of the safety shield. -/
def shieldView (config : Dict String (Json F)) (edge : Edge) : Option (LinkView F) :=
  LinkView.read config (fallbackModel config) (antennaGain config edge.1)
    (antennaGain config edge.2) (previewEndpoints config (droneTable config) edge.1 edge.2) id

/-- The request with a model and the antennas of the ends. -/
def assembledRequest (config : Dict String (Json F)) (model : String) (edge : Edge)
    (tx rx : Option (F × F)) (txPosition rxPosition : Json F) : Option (LinkRequest F) := do
  let basis ← LinkBasis.read config
  return basis.request model edge (← tx) (← rx) txPosition rxPosition

theorem LinkView.read_eq_some_iff {config : Dict String (Json F)} {model : String}
    {tx rx : Option (F × F)} {endpoints : LinkEndpoints} {ttl : F → F} {view : LinkView F}
    {basis : LinkBasis F} {thresholds : GateThresholds F}
    (hbasis : LinkBasis.read config = some basis)
    (hthresholds : previewThresholds config = some thresholds) :
    LinkView.read config model tx rx endpoints ttl = some view ↔
      tx = some view.tx ∧ rx = some view.rx ∧
        view.family = pathLossFamily? model basis.pathLossExponent ∧
        view.endpoints = endpoints ∧ view.metricTtlS = ttl thresholds.metricTtlS := by
  simp only [LinkView.read, bind, pure, hbasis, hthresholds, Option.bind_some,
    Option.bind_eq_some_iff, Option.some.injEq]
  constructor
  · rintro ⟨t, htx, r, hrx, rfl⟩
    exact ⟨htx, hrx, rfl, rfl, rfl⟩
  · rintro ⟨htx, hrx, hfamily, rfl, httl⟩
    exact ⟨_, htx, _, hrx, by rw [← hfamily, ← httl]⟩

theorem assembledRequest_eq_some_iff {config : Dict String (Json F)} {model : String} {edge : Edge}
    {tx rx : Option (F × F)} {txPosition rxPosition : Json F} {request : LinkRequest F} :
    assembledRequest config model edge tx rx txPosition rxPosition = some request ↔
      ∃ basis t r, LinkBasis.read config = some basis ∧ tx = some t ∧ rx = some r ∧
        request = basis.request model edge t r txPosition rxPosition := by
  simp only [assembledRequest, bind, pure, Option.bind_eq_some_iff, Option.some.injEq]
  constructor
  · rintro ⟨basis, hbasis, t, ht, r, hr, rfl⟩
    exact ⟨basis, t, r, hbasis, ht, hr, rfl⟩
  · rintro ⟨basis, t, r, hbasis, ht, hr, rfl⟩
    exact ⟨basis, hbasis, t, ht, r, hr, rfl⟩

/-- Each of the previews assembles its requests. -/
theorem TopologyPreview.request_eq {definitions : Dict String (Dict String (Json F))}
    {config experiment : Dict String (Json F)} (edge : Edge) (txPosition rxPosition : Json F)
    (hexperiment : Experiment.section? config "experiment" = some experiment) :
    TopologyPreview.request definitions config edge txPosition rxPosition =
      assembledRequest config (fallbackModel config) edge
        (antennaPair (antenna definitions config edge.1))
        (antennaPair (antenna definitions config edge.2)) txPosition rxPosition :=
  Option.ext fun _ => by
    rw [request_eq_some_iff hexperiment, assembledRequest_eq_some_iff]

theorem EditorPreview.request_eq (definitions : Dict String (Dict String (Json F)))
    (config : Dict String (Json F)) (edge : Edge) (source destination : Dict String (Json F)) :
    EditorPreview.request definitions config edge source destination =
      assembledRequest config (previewModel config) edge
        (antennaPair (antennaOf definitions (antennaId config edge.1 source)))
        (antennaPair (antennaOf definitions (antennaId config edge.2 destination)))
        (position source) (position destination) :=
  Option.ext fun _ => by
    rw [request_eq_some_iff, assembledRequest_eq_some_iff]

theorem previewRequest_eq (config : Dict String (Json F)) (edge : Edge)
    (txPosition rxPosition : Json F) :
    previewRequest config edge.1 edge.2 txPosition rxPosition =
      assembledRequest config (fallbackModel config) edge (antennaGain config edge.1)
        (antennaGain config edge.2) txPosition rxPosition :=
  Option.ext fun _ => by
    rw [previewRequest_eq_some_iff, assembledRequest_eq_some_iff]

/-! ## Verdicts -/

/-- The verdicts of the preview next to the checks of the topology. -/
def TopologyPreview.verdicts (propagation : Propagation F) (stamps : ℕ → LinkStamp F)
    (config : Dict String (Json F)) : Option (List (Edge × Bool)) := do
  let (previews, _) ← linkPreview propagation stamps config
  return previews.map fun preview => ((preview.src, preview.dst), preview.feasible)

/-- The verdicts of the preview of the link service. -/
def EditorPreview.verdicts (propagation : Propagation F) (stamps : ℕ → LinkStamp F)
    (config : Dict String (Json F)) : Option (List (Edge × Bool)) := do
  let records ← records propagation stamps config
  return records.map fun record => (record.edge, record.feasible)

/-- The verdicts of the preview of the safety shield, at the positions of the configuration. -/
def shieldVerdicts (propagation : Propagation F) (stamps : ℕ → LinkStamp F)
    (config : Dict String (Json F)) : Option (List (Edge × Bool)) := do
  let planned ← plannedPositions config
  let (previews, _) ← connectivityPreview propagation stamps planned config (droneTable config)
  return previews.map fun preview => ((preview.src, preview.dst), preview.feasible)

/-- The edges of the topology, as `validate_topology` takes them. -/
def TopologyPreview.configEdges (config : Dict String (Json F)) : List Edge :=
  edgesOf ((relayCount config).getD 0) (source config) (mappingOrEmpty config "topology")

/-- The metrics are all of one age when they are decided on. -/
def Aged (ageS : ℝ) (stamps : ℕ → LinkStamp ℝ) : Prop :=
  ∀ i, max 0 ((stamps i).decidedAt - (stamps i).computedAt) = ageS

section

variable [PyText ℝ]

/-- The gate decides on an assembled request as the view says. -/
theorem decide_assembledRequest {config : Dict String (Json ℝ)} {model : String} {edge : Edge}
    {tx rx : Option (ℝ × ℝ)} {txPosition rxPosition : Json ℝ} {request : LinkRequest ℝ}
    {pathLoss : PathLoss ℝ} {stamp : LinkStamp ℝ} {metrics : LinkMetrics ℝ}
    {thresholds : GateThresholds ℝ} (endpoints : LinkEndpoints) (ttl : ℝ → ℝ)
    (hrequest : assembledRequest config model edge tx rx txPosition rxPosition = some request)
    (hmetrics : computeAnalyticalLink pathLoss.propagation stamp.freshId stamp.computedAt request =
      some metrics)
    (hthresholds : previewThresholds config = some thresholds) :
    ∃ setting view, LinkSetting.read config edge txPosition rxPosition = some setting ∧
      LinkView.read config model tx rx endpoints ttl = some view ∧ view.family.isSome = true ∧
      ((evaluateFeasibility (some metrics) endpoints
          { thresholds with metricTtlS := ttl thresholds.metricTtlS } stamp.decidedAt).feasible =
            true ↔
        view.Verdict setting (max 0 (stamp.decidedAt - stamp.computedAt)) pathLoss) := by
  -- that the metrics exist says that everything they are computed from could be read
  obtain ⟨basis, t, r, hbasis, htx, hrx, rfl⟩ := assembledRequest_eq_some_iff.mp hrequest
  obtain ⟨hfamily, hdistance, hnoise⟩ := computeAnalyticalLink_request hmetrics
  obtain ⟨distanceM, hdistance⟩ := Option.isSome_iff_exists.mp hdistance
  obtain ⟨noiseDbm, hnoise⟩ := Option.isSome_iff_exists.mp hnoise
  obtain ⟨family, hfamily⟩ := Option.isSome_iff_exists.mp hfamily
  let setting : LinkSetting ℝ := ⟨basis, thresholds, edge, distanceM, noiseDbm⟩
  let view : LinkView ℝ := ⟨some family, t, r, endpoints, ttl thresholds.metricTtlS⟩
  refine ⟨setting, view,
    LinkSetting.read_eq_some_iff.mpr ⟨hbasis, hthresholds, rfl, hdistance, hnoise⟩,
    (LinkView.read_eq_some_iff hbasis hthresholds).mpr ⟨htx, hrx, hfamily.symm, rfl, rfl⟩, rfl, ?_⟩
  obtain ⟨metrics', hmetrics', hdecide⟩ := @exists_metrics _ pathLoss setting view _ _ _ _ hdistance
    hnoise hfamily rfl stamp.freshId stamp.computedAt
  -- the link computation is a function, so these are the metrics at hand
  obtain rfl := Option.some.inj (hmetrics.symm.trans hmetrics')
  exact hdecide stamp.decidedAt

/-- The link computation succeeds on what can be read, for a model that is implemented. -/
theorem exists_assembledRequest {config : Dict String (Json ℝ)} {model : String} {edge : Edge}
    {tx rx : Option (ℝ × ℝ)} {txPosition rxPosition : Json ℝ} {endpoints : LinkEndpoints}
    {ttl : ℝ → ℝ} {setting : LinkSetting ℝ} {view : LinkView ℝ}
    (hsetting : LinkSetting.read config edge txPosition rxPosition = some setting)
    (hview : LinkView.read config model tx rx endpoints ttl = some view)
    (hfamily : view.family.isSome = true) (pathLoss : PathLoss ℝ) (freshId : String)
    (computedAt : ℝ) :
    ∃ request metrics,
      assembledRequest config model edge tx rx txPosition rxPosition = some request ∧
        computeAnalyticalLink pathLoss.propagation freshId computedAt request = some metrics := by
  obtain ⟨hbasis, hthresholds, rfl, hdistance, hnoise⟩ := LinkSetting.read_eq_some_iff.mp hsetting
  obtain ⟨htx, hrx, hmodel, rfl, -⟩ := (LinkView.read_eq_some_iff hbasis hthresholds).mp hview
  obtain ⟨family, hfamily⟩ := Option.isSome_iff_exists.mp hfamily
  obtain ⟨metrics, hmetrics, -⟩ := exists_metrics pathLoss hdistance hnoise
    (hmodel.symm.trans hfamily) hfamily freshId computedAt
  exact ⟨_, metrics, assembledRequest_eq_some_iff.mpr ⟨_, _, _, hbasis, htx, hrx, rfl⟩, hmetrics⟩

/-! ## One edge -/

/-- What the preview next to the checks of the topology says about an edge. -/
theorem TopologyPreview.previewLink_spec {definitions : Dict String (Dict String (Json ℝ))}
    {config experiment : Dict String (Json ℝ)} {edge : Edge} {txPosition rxPosition : Json ℝ}
    {pathLoss : PathLoss ℝ} {stamp : LinkStamp ℝ} {preview : LinkPreview ℝ}
    (hexperiment : Experiment.section? config "experiment" = some experiment)
    (h : previewLink pathLoss.propagation stamp definitions config edge txPosition rxPosition =
      some preview) :
    ∃ setting view, LinkSetting.read config edge txPosition rxPosition = some setting ∧
      TopologyPreview.view definitions config edge = some view ∧ view.family.isSome = true ∧
      (preview.src, preview.dst) = edge ∧
      (preview.feasible = true ↔
        view.Verdict setting (max 0 (stamp.decidedAt - stamp.computedAt)) pathLoss) := by
  rw [previewLink, request_eq edge txPosition rxPosition hexperiment] at h
  obtain ⟨request, hrequest, h⟩ := Option.bind_eq_some_iff.mp h
  obtain ⟨metrics, hmetrics, h⟩ := Option.bind_eq_some_iff.mp h
  obtain ⟨thresholds, hthresholds, h⟩ := Option.bind_eq_some_iff.mp h
  obtain rfl := Option.some.inj h
  obtain ⟨setting, view, hsetting, hview, hfamily, hdecide⟩ := decide_assembledRequest
    (endpoints config edge) id hrequest hmetrics hthresholds
  exact ⟨setting, view, hsetting, hview, hfamily, rfl, hdecide⟩

theorem TopologyPreview.exists_previewLink {definitions : Dict String (Dict String (Json ℝ))}
    {config experiment : Dict String (Json ℝ)} {edge : Edge} {txPosition rxPosition : Json ℝ}
    {setting : LinkSetting ℝ} {view : LinkView ℝ}
    (hexperiment : Experiment.section? config "experiment" = some experiment)
    (hsetting : LinkSetting.read config edge txPosition rxPosition = some setting)
    (hview : TopologyPreview.view definitions config edge = some view)
    (hfamily : view.family.isSome = true) (pathLoss : PathLoss ℝ) (stamp : LinkStamp ℝ) :
    ∃ preview, previewLink pathLoss.propagation stamp definitions config edge txPosition
      rxPosition = some preview := by
  obtain ⟨request, metrics, hrequest, hmetrics⟩ := exists_assembledRequest hsetting hview hfamily
    pathLoss stamp.freshId stamp.computedAt
  obtain ⟨-, hthresholds, -⟩ := LinkSetting.read_eq_some_iff.mp hsetting
  rw [previewLink, request_eq edge txPosition rxPosition hexperiment, hrequest]
  simp only [bind, pure, Option.bind_some, hmetrics, hthresholds]
  exact ⟨_, rfl⟩

/-- What the preview of the safety shield says about an edge between two positions. -/
theorem previewEdge_spec {positions : Dict String (Vec3 ℝ)} {config : Dict String (Json ℝ)}
    {edge : Edge} {txPosition rxPosition : Json ℝ} {pathLoss : PathLoss ℝ} {stamp : LinkStamp ℝ}
    {preview : LinkPreview ℝ}
    (htx : (entityPositions positions config).get? edge.1 = some txPosition)
    (hrx : (entityPositions positions config).get? edge.2 = some rxPosition)
    (h : previewEdge pathLoss.propagation stamp positions config (droneTable config) edge.1 edge.2 =
      some preview) :
    ∃ setting view, LinkSetting.read config edge txPosition rxPosition = some setting ∧
      shieldView config edge = some view ∧ view.family.isSome = true ∧
      (preview.src, preview.dst) = edge ∧
      (preview.feasible = true ↔
        view.Verdict setting (max 0 (stamp.decidedAt - stamp.computedAt)) pathLoss) := by
  simp only [previewEdge, htx, hrx, previewRequest_eq config edge] at h
  obtain ⟨request, hrequest, h⟩ := Option.bind_eq_some_iff.mp h
  obtain ⟨metrics, hmetrics, h⟩ := Option.bind_eq_some_iff.mp h
  obtain ⟨thresholds, hthresholds, h⟩ := Option.bind_eq_some_iff.mp h
  obtain rfl := Option.some.inj h
  obtain ⟨setting, view, hsetting, hview, hfamily, hdecide⟩ := decide_assembledRequest
    (previewEndpoints config (droneTable config) edge.1 edge.2) id hrequest hmetrics hthresholds
  exact ⟨setting, view, hsetting, hview, hfamily, rfl, hdecide⟩

theorem exists_previewEdge {positions : Dict String (Vec3 ℝ)} {config : Dict String (Json ℝ)}
    {edge : Edge} {txPosition rxPosition : Json ℝ} {setting : LinkSetting ℝ} {view : LinkView ℝ}
    (htx : (entityPositions positions config).get? edge.1 = some txPosition)
    (hrx : (entityPositions positions config).get? edge.2 = some rxPosition)
    (hsetting : LinkSetting.read config edge txPosition rxPosition = some setting)
    (hview : shieldView config edge = some view) (hfamily : view.family.isSome = true)
    (pathLoss : PathLoss ℝ) (stamp : LinkStamp ℝ) :
    ∃ preview, previewEdge pathLoss.propagation stamp positions config (droneTable config) edge.1
      edge.2 = some preview := by
  obtain ⟨request, metrics, hrequest, hmetrics⟩ := exists_assembledRequest hsetting hview hfamily
    pathLoss stamp.freshId stamp.computedAt
  obtain ⟨-, hthresholds, -⟩ := LinkSetting.read_eq_some_iff.mp hsetting
  simp only [previewEdge, htx, hrx, previewRequest_eq config edge, hrequest, bind, pure,
    Option.bind_some, hmetrics, hthresholds]
  exact ⟨_, rfl⟩

/-- What the preview of the link service says about an edge between two entities. A request that
cannot be evaluated counts as a negative verdict. -/
theorem EditorPreview.record_spec {definitions entities : Dict String (Dict String (Json ℝ))}
    {config source destination : Dict String (Json ℝ)} {edge : Edge} {pathLoss : PathLoss ℝ}
    {stamp : LinkStamp ℝ} {setting : LinkSetting ℝ} {record : Record ℝ}
    (hsource : entities.get? edge.1 = some source)
    (hdestination : entities.get? edge.2 = some destination)
    (hsetting : LinkSetting.read config edge (position source) (position destination) =
      some setting)
    (h : EditorPreview.record pathLoss.propagation stamp definitions entities config edge =
      some record) :
    ∃ view, EditorPreview.view definitions config edge source destination = some view ∧
      record.edge = edge ∧
      (record.feasible = true ↔
        view.Verdict setting (max 0 (stamp.decidedAt - stamp.computedAt)) pathLoss) := by
  obtain ⟨hbasis, hthresholds, -, hdistance, hnoise⟩ := LinkSetting.read_eq_some_iff.mp hsetting
  simp only [EditorPreview.record, hsource, hdestination, request_eq] at h
  obtain ⟨request, hrequest, h⟩ := Option.bind_eq_some_iff.mp h
  cases hmetrics : computeAnalyticalLink pathLoss.propagation stamp.freshId stamp.computedAt request
    with
  | some metrics =>
      obtain ⟨setting', view, hsetting', hview, -, hdecide⟩ := decide_assembledRequest
        (endpoints source destination) (PyFloat.max 2.0) hrequest hmetrics hthresholds
      obtain rfl := Option.some.inj (hsetting.symm.trans hsetting')
      have hthresholds' : EditorPreview.thresholds config = some { setting.thresholds with
          metricTtlS := PyFloat.max 2.0 setting.thresholds.metricTtlS } := by
        simp only [EditorPreview.thresholds, bind, pure, hthresholds, Option.bind_some]
      simp only [EditorPreview.decide, hmetrics, hthresholds', bind, pure, Option.bind_some,
        Option.some.injEq] at h
      subst h
      exact ⟨view, hview, rfl, hdecide⟩
  | none =>
      -- the route answers with a negative verdict in place of the exception
      obtain ⟨basis, t, r, hbasis', htx, hrx, rfl⟩ := assembledRequest_eq_some_iff.mp hrequest
      obtain rfl := Option.some.inj (hbasis.symm.trans hbasis')
      simp only [EditorPreview.decide, hmetrics, bind, pure, Option.bind_none,
        Option.some.injEq] at h
      subst h
      let view : LinkView ℝ := ⟨pathLossFamily? (previewModel config)
        setting.basis.pathLossExponent, t, r, endpoints source destination,
        PyFloat.max 2.0 setting.thresholds.metricTtlS⟩
      refine ⟨view, (LinkView.read_eq_some_iff hbasis hthresholds).mpr ⟨htx, hrx, rfl, rfl, rfl⟩,
        rfl, by simp [Record.feasible], fun hverdict => ?_⟩
      -- with a family the request would have been evaluated
      obtain ⟨family, hfamily, -⟩ := hverdict
      obtain ⟨metrics, hmetrics', -⟩ := @exists_metrics _ pathLoss setting view _ _ _ _ hdistance
        hnoise hfamily hfamily stamp.freshId stamp.computedAt
      obtain ⟨-, -, hedge, -⟩ := LinkSetting.read_eq_some_iff.mp hsetting
      rw [hedge] at hmetrics'
      exact absurd (hmetrics.symm.trans hmetrics') (by simp)

theorem EditorPreview.exists_record {definitions entities : Dict String (Dict String (Json ℝ))}
    {config source destination : Dict String (Json ℝ)} {edge : Edge} {view : LinkView ℝ}
    (hsource : entities.get? edge.1 = some source)
    (hdestination : entities.get? edge.2 = some destination)
    (hview : EditorPreview.view definitions config edge source destination = some view)
    (propagation : Propagation ℝ) (stamp : LinkStamp ℝ) :
    ∃ record, EditorPreview.record propagation stamp definitions entities config edge =
      some record := by
  obtain ⟨basis, hbasis, hview⟩ := Option.bind_eq_some_iff.mp hview
  obtain ⟨thresholds, -, hview⟩ := Option.bind_eq_some_iff.mp hview
  obtain ⟨t, htx, hview⟩ := Option.bind_eq_some_iff.mp hview
  obtain ⟨r, hrx, -⟩ := Option.bind_eq_some_iff.mp hview
  simp only [EditorPreview.record, hsource, hdestination, request_eq,
    assembledRequest_eq_some_iff.mpr ⟨basis, t, r, hbasis, htx, hrx, rfl⟩, Option.bind_eq_bind,
    Option.bind_some]
  split <;> exact ⟨_, rfl⟩

/-! ## All edges -/

/-- Where the previews next to the checks of the topology come from. -/
theorem TopologyPreview.mem_previewLinks {propagation : Propagation ℝ} {stamps : ℕ → LinkStamp ℝ}
    {definitions : Dict String (Dict String (Json ℝ))} {config : Dict String (Json ℝ)}
    {preview : LinkPreview ℝ} {l : List (Edge × ℕ)}
    (h : preview ∈ (previewLinks propagation stamps definitions config l).1) :
    ∃ e ∈ l, ∃ txPosition rxPosition, (positions config).get? e.1.1 = some txPosition ∧
      (positions config).get? e.1.2 = some rxPosition ∧
      previewLink propagation (stamps e.2) definitions config e.1 txPosition rxPosition =
        some preview := by
  induction l with
  | nil => simp [previewLinks] at h
  | cons e rest ih =>
      obtain ⟨edge, i⟩ := e
      have hrest (h : preview ∈ (previewLinks propagation stamps definitions config rest).1) :
          ∃ e ∈ (edge, i) :: rest, ∃ txPosition rxPosition,
            (positions config).get? e.1.1 = some txPosition ∧
            (positions config).get? e.1.2 = some rxPosition ∧
            previewLink propagation (stamps e.2) definitions config e.1 txPosition rxPosition =
              some preview := by
        obtain ⟨e, he, hpreview⟩ := ih h
        exact ⟨e, List.mem_cons_of_mem _ he, hpreview⟩
      rw [previewLinks] at h
      split at h
      · rename_i txPosition rxPosition htx hrx
        split at h
        · rename_i first hfirst
          rcases List.mem_cons.mp h with rfl | h
          · exact ⟨(edge, i), List.mem_cons_self, txPosition, rxPosition, htx, hrx, hfirst⟩
          · exact hrest h
        · -- this edge raised: the loop is over and nothing is left of its previews
          simp at h
      · -- one of the ends has no position, and the edge is passed over
        exact hrest h

/-- Unless one of the previews raises, every edge between two positions is previewed. -/
theorem TopologyPreview.exists_mem_previewLinks {propagation : Propagation ℝ}
    {stamps : ℕ → LinkStamp ℝ} {definitions : Dict String (Dict String (Json ℝ))}
    {config : Dict String (Json ℝ)} {l : List (Edge × ℕ)}
    (h : ∀ e ∈ l, ∃ txPosition rxPosition preview, (positions config).get? e.1.1 = some txPosition ∧
      (positions config).get? e.1.2 = some rxPosition ∧
      previewLink propagation (stamps e.2) definitions config e.1 txPosition rxPosition =
        some preview) :
    ∀ e ∈ l, ∃ preview ∈ (previewLinks propagation stamps definitions config l).1,
      ∃ txPosition rxPosition,
        previewLink propagation (stamps e.2) definitions config e.1 txPosition rxPosition =
          some preview := by
  induction l with
  | nil => simp
  | cons e rest ih =>
      obtain ⟨⟨txPosition, rxPosition, preview, htx, hrx, hpreview⟩, hrest⟩ :=
        List.forall_mem_cons.mp h
      obtain ⟨edge, i⟩ := e
      -- neither of the ways in which the loop leaves an edge out applies
      have hstep : (previewLinks propagation stamps definitions config ((edge, i) :: rest)).1 =
          preview :: (previewLinks propagation stamps definitions config rest).1 := by
        simp only [previewLinks, htx, hrx, hpreview]
      rw [hstep]
      refine List.forall_mem_cons.mpr ⟨⟨preview, List.mem_cons_self, txPosition, rxPosition,
        hpreview⟩, fun e he => ?_⟩
      obtain ⟨other, hother, hlink⟩ := ih hrest e he
      exact ⟨other, List.mem_cons_of_mem _ hother, hlink⟩

omit [PyText ℝ] in
/-- The position of a record that has a sequence for one. -/
theorem EditorPreview.position_of_isSequence {record : Dict String (Json ℝ)}
    (h : (record.getD "position" .null).isSequence = true) :
    record.getD "position" .null = position record := by
  rw [EditorPreview.position, Dict.getD, Dict.getD]
  rw [Dict.getD] at h
  cases hget : record.get? "position" with
  | none => simp [hget, Json.isSequence] at h
  | some value => rfl

/-- What is read for an edge depends on the coordinates of the positions only. -/
theorem LinkSetting.read_congr {config : Dict String (Json ℝ)} {edge : Edge}
    {txPosition rxPosition txPosition' rxPosition' : Json ℝ}
    (htx : normalizeVec3 txPosition = normalizeVec3 txPosition')
    (hrx : normalizeVec3 rxPosition = normalizeVec3 rxPosition') :
    LinkSetting.read config edge txPosition rxPosition =
      LinkSetting.read config edge txPosition' rxPosition' := by
  rw [LinkSetting.read, LinkSetting.read, positionDistance, positionDistance, htx, hrx]

/-- What the verdicts of the preview next to the checks of the topology say. -/
theorem TopologyPreview.of_mem_verdicts {config : Dict String (Json ℝ)}
    {definitions : Dict String (Dict String (Json ℝ))} {pathLoss : PathLoss ℝ}
    {stamps : ℕ → LinkStamp ℝ} {ageS : ℝ} {list : List (Edge × Bool)} {edge : Edge}
    {feasible : Bool} (hpreviewable : Previewable config)
    (hdefinitions : definitionsById config = some definitions) (hstamps : Aged ageS stamps)
    (h : TopologyPreview.verdicts pathLoss.propagation stamps config = some list)
    (hmem : (edge, feasible) ∈ list) :
    ∃ source destination setting view, KnownEnds config edge source destination ∧
      (source.getD "position" .null).isSequence = true ∧
      (destination.getD "position" .null).isSequence = true ∧
      LinkSetting.between config edge source destination = some setting ∧
      TopologyPreview.view definitions config edge = some view ∧ view.family.isSome = true ∧
      (feasible = true ↔ view.Verdict setting ageS pathLoss) := by
  obtain ⟨experiment, hexperiment⟩ := hpreviewable.experiment
  obtain ⟨⟨previews, unavailable⟩, hpreviews, h⟩ := Option.bind_eq_some_iff.mp h
  obtain rfl := Option.some.inj h
  obtain ⟨preview, hpreview, heq⟩ := List.mem_map.mp hmem
  simp only [linkPreview, bind, pure, hdefinitions, Option.bind_eq_some_iff, Option.some.injEq]
    at hpreviews
  obtain ⟨edges, -, hpreviews⟩ := hpreviews
  obtain rfl := congrArg Prod.fst hpreviews
  obtain ⟨⟨edge', i⟩, -, txPosition, rxPosition, htx, hrx, hlink⟩ := mem_previewLinks hpreview
  obtain ⟨setting, view, hsetting, hview, hfamily, hedge, hverdict⟩ :=
    previewLink_spec hexperiment hlink
  obtain ⟨hedge', rfl⟩ := Prod.mk.inj heq
  obtain rfl : edge' = edge := hedge.symm.trans hedge'
  -- only a sequence makes it into the table of positions
  rw [hpreviewable.get?_positions, Option.bind_eq_some_iff] at htx hrx
  obtain ⟨source, hsource, htx⟩ := htx
  obtain ⟨destination, hdestination, hrx⟩ := hrx
  obtain ⟨hsourceSequence, htx⟩ := Option.ite_none_right_eq_some.mp htx
  obtain ⟨hdestinationSequence, hrx⟩ := Option.ite_none_right_eq_some.mp hrx
  rw [EditorPreview.position_of_isSequence hsourceSequence, Option.some.injEq] at htx
  rw [EditorPreview.position_of_isSequence hdestinationSequence, Option.some.injEq] at hrx
  subst htx hrx
  rw [hstamps i] at hverdict
  exact ⟨source, destination, setting, view, ⟨hsource, hdestination⟩, hsourceSequence,
    hdestinationSequence, hsetting, hview, hfamily, hverdict⟩

/-- A preview of the safety shield is about its edge. -/
theorem previewEdge_edge {propagation : Propagation ℝ} {stamp : LinkStamp ℝ}
    {positions : Dict String (Vec3 ℝ)} {config : Dict String (Json ℝ)}
    {uavs : Dict String (Dict String (Json ℝ))} {edge : Edge} {preview : LinkPreview ℝ}
    (h : previewEdge propagation stamp positions config uavs edge.1 edge.2 = some preview) :
    (preview.src, preview.dst) = edge := by
  rw [previewEdge] at h
  split at h
  · obtain ⟨request, -, h⟩ := Option.bind_eq_some_iff.mp h
    obtain ⟨metrics, -, h⟩ := Option.bind_eq_some_iff.mp h
    obtain ⟨thresholds, -, h⟩ := Option.bind_eq_some_iff.mp h
    obtain rfl := Option.some.inj h
    rfl
  · obtain rfl := Option.some.inj h
    rfl

theorem EditorPreview.record_edge {propagation : Propagation ℝ} {stamp : LinkStamp ℝ}
    {definitions entities : Dict String (Dict String (Json ℝ))} {config : Dict String (Json ℝ)}
    {edge : Edge} {record : Record ℝ}
    (h : EditorPreview.record propagation stamp definitions entities config edge = some record) :
    record.edge = edge := by
  rw [EditorPreview.record] at h
  split at h
  · obtain ⟨request, -, h⟩ := Option.bind_eq_some_iff.mp h
    split at h <;> obtain rfl := Option.some.inj h <;> rfl
  · obtain rfl := Option.some.inj h
    rfl

/-- The positions at which the safety shield looks at the entities of a validated configuration. -/
theorem Previewable.located {config : Dict String (Json ℝ)} (h : Previewable config) :
    ∃ planned, Netlab.plannedPositions config = some planned ∧
      (∀ id record, entityRecord config id = some record → ∃ position,
        (entityPositions planned config).get? id = some position ∧
          normalizeVec3 position = normalizeVec3 (EditorPreview.position record)) ∧
      ∀ id, entityRecord config id = none → (entityPositions planned config).get? id = none := by
  obtain ⟨planned, hplanned, hget⟩ := h.plannedPositions
  -- a drone of a validated configuration has a position of three numbers, so the plan covers it
  have hlocated := get?_entityPositions hget
    fun id record hrecord => (h.position_eq (mem_drones_of_get? hrecord)).2.2
  refine ⟨planned, hplanned, fun id record hrecord => ?_, fun id hrecord => ?_⟩
  · have hid := hlocated id
    rwa [hrecord] at hid
  · have hid := hlocated id
    rwa [hrecord] at hid

omit [PyText ℝ] in
/-- The verdicts of a loop over edges that names each result after its edge. -/
theorem verdicts_of_mapM {β : Type} {f : Edge × ℕ → Option β} {edges : List Edge} {rows : List β}
    (name : β → Edge) (feasible : β → Bool) (hrows : edges.zipIdx.mapM f = some rows)
    (hname : ∀ edge i row, f (edge, i) = some row → name row = edge) :
    (∀ e ∈ rows.map fun row => (name row, feasible row), e.1 ∈ edges) ∧
      ∀ edge ∈ edges,
        (∃ i row, f (edge, i) = some row ∧
          (edge, feasible row) ∈ rows.map fun row => (name row, feasible row)) ∧
        ∀ b, (edge, b) ∈ (rows.map fun row => (name row, feasible row)) →
          ∃ i row, f (edge, i) = some row ∧ feasible row = b := by
  refine ⟨fun e he => ?_, fun edge hedge => ⟨?_, fun b hb => ?_⟩⟩
  · obtain ⟨row, hrow, rfl⟩ := List.mem_map.mp he
    obtain ⟨⟨edge, i⟩, hmem, hrow⟩ := (List.mem_mapM_iff hrows).mp hrow
    rw [hname edge i row hrow]
    exact List.fst_mem_of_mem_zipIdx hmem
  · -- the row at the index of the edge
    obtain ⟨i, hi, rfl⟩ := List.mem_iff_getElem.mp hedge
    have hmem : (edges[i], i) ∈ edges.zipIdx := List.mem_zipIdx_iff_getElem?.mpr (by simp [hi])
    obtain ⟨row, hrow⟩ := List.exists_mapM_eq_some_iff.mp ⟨_, hrows⟩ _ hmem
    refine ⟨i, row, hrow, List.mem_map.mpr
      ⟨row, (List.mem_mapM_iff hrows).mpr ⟨_, hmem, hrow⟩, ?_⟩⟩
    rw [hname _ i row hrow]
  · obtain ⟨row, hrow, heq⟩ := List.mem_map.mp hb
    obtain ⟨rfl, rfl⟩ := Prod.mk.inj heq
    obtain ⟨⟨edge, i⟩, -, hrow⟩ := (List.mem_mapM_iff hrows).mp hrow
    exact ⟨i, row, (hname edge i row hrow).symm ▸ hrow, rfl⟩

/-- What the verdicts of the preview of the safety shield say. -/
theorem of_shieldVerdicts {config : Dict String (Json ℝ)} {pathLoss : PathLoss ℝ}
    {stamps : ℕ → LinkStamp ℝ} {ageS : ℝ} {list : List (Edge × Bool)}
    (hpreviewable : Previewable config) (hstamps : Aged ageS stamps)
    (h : shieldVerdicts pathLoss.propagation stamps config = some list) :
    ∃ edges, topologyEdges (mappingOrEmpty config "topology") = some edges ∧
      (∀ e ∈ list, e.1 ∈ edges) ∧
      ∀ edge ∈ edges, ∀ source destination, KnownEnds config edge source destination →
        ∃ setting view, LinkSetting.between config edge source destination = some setting ∧
          shieldView config edge = some view ∧ view.family.isSome = true ∧
          (∃ feasible, (edge, feasible) ∈ list) ∧
          ∀ feasible, (edge, feasible) ∈ list →
            (feasible = true ↔ view.Verdict setting ageS pathLoss) := by
  obtain ⟨planned, hplanned, hlocated, -⟩ := hpreviewable.located
  rw [shieldVerdicts, hplanned, Option.bind_eq_bind, Option.bind_some] at h
  obtain ⟨⟨previews, _⟩, hpreviews, h⟩ := Option.bind_eq_some_iff.mp h
  obtain rfl := Option.some.inj h
  obtain ⟨edges, hedges, hpreviews⟩ := Option.bind_eq_some_iff.mp hpreviews
  obtain ⟨results, hresults, hpreviews⟩ := Option.bind_eq_some_iff.mp hpreviews
  obtain ⟨rfl, -⟩ := Prod.mk.inj (Option.some.inj hpreviews)
  obtain ⟨hlisted, hverdicts⟩ := verdicts_of_mapM (fun preview => (preview.src, preview.dst))
    LinkPreview.feasible hresults fun _ _ _ hpreview => previewEdge_edge hpreview
  refine ⟨edges, hedges, hlisted, fun edge hedge source destination hknown => ?_⟩
  obtain ⟨txPosition, htx, htx'⟩ := hlocated _ _ hknown.source
  obtain ⟨rxPosition, hrx, hrx'⟩ := hlocated _ _ hknown.destination
  have hspec (i : ℕ) {preview : LinkPreview ℝ} := @previewEdge_spec _ planned config edge
    txPosition rxPosition pathLoss (stamps i) preview htx hrx
  -- the plan holds the coordinates, and the records hold what they were read from
  have hread : LinkSetting.read config edge txPosition rxPosition =
      LinkSetting.between config edge source destination := LinkSetting.read_congr htx' hrx'
  obtain ⟨⟨i, preview, hpreview, hmem⟩, hall⟩ := hverdicts edge hedge
  obtain ⟨setting, view, hsetting, hview, hfamily, -, -⟩ := hspec i hpreview
  refine ⟨setting, view, hread ▸ hsetting, hview, hfamily, ⟨_, hmem⟩, fun feasible hfeasible => ?_⟩
  -- an edge that is listed twice has two previews, with stamps of their own
  obtain ⟨j, other, hother, rfl⟩ := hall feasible hfeasible
  obtain ⟨setting', view', hsetting', hview', -, -, hverdict⟩ := hspec j hother
  obtain rfl := Option.some.inj (hsetting.symm.trans hsetting')
  obtain rfl := Option.some.inj (hview.symm.trans hview')
  rwa [hstamps j] at hverdict

/-- What the verdicts of the preview of the link service say. -/
theorem EditorPreview.of_verdicts {config : Dict String (Json ℝ)}
    {definitions : Dict String (Dict String (Json ℝ))} {pathLoss : PathLoss ℝ}
    {stamps : ℕ → LinkStamp ℝ} {ageS : ℝ} {list : List (Edge × Bool)}
    (hpreviewable : Previewable config) (hdefinitions : definitionsById config = some definitions)
    (hstamps : Aged ageS stamps)
    (h : EditorPreview.verdicts pathLoss.propagation stamps config = some list) :
    ∃ edges, topologyEdges (mappingOrEmpty config "topology") = some edges ∧
      (∀ e ∈ list, e.1 ∈ edges) ∧
      ∀ edge ∈ edges, ∀ source destination setting, KnownEnds config edge source destination →
        LinkSetting.between config edge source destination = some setting →
          ∃ view, EditorPreview.view definitions config edge source destination = some view ∧
            (∃ feasible, (edge, feasible) ∈ list) ∧
            ∀ feasible, (edge, feasible) ∈ list →
              (feasible = true ↔ view.Verdict setting ageS pathLoss) := by
  obtain ⟨known, hknown, hentities⟩ := hpreviewable.entities
  obtain ⟨rows, hrows, h⟩ := Option.bind_eq_some_iff.mp h
  obtain rfl := Option.some.inj h
  rw [records, hdefinitions, hknown] at hrows
  simp only [Option.bind_eq_bind, Option.bind_some] at hrows
  obtain ⟨edges, hedges, hrows⟩ := Option.bind_eq_some_iff.mp hrows
  obtain ⟨hlisted, hverdicts⟩ := verdicts_of_mapM Record.edge Record.feasible hrows
    fun _ _ _ hrecord => record_edge hrecord
  refine ⟨edges, hedges, hlisted, fun edge hedge source destination setting hends hsetting => ?_⟩
  -- the table of the route has the records of the configuration
  have hspec (i : ℕ) {row : Record ℝ} := @record_spec _ definitions known config source
    destination edge pathLoss (stamps i) setting row ((hentities _).trans hends.source)
    ((hentities _).trans hends.destination) hsetting
  obtain ⟨⟨i, row, hrow, hmem⟩, hall⟩ := hverdicts edge hedge
  obtain ⟨view, hview, -, -⟩ := hspec i hrow
  refine ⟨view, hview, ⟨_, hmem⟩, fun feasible hfeasible => ?_⟩
  obtain ⟨j, other, hother, rfl⟩ := hall feasible hfeasible
  obtain ⟨view', hview', -, hverdict⟩ := hspec j hother
  obtain rfl := Option.some.inj (hview.symm.trans hview')
  rwa [hstamps j] at hverdict

/-- The preview of the safety shield does not raise if no edge between known ends makes it. -/
theorem exists_shieldVerdicts {config : Dict String (Json ℝ)} {edges : List Edge}
    (hpreviewable : Previewable config)
    (hedges : topologyEdges (mappingOrEmpty config "topology") = some edges)
    (h : ∀ edge ∈ edges, ∀ source destination, KnownEnds config edge source destination →
      (LinkSetting.between config edge source destination).isSome = true ∧
        ∃ view, shieldView config edge = some view ∧ view.family.isSome = true)
    (pathLoss : PathLoss ℝ) (stamps : ℕ → LinkStamp ℝ) :
    ∃ list, shieldVerdicts pathLoss.propagation stamps config = some list := by
  obtain ⟨planned, hplanned, hlocated, hmissing⟩ := hpreviewable.located
  -- an edge with an unknown end is previewed without a link
  have hresults : ∃ results, previewEdges pathLoss.propagation stamps planned config
      (droneTable config) edges = some results := by
    refine List.exists_mapM_eq_some_iff.mpr fun e he => ?_
    obtain ⟨edge, i⟩ := e
    have hedge : edge ∈ edges := List.fst_mem_of_mem_zipIdx he
    cases hsource : entityRecord config edge.1 with
    | none => simp [previewEdge, hmissing _ hsource]
    | some source =>
    cases hdestination : entityRecord config edge.2 with
    | none => simp [previewEdge, hmissing _ hdestination]
    | some destination =>
        obtain ⟨hsetting, view, hview, hfamily⟩ := h edge hedge _ _ ⟨hsource, hdestination⟩
        obtain ⟨setting, hsetting⟩ := Option.isSome_iff_exists.mp hsetting
        obtain ⟨txPosition, htx, htx'⟩ := hlocated _ _ hsource
        obtain ⟨rxPosition, hrx, hrx'⟩ := hlocated _ _ hdestination
        exact exists_previewEdge htx hrx ((LinkSetting.read_congr htx' hrx').trans hsetting) hview
          hfamily pathLoss (stamps i)
  obtain ⟨results, hresults⟩ := hresults
  simp only [shieldVerdicts, connectivityPreview, hplanned, hedges, hresults, bind, pure,
    Option.bind_some]
  exact ⟨_, rfl⟩

/-- The preview of the link service does not raise if no edge between known ends makes it. -/
theorem EditorPreview.exists_verdicts {config : Dict String (Json ℝ)} {edges : List Edge}
    {definitions : Dict String (Dict String (Json ℝ))} (hpreviewable : Previewable config)
    (hdefinitions : definitionsById config = some definitions)
    (hedges : topologyEdges (mappingOrEmpty config "topology") = some edges)
    (h : ∀ edge ∈ edges, ∀ source destination, KnownEnds config edge source destination →
      (EditorPreview.view definitions config edge source destination).isSome = true)
    (pathLoss : PathLoss ℝ) (stamps : ℕ → LinkStamp ℝ) :
    ∃ list, EditorPreview.verdicts pathLoss.propagation stamps config = some list := by
  obtain ⟨known, hknown, hentities⟩ := hpreviewable.entities
  -- an edge with an unknown end is recorded without a request
  have hrows : ∃ rows, (edges.zipIdx.mapM fun (edge, i) => EditorPreview.record
      pathLoss.propagation (stamps i) definitions known config edge) = some rows := by
    refine List.exists_mapM_eq_some_iff.mpr fun e he => ?_
    obtain ⟨edge, i⟩ := e
    have hedge : edge ∈ edges := List.fst_mem_of_mem_zipIdx he
    cases hsource : entityRecord config edge.1 with
    | none => simp [EditorPreview.record, hentities, hsource]
    | some source =>
    cases hdestination : entityRecord config edge.2 with
    | none => simp [EditorPreview.record, hentities, hdestination]
    | some destination =>
        obtain ⟨view, hview⟩ := Option.isSome_iff_exists.mp
          (h edge hedge _ _ ⟨hsource, hdestination⟩)
        exact exists_record ((hentities _).trans hsource) ((hentities _).trans hdestination) hview
          pathLoss.propagation (stamps i)
  obtain ⟨rows, hrows⟩ := hrows
  simp only [EditorPreview.verdicts, records, hdefinitions, hknown, hedges, hrows, bind, pure,
    Option.bind_some]
  exact ⟨_, rfl⟩

theorem TopologyPreview.edges_eq_some {config : Dict String (Json ℝ)} {edges : List Edge}
    (h : TopologyPreview.edges config = some edges) : edges = configEdges config := by
  obtain ⟨relays, hrelays, h⟩ := Option.bind_eq_some_iff.mp h
  obtain ⟨_, -, h⟩ := Option.bind_eq_some_iff.mp h
  obtain ⟨_, -, h⟩ := Option.bind_eq_some_iff.mp h
  obtain ⟨_, -, h⟩ := Option.bind_eq_some_iff.mp h
  rw [configEdges, hrelays, Option.getD_some]
  exact (Option.some.inj h).symm

/-- The preview next to the checks of the topology has a verdict about every edge if none makes it
raise. -/
theorem TopologyPreview.exists_verdicts {config : Dict String (Json ℝ)}
    {definitions : Dict String (Dict String (Json ℝ))} (hpreviewable : Previewable config)
    (hdefinitions : definitionsById config = some definitions)
    (hedges : (TopologyPreview.edges config).isSome = true)
    (h : ∀ edge ∈ configEdges config, ∃ source destination view,
      KnownEnds config edge source destination ∧
        (source.getD "position" .null).isSequence = true ∧
        (destination.getD "position" .null).isSequence = true ∧
        (LinkSetting.between config edge source destination).isSome = true ∧
        TopologyPreview.view definitions config edge = some view ∧ view.family.isSome = true)
    (pathLoss : PathLoss ℝ) (stamps : ℕ → LinkStamp ℝ) :
    ∃ list, TopologyPreview.verdicts pathLoss.propagation stamps config = some list ∧
      ∀ edge ∈ configEdges config, ∃ feasible, (edge, feasible) ∈ list := by
  obtain ⟨experiment, hexperiment⟩ := hpreviewable.experiment
  obtain ⟨edges, hedges⟩ := Option.isSome_iff_exists.mp hedges
  obtain rfl := edges_eq_some hedges
  refine ⟨_, by simp only [TopologyPreview.verdicts, linkPreview, hedges, hdefinitions, bind, pure,
    Option.bind_some]; rfl, fun edge hedge => ?_⟩
  -- every edge has two positions and a request that can be evaluated
  have hlinks : ∀ e ∈ (configEdges config).zipIdx, ∃ txPosition rxPosition preview,
      (positions config).get? e.1.1 = some txPosition ∧
      (positions config).get? e.1.2 = some rxPosition ∧
      previewLink pathLoss.propagation (stamps e.2) definitions config e.1 txPosition rxPosition =
        some preview := by
    intro e he
    obtain ⟨source, destination, view, hknown, hsource, hdestination, hsetting, hview, hfamily⟩ :=
      h e.1 (List.fst_mem_of_mem_zipIdx he)
    obtain ⟨setting, hsetting⟩ := Option.isSome_iff_exists.mp hsetting
    obtain ⟨preview, hpreview⟩ := exists_previewLink hexperiment hsetting hview hfamily pathLoss
      (stamps e.2)
    refine ⟨_, _, preview, ?_, ?_, hpreview⟩
    · rw [hpreviewable.get?_positions, hknown.source, Option.bind_some, if_pos hsource,
        EditorPreview.position_of_isSequence hsource]
    · rw [hpreviewable.get?_positions, hknown.destination, Option.bind_some, if_pos hdestination,
        EditorPreview.position_of_isSequence hdestination]
  obtain ⟨i, hi, rfl⟩ := List.mem_iff_getElem.mp hedge
  have hmem : ((configEdges config)[i], i) ∈ (configEdges config).zipIdx :=
    List.mem_zipIdx_iff_getElem?.mpr (by simp [hi])
  obtain ⟨preview, hpreview, txPosition, rxPosition, hlink⟩ := exists_mem_previewLinks hlinks _ hmem
  obtain ⟨-, -, -, -, -, hname, -⟩ := previewLink_spec hexperiment hlink
  exact ⟨preview.feasible, List.mem_map.mpr ⟨preview, hpreview, by rw [hname]⟩⟩

end

end Netlab
