import Netlab.Config.DefaultValid
import Netlab.Preview.Outcomes

/-!
# The agreement of the previews

The three previews of a validated configuration, at the positions it gives, with the path loss as an
abstract function and metrics of one age. All three come to one verdict about every edge of the
topology, whatever the path loss, exactly when nothing that one of them reads raises, both ends of
each edge are known, and the views of each edge match (`previewsAgree_iff`).
-/

namespace Netlab

open Experiment (mappingOrEmpty)

/-- A preview has not raised, and gives one verdict about an edge. -/
def Decides (verdicts : Option (List (Edge × Bool))) (edge : Edge) (feasible : Bool) : Prop :=
  ∃ list ∈ verdicts, (edge, feasible) ∈ list ∧ ∀ other, (edge, other) ∈ list → other = feasible

section

variable [PyText ℝ]

/-- The previews give the same verdict about every edge of the topology, whatever the path loss. -/
def PreviewsAgree (config : Dict String (Json ℝ)) (ageS : ℝ) : Prop :=
  ∀ (pathLoss : PathLoss ℝ) (topology editor shield : ℕ → LinkStamp ℝ),
    Aged ageS topology → Aged ageS editor → Aged ageS shield →
      ∀ edge ∈ TopologyPreview.configEdges config, ∃ feasible,
        Decides (TopologyPreview.verdicts pathLoss.propagation topology config) edge feasible ∧
          Decides (EditorPreview.verdicts pathLoss.propagation editor config) edge feasible ∧
          Decides (shieldVerdicts pathLoss.propagation shield config) edge feasible

/-- No preview raises on what it reads besides the links of `validate_topology`: the altitudes of
the service region are numbers, and so is everything that is read for an edge between known ends,
which lies between positions and has a fallback model that is implemented. -/
structure PreviewsRead (config : Dict String (Json ℝ)) : Prop where
  altitudes : (TopologyPreview.edges config).isSome = true
  edges : ∃ definitions edges, definitionsById config = some definitions ∧
    topologyEdges (mappingOrEmpty config "topology") = some edges ∧
    ∀ edge ∈ edges, ∀ source destination, KnownEnds config edge source destination →
      (LinkSetting.between config edge source destination).isSome = true ∧
        (EditorPreview.view definitions config edge source destination).isSome = true ∧
        ∃ view, shieldView config edge = some view ∧ view.family.isSome = true

/-- The previews are about an edge: the two that read the stored topology list it, its ends are
known and have sequences for positions, and the views of the three match. -/
structure EdgeAligned (config : Dict String (Json ℝ)) (ageS : ℝ) (edge : Edge) : Prop where
  read : PreviewsRead config
  listed : ∃ edges, topologyEdges (mappingOrEmpty config "topology") = some edges ∧ edge ∈ edges
  aligned : ∃ definitions source destination setting topology editor shield,
    definitionsById config = some definitions ∧ KnownEnds config edge source destination ∧
      (source.getD "position" .null).isSequence = true ∧
      (destination.getD "position" .null).isSequence = true ∧
      LinkSetting.between config edge source destination = some setting ∧
      TopologyPreview.view definitions config edge = some topology ∧ topology.family.isSome = true ∧
      EditorPreview.view definitions config edge source destination = some editor ∧
      shieldView config edge = some shield ∧
      topology.Matches editor setting ageS ∧ topology.Matches shield setting ageS

omit [PyText ℝ] in
theorem Aged.constant {ageS : ℝ} (h : 0 ≤ ageS) : Aged ageS fun _ => ⟨"", 0, ageS⟩ := fun _ => by
  rw [sub_zero]
  exact max_eq_right h

/-- What the three previews say about an edge on which they agree. -/
theorem PreviewsAgree.verdicts {config : Dict String (Json ℝ)} {ageS : ℝ}
    {definitions : Dict String (Dict String (Json ℝ))} (h : PreviewsAgree config ageS)
    (hpreviewable : Previewable config) (hdefinitions : definitionsById config = some definitions)
    (hage : 0 ≤ ageS) {edge : Edge} (hedge : edge ∈ TopologyPreview.configEdges config)
    (pathLoss : PathLoss ℝ) :
    PreviewsRead config ∧
      (∃ edges, topologyEdges (mappingOrEmpty config "topology") = some edges ∧ edge ∈ edges) ∧
      ∃ feasible source destination setting topology editor shield,
        KnownEnds config edge source destination ∧
          (source.getD "position" .null).isSequence = true ∧
          (destination.getD "position" .null).isSequence = true ∧
          LinkSetting.between config edge source destination = some setting ∧
          (TopologyPreview.view definitions config edge = some topology ∧
            topology.family.isSome = true ∧
            (feasible = true ↔ topology.Verdict setting ageS pathLoss)) ∧
          (EditorPreview.view definitions config edge source destination = some editor ∧
            (feasible = true ↔ editor.Verdict setting ageS pathLoss)) ∧
          shieldView config edge = some shield ∧
            (feasible = true ↔ shield.Verdict setting ageS pathLoss) := by
  -- stamps of that age, the same for the three runs
  have hstamps := Aged.constant hage
  obtain ⟨feasible, ⟨t, ht, hmemt, -⟩, ⟨e, he, hmeme, -⟩, ⟨s, hs, hmems, -⟩⟩ :=
    h pathLoss _ _ _ hstamps hstamps hstamps edge hedge
  obtain ⟨source, destination, setting, topology, hknown, hsource, hdestination, hsetting,
    htopology⟩ := TopologyPreview.of_mem_verdicts hpreviewable hdefinitions hstamps ht hmemt
  obtain ⟨edges, hedges, hlisted, hshields⟩ := of_shieldVerdicts hpreviewable hstamps hs
  obtain ⟨edges', hedges', -, heditors⟩ :=
    EditorPreview.of_verdicts hpreviewable hdefinitions hstamps he
  obtain rfl := Option.some.inj (hedges.symm.trans hedges')
  have hmem : edge ∈ edges := hlisted _ hmems
  obtain ⟨_, shield, hsetting', hshield, -, -, hshieldVerdict⟩ := hshields edge hmem _ _ hknown
  obtain rfl := Option.some.inj (hsetting.symm.trans hsetting')
  obtain ⟨editor, heditor, -, heditorVerdict⟩ := heditors edge hmem _ _ _ hknown hsetting
  refine ⟨⟨?_, definitions, edges, hdefinitions, hedges, fun other hother source destination
    hends => ?_⟩, ⟨edges, hedges, hmem⟩, feasible, source, destination, setting, topology, editor,
    shield, hknown, hsource, hdestination, hsetting, htopology,
    ⟨heditor, heditorVerdict _ hmeme⟩, hshield, hshieldVerdict _ hmems⟩
  · -- the first preview has read the altitudes
    obtain ⟨previews, hpreviews, -⟩ := Option.bind_eq_some_iff.mp ht
    obtain ⟨edges, hedges, -⟩ := Option.bind_eq_some_iff.mp hpreviews
    rw [hedges]
    rfl
  · -- the other two have read every edge between known ends, whether the first lists it or not
    obtain ⟨setting, view, hsetting, hview, hfamily, -⟩ := hshields other hother _ _ hends
    obtain ⟨editor, heditor, -⟩ := heditors other hother _ _ _ hends hsetting
    rw [hsetting, heditor]
    exact ⟨rfl, rfl, view, hview, hfamily⟩

/-- Where the previews agree, nothing raises and the views match. -/
theorem PreviewsAgree.aligned {config : Dict String (Json ℝ)} {ageS : ℝ}
    (h : PreviewsAgree config ageS) (hpreviewable : Previewable config) (hage : 0 ≤ ageS)
    {edge : Edge} (hedge : edge ∈ TopologyPreview.configEdges config) :
    EdgeAligned config ageS edge := by
  obtain ⟨definitions, hdefinitions⟩ := Option.isSome_iff_exists.mp hpreviewable.definitions
  -- any path loss will do to see that nothing raises
  have hall := h.verdicts hpreviewable hdefinitions hage hedge
  obtain ⟨hread, hlisted, -, source, destination, setting, topology, editor, shield, hknown,
    hsource, hdestination, hsetting, ⟨htopology, hfamily, -⟩, ⟨heditor, -⟩, hshield, -⟩ :=
    hall ⟨fun _ _ _ _ _ => 0, fun _ _ _ _ _ => 0⟩
  -- the views are the same for every path loss
  have hsame (pathLoss : PathLoss ℝ) :
      (topology.Verdict setting ageS pathLoss ↔ editor.Verdict setting ageS pathLoss) ∧
        (topology.Verdict setting ageS pathLoss ↔ shield.Verdict setting ageS pathLoss) := by
    obtain ⟨-, -, feasible, source', destination', setting', topology', editor', shield', hknown',
      -, -, hsetting', ⟨htopology', -, ht⟩, ⟨heditor', he⟩, hshield', hs⟩ := hall pathLoss
    obtain ⟨rfl, rfl⟩ := hknown.unique hknown'
    obtain rfl := Option.some.inj (hsetting.symm.trans hsetting')
    obtain rfl := Option.some.inj (htopology.symm.trans htopology')
    obtain rfl := Option.some.inj (heditor.symm.trans heditor')
    obtain rfl := Option.some.inj (hshield.symm.trans hshield')
    exact ⟨ht.symm.trans he, ht.symm.trans hs⟩
  exact ⟨hread, hlisted, definitions, source, destination, setting, topology, editor, shield,
    hdefinitions, hknown, hsource, hdestination, hsetting, htopology, hfamily, heditor, hshield,
    LinkView.forall_verdict_iff_matches.mp fun p => (hsame p).1,
    LinkView.forall_verdict_iff_matches.mp fun p => (hsame p).2⟩

omit [PyText ℝ] in
/-- A list of verdicts that says of an edge whether a condition holds. -/
theorem Decides.of_forall {list : List (Edge × Bool)} {edge : Edge} {b : Bool}
    (hmem : ∃ feasible, (edge, feasible) ∈ list) (h : ∀ feasible, (edge, feasible) ∈ list →
      (feasible = true ↔ b = true)) : Decides (some list) edge b := by
  have heq : ∀ other, (edge, other) ∈ list → other = b := fun other hother =>
    Bool.eq_iff_iff.mpr (h other hother)
  obtain ⟨feasible, hfeasible⟩ := hmem
  exact ⟨list, rfl, heq feasible hfeasible ▸ hfeasible, heq⟩

/-- Where nothing raises and the views of every edge match, the previews agree. -/
theorem previewsAgree_of_aligned {config : Dict String (Json ℝ)} {ageS : ℝ}
    (hpreviewable : Previewable config)
    (h : ∀ edge ∈ TopologyPreview.configEdges config, EdgeAligned config ageS edge) :
    PreviewsAgree config ageS := by
  intro pathLoss topologyStamps editorStamps shieldStamps htopologyStamps heditorStamps
    hshieldStamps edge hedge
  obtain ⟨hread, ⟨edges, hedges, hmem⟩, definitions, source, destination, setting, topology, editor,
    shield, hdefinitions, hknown, -, -, hsetting, htopology, -, heditor, hshield, hmatchesEditor,
    hmatchesShield⟩ := h edge hedge
  obtain ⟨definitions', edges', hdefinitions', hedges', hreadable⟩ := hread.edges
  obtain rfl := Option.some.inj (hdefinitions.symm.trans hdefinitions')
  obtain rfl := Option.some.inj (hedges.symm.trans hedges')
  -- none of the three raises
  obtain ⟨t, ht, hallt⟩ := TopologyPreview.exists_verdicts hpreviewable hdefinitions hread.altitudes
    (fun other hother => by
      obtain ⟨-, -, definitions', source, destination, setting, topology, -, -, hdefinitions',
        hends, hsource, hdestination, hsetting, htopology, hfamily, -⟩ := h other hother
      obtain rfl := Option.some.inj (hdefinitions.symm.trans hdefinitions')
      exact ⟨source, destination, topology, hends, hsource, hdestination, by rw [hsetting]; rfl,
        htopology, hfamily⟩) pathLoss topologyStamps
  obtain ⟨e, he⟩ := EditorPreview.exists_verdicts hpreviewable hdefinitions hedges
    (fun other hother source destination hends => (hreadable other hother _ _ hends).2.1) pathLoss
    editorStamps
  obtain ⟨s, hs⟩ := exists_shieldVerdicts hpreviewable hedges
    (fun other hother source destination hends => ⟨(hreadable other hother _ _ hends).1,
      (hreadable other hother _ _ hends).2.2⟩) pathLoss shieldStamps
  -- the verdict of the first view is that of all three
  classical
  refine ⟨decide (topology.Verdict setting ageS pathLoss), ?_, ?_, ?_⟩
  · rw [ht]
    refine Decides.of_forall (hallt edge hedge) fun feasible hfeasible => ?_
    obtain ⟨source', destination', setting', topology', hends, -, -, hsetting', htopology', -, hiff⟩
      := TopologyPreview.of_mem_verdicts hpreviewable hdefinitions htopologyStamps ht hfeasible
    obtain ⟨rfl, rfl⟩ := hknown.unique hends
    obtain rfl := Option.some.inj (hsetting.symm.trans hsetting')
    obtain rfl := Option.some.inj (htopology.symm.trans htopology')
    rw [hiff, decide_eq_true_eq]
  · obtain ⟨edges', hedges', -, hverdicts⟩ :=
      EditorPreview.of_verdicts hpreviewable hdefinitions heditorStamps he
    obtain rfl := Option.some.inj (hedges.symm.trans hedges')
    obtain ⟨editor', heditor', hexists, hiff⟩ := hverdicts edge hmem _ _ _ hknown hsetting
    obtain rfl := Option.some.inj (heditor.symm.trans heditor')
    rw [he]
    refine Decides.of_forall hexists fun feasible hfeasible => ?_
    rw [hiff feasible hfeasible, decide_eq_true_eq,
      LinkView.forall_verdict_iff_matches.mpr hmatchesEditor]
  · obtain ⟨edges', hedges', -, hverdicts⟩ := of_shieldVerdicts hpreviewable hshieldStamps hs
    obtain rfl := Option.some.inj (hedges.symm.trans hedges')
    obtain ⟨setting', shield', hsetting', hshield', -, hexists, hiff⟩ :=
      hverdicts edge hmem _ _ hknown
    obtain rfl := Option.some.inj (hsetting.symm.trans hsetting')
    obtain rfl := Option.some.inj (hshield.symm.trans hshield')
    rw [hs]
    refine Decides.of_forall hexists fun feasible hfeasible => ?_
    rw [hiff feasible hfeasible, decide_eq_true_eq,
      LinkView.forall_verdict_iff_matches.mpr hmatchesShield]

/-- For a validated configuration the three previews give the same verdict about every edge of the
topology, whatever the path loss, exactly when each edge is aligned. -/
theorem previewsAgree_iff {config : Dict String (Json ℝ)}
    (h : Experiment.documentErrors config = some []) {ageS : ℝ} (hage : 0 ≤ ageS) :
    PreviewsAgree config ageS ↔
      ∀ edge ∈ TopologyPreview.configEdges config, EdgeAligned config ageS edge := by
  have hpreviewable := previewable_of_valid h
  exact ⟨fun hagree edge hedge => hagree.aligned hpreviewable hage hedge,
    previewsAgree_of_aligned hpreviewable⟩

end

/-! ## A model of its own -/

section Steep

open Experiment

attribute [local instance] PyText.exact

/-- The default experiment with the log-distance model and an exponent of six. -/
noncomputable def steep : Dict String (Json ℝ) := withPathLoss 0 "log_distance" 6.0

theorem previewsAgree_steep : PreviewsAgree steep 0 ↔
    ∀ edge ∈ TopologyPreview.configEdges steep, EdgeAligned steep 0 edge :=
  previewsAgree_iff (documentErrors_withPathLoss (by decide) (by decide) 0 6.0) le_rfl

private theorem communication_steep :
    mappingOrEmpty steep "communication" = pathLossCommunication "log_distance" 6.0 :=
  mappingOrEmpty_of_section? (eq_section?_of_get? (get?_withPathLoss_communication 0 _ _))

/-- Besides the model and the exponent the radio is that of the default experiment. -/
private theorem getD_steep {key : String} (hmodel : key ≠ "model")
    (hexponent : key ≠ "path_loss_exponent") (default : Json ℝ) :
    (mappingOrEmpty steep "communication").getD key default =
      defaultCommunication.getD key default := by
  rw [communication_steep, getD_pathLossCommunication _ _ hmodel hexponent]

private theorem thresholds_steep : previewThresholds steep = some {
    operationalRangeM := 90.0, hardOutageDistanceM := 220.0, minSnrDb := 3.0
    minCapacityMbps := 1.0, minSinrDb := some 3.0, metricTtlS := 2.0 } := by
  have hget := @getD_steep
  simp only [previewThresholds, Dict.getFloat, Dict.getFloatOr,
    hget (show "operational_range_m" ≠ "model" by decide) (by decide),
    hget (show "hard_outage_distance_m" ≠ "model" by decide) (by decide),
    hget (show "min_snr_db" ≠ "model" by decide) (by decide),
    hget (show "min_sinr_db" ≠ "model" by decide) (by decide),
    hget (show "min_capacity_mbps" ≠ "model" by decide) (by decide),
    hget (show "metric_ttl_s" ≠ "model" by decide) (by decide)]
  rfl

private theorem basis_steep {basis : LinkBasis ℝ} (h : LinkBasis.read steep = some basis) :
    basis.pathLossExponent = 6.0 ∧ basis.interferenceMarginDb = 0.0 ∧
      basis.spectralEfficiencyFactor = 0.75 ∧ basis.bandwidthHz = 20e6 := by
  have hread := LinkBasis.read_eq_some_iff.mp h
  have hexponent := hread.exponent
  have hinterference := hread.interference
  have hfactor := hread.factor
  have hbandwidth := hread.bandwidth
  rw [communication_steep, pathLossCommunication, Dict.getFloat, Dict.getD,
    Dict.get?_set_self] at hexponent
  rw [Dict.getFloat, getD_steep (by decide) (by decide)] at hinterference hfactor hbandwidth
  exact ⟨(Option.some.inj hexponent).symm, (Option.some.inj hinterference).symm,
    (Option.some.inj hfactor).symm, (Option.some.inj hbandwidth).symm⟩

private theorem station_steep : entityRecord steep "station" = some defaultStation := by
  have hstation : mappingOrEmpty steep "station" = defaultStation :=
    mappingOrEmpty_of_section? (eq_section?_of_get?
      (get?_withPathLoss 0 _ _ (by simp [defaultSections]) (by decide)))
  have hunknown : ((droneTable steep).get? "station").isNone = true := by
    decide +kernel
  rw [entityRecord, stationId, hstation, Option.isNone_iff_eq_none.mp hunknown]
  rfl

private theorem drone_steep : entityRecord steep "drone_1" = some (drone 1 6) := by
  have hswarm : mappingOrEmpty steep "swarm" = defaultSwarm :=
    mappingOrEmpty_of_section? (eq_section?_of_get?
      (get?_withPathLoss 0 _ _ (by simp [defaultSections]) (by decide)))
  have htable : droneTable steep =
      .ofList ((List.range 8).map fun i => (s!"drone_{i + 1}", drone (i + 1) 6)) := by
    rw [droneTable, hswarm]
    rfl
  have hget : (Dict.ofList ((List.range 8).map fun i =>
      (s!"drone_{i + 1}", drone (F := ℝ) (i + 1) 6))).get? "drone_1" = some (drone 1 6) :=
    Dict.get?_ofList_of_mem (by decide +kernel) (List.mem_map.mpr ⟨0, by simp, rfl⟩)
  rw [entityRecord, htable, hget, Option.some_or]

/-- The first hop spans less than forty metres. -/
private theorem span_steep {distanceM : ℝ}
    (h : positionDistance (EditorPreview.position (defaultStation : Dict String (Json ℝ)))
      (EditorPreview.position (drone 1 6 : Dict String (Json ℝ))) = some distanceM) :
    distanceM ≤ 40 := by
  have hfirst : PyBuiltins.round (PyFloat.ofCount 1 * 28.0 : ℝ) 6 = 28 := by
    have hone : (PyFloat.ofCount 1 : ℝ) = 1 := by
      show (OfScientific.ofScientific 1 false 0 : ℝ) = 1
      norm_num
    rw [hone]
    show (⌊(1 * 28.0 : ℝ) * 10.0 ^ 6 + 0.5⌋ : ℝ) / 10.0 ^ 6 = 28
    norm_num
  have hzero : (PyFloat.ofCount ((1 - 1) % 3) : ℝ) = 0 := by
    show (OfScientific.ofScientific 0 false 0 : ℝ) = 0
    norm_num
  have hspan : positionDistance (EditorPreview.position (defaultStation : Dict String (Json ℝ)))
      (EditorPreview.position (drone 1 6 : Dict String (Json ℝ))) =
        some (PyFloat.max 1e-3 (√((0.0 - PyBuiltins.round (PyFloat.ofCount 1 * 28.0) 6) ^ 2 +
          (0.0 - 0.0) ^ 2 + (1.5 - (28.0 + PyFloat.ofCount ((1 - 1) % 3))) ^ 2))) := rfl
  rw [hspan, hfirst, hzero, PyFloat.max_real, Option.some.injEq] at h
  rw [← h]
  exact max_le (by norm_num) (Real.sqrt_le_iff.mpr ⟨by norm_num, by norm_num⟩)

/-- An SNR of 10 dB passes the thresholds of the default experiment. -/
private theorem passable_steep {setting : LinkSetting ℝ}
    (hbasis : LinkBasis.read steep = some setting.basis)
    (hthresholds : previewThresholds steep = some setting.thresholds)
    (hspan : setting.distanceM ≤ 40) : setting.Passable := by
  obtain ⟨-, hinterference, hfactor, hbandwidth⟩ := basis_steep hbasis
  have hlimits := Option.some.inj (thresholds_steep.symm.trans hthresholds)
  have hlogb : 1 ≤ Real.logb 2 11 := by
    rw [Real.le_logb_iff_rpow_le one_lt_two (by norm_num)]
    norm_num
  refine ⟨?_, 10, ?_, ?_, _, capacityAt_real .., ?_⟩ <;> rw [← hlimits]
  · constructor <;> norm_num <;> linarith
  · norm_num
  · rw [hinterference]
    norm_num
  · rw [hinterference, hfactor, hbandwidth]
    norm_num
    linarith

/-- The link service previews the log-distance model, and the others the free-space model to which
the experiment falls back. -/
theorem previews_disagree : ∃ v : Dict String (Json ℝ),
    validateStrict 0 0 steep = some v ∧ ¬PreviewsAgree v 0 := by
  refine ⟨steep, validateStrict_withPathLoss (by decide) (by decide) 0 0 0 6.0, fun hagree => ?_⟩
  have hpreviewable : Previewable steep :=
    previewable_of_valid (documentErrors_withPathLoss (by decide) (by decide) 0 6.0)
  have hedge : ("station", "drone_1") ∈ TopologyPreview.configEdges steep := by
    decide +kernel
  obtain ⟨definitions, source, destination, setting, topology, editor, shield, -, hknown, -, -,
    hsetting, htopology, -, heditor, -, hmatches, -⟩ :=
    (hagree.aligned hpreviewable le_rfl hedge).aligned
  obtain rfl := Option.some.inj (station_steep.symm.trans hknown.source)
  obtain rfl := Option.some.inj (drone_steep.symm.trans hknown.destination)
  obtain ⟨hbasis, hthresholds, -, hdistance, -⟩ := LinkSetting.read_eq_some_iff.mp hsetting
  obtain ⟨hexponent, -⟩ := basis_steep hbasis
  obtain ⟨-, -, hfree, hends, httl⟩ := (LinkView.read_eq_some_iff hbasis hthresholds).mp htopology
  obtain ⟨-, -, hlog, -, -⟩ := (LinkView.read_eq_some_iff hbasis hthresholds).mp heditor
  -- the fallback of the default experiment is the free-space model
  have hfree' : topology.family = some .freeSpace := by
    rw [hfree, hexponent]
    decide +kernel
  have hlog' : editor.family = some .logDistance := by
    have hmodel : PyText.strip ℝ (PyText.lower ℝ (EditorPreview.previewModel steep)) =
        "log_distance" := by
      decide +kernel
    have hfreeModels : "log_distance" ∉ freeSpaceModels := by decide
    have hlogModels : "log_distance" ∈ logDistanceModels := by decide
    rw [hlog, hexponent]
    simp only [pathLossFamily?, hmodel, hfreeModels, hlogModels, if_true, if_false]
    norm_num
  have hends' : TopologyPreview.endpoints steep ("station", "drone_1") =
      ⟨true, true, false, false⟩ := by
    decide +kernel
  -- the first hop is live, so the views would have to share the family
  have hlive : topology.Live 0 := by
    refine ⟨by rw [hfree']; rfl, ?_, ?_⟩
    · rw [hends, hends']
      exact ⟨rfl, rfl, rfl, rfl⟩
    · rw [httl, ← Option.some.inj (thresholds_steep.symm.trans hthresholds)]
      norm_num
  have hsame := ((hmatches (passable_steep hbasis hthresholds (span_steep hdistance))).2 hlive).1
  rw [hfree', hlog'] at hsame
  exact absurd hsame (by decide)

end Steep

end Netlab
