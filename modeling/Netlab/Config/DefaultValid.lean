import Netlab.Config.RoundTrip

/-!
# The default experiment is valid

In exact arithmetic the default experiment passes its own validation, and so it does with any
path-loss exponent and any other supported propagation model but the one that needs a scene: it is
validated to itself (`validateStrict_withPathLoss`).
-/

namespace Netlab.Experiment

/-- The default `communication` section with a propagation model and an exponent of its own. -/
def pathLossCommunication {F : Type} [PyBuiltins F] (model : String) (exponent : F) :
    Dict String (Json F) :=
  (defaultCommunication.set "model" (.str model)).set "path_loss_exponent" (.float exponent)

/-- The default experiment with a propagation model and an exponent of its own. -/
def withPathLoss {F : Type} [PyBuiltins F] (now : F) (model : String) (exponent : F) :
    Dict String (Json F) :=
  (defaultExperiment now).set "communication" (.ofDict (pathLossCommunication model exponent))

section

attribute [local instance] PyText.exact

/-! ## Sections -/

/-- A number within the bounds. -/
theorem rangeIssues_float {path lo' hi' : String} {x lo hi : ℝ} (hlo : lo ≤ x) (hhi : x ≤ hi) :
    rangeIssues path (.float x) lo hi lo' hi' = [] := by
  have hfinite : finite? (.float x : Json ℝ) = some x := rfl
  simp [rangeIssues, hfinite, issueIf, hlo.not_gt, hhi.not_gt]

theorem vecIssues_vec (path : String) (x y z : ℝ) : vecIssues path (vec x y z) = [] := rfl

theorem headerIssues_default (now : ℝ) : headerIssues (defaultHeader now) = [] := by
  have hid : (defaultHeader now).getText "id" "" = "first_feasible_relay_chain" := rfl
  have hduration : (defaultHeader now).getD "duration_s" (.int 0) = .float 300.0 := rfl
  have hseed : (defaultHeader now).getD "seed" .null = .int 20260715 := rfl
  rw [headerIssues, hid, hduration, hseed, rangeIssues_float (by norm_num) (by norm_num)]
  decide +kernel

theorem worldIssues_default : worldIssues (defaultWorld : Dict String (Json ℝ)) = [] := by
  have hframe : (defaultWorld : Dict String (Json ℝ)).getText "coordinate_frame" "ENU" = "ENU" :=
    rfl
  have horigin : (defaultWorld : Dict String (Json ℝ)).getD "origin" (.arr []) =
      vec 0.0 0.0 0.0 := rfl
  rw [worldIssues, hframe, horigin, vecIssues_vec]
  decide +kernel

theorem swarmIssues_default : swarmIssues (defaultSwarm : Dict String (Json ℝ)) = [] := by
  have hscale : (defaultSwarm : Dict String (Json ℝ)).getD "visual_asset_scale" (.float 0.2) =
      .float 0.2 := rfl
  have hseparation : (defaultSwarm : Dict String (Json ℝ)).getD "minimum_separation_m" (.int 0) =
      .float 4.0 := rfl
  rw [swarmIssues, hscale, hseparation, rangeIssues_float (by norm_num) (by norm_num),
    rangeIssues_float (by norm_num) (by norm_num)]
  decide +kernel

theorem topologyIssues_default :
    topologyIssues ⟨defaultSwarm, (defaultTopology : Dict String (Json ℝ))⟩ = [] := by
  decide +kernel

theorem antennaIssues_default {config : Dict String (Json ℝ)}
    (h : config.get? "antennas" = some (.ofDict defaultAntennas)) : antennaIssues config = [] := by
  have hdefinitions : member config "antennas" "definitions" (.arr []) =
      .arr [.ofDict groundSectorReference, .ofDict uavOmniReference] := by
    rw [member, h]
    rfl
  have hassignments : member config "antennas" "assignments" (.obj []) =
      .ofDict defaultAssignments := by
    rw [member, h]
    rfl
  have hids : antennaIds config = ["ground_sector_reference", "uav_omni_reference"] := by
    rw [antennaIds, antennaDefinitions, hdefinitions]
    rfl
  have hground : (groundSectorReference : Dict String (Json ℝ)).getD "gain_dbi" (.int 0) =
      .float 8.0 := rfl
  have homni : (uavOmniReference : Dict String (Json ℝ)).getD "gain_dbi" (.int 0) =
      .float 2.5 := rfl
  have hissues : definitionIssues 0 [] (antennaDefinitions config) = [] := by
    rw [antennaDefinitions, hdefinitions]
    simp only [definitionIssues, Json.dict?_ofDict, hground, homni]
    rw [rangeIssues_float (by norm_num) (by norm_num),
      rangeIssues_float (by norm_num) (by norm_num)]
    decide +kernel
  rw [antennaIssues, hdefinitions, hissues, assignmentIssues, hassignments, hids]
  decide +kernel

theorem trafficIssues_default {config : Dict String (Json ℝ)}
    (h : config.get? "traffic" = some (.ofDict defaultTraffic)) : trafficIssues config = [] := by
  have hflows : member config "traffic" "flows" (.arr []) = .arr [.ofDict defaultFlow] := by
    rw [member, h]
    rfl
  have hsize : (defaultFlow : Dict String (Json ℝ)).getD "packet_size_bytes" (.int 0) =
      .int 512 := rfl
  have hrate : (defaultFlow : Dict String (Json ℝ)).getD "packet_rate_pps" (.int 0) =
      .float 2.0 := rfl
  have hsize' (path : String) :
      rangeIssues path (.int 512 : Json ℝ) 1.0 10000000.0 "1" "10000000" = [] := by
    have hfinite : finite? (.int 512 : Json ℝ) = some ((512 : ℤ) : ℝ) := rfl
    rw [rangeIssues, hfinite]
    norm_num [issueIf]
  rw [trafficIssues, hflows]
  simp only [flowIssues, Json.dict?_ofDict, hsize, hrate, hsize']
  rw [rangeIssues_float (by norm_num) (by norm_num)]
  decide +kernel

/-- Besides the model and the exponent the radio is that of the default experiment. -/
theorem getD_pathLossCommunication (model : String) (exponent : ℝ) {key : String}
    (hmodel : key ≠ "model") (hexponent : key ≠ "path_loss_exponent") (default : Json ℝ) :
    (pathLossCommunication model exponent).getD key default =
      defaultCommunication.getD key default := by
  rw [pathLossCommunication, Dict.getD, Dict.getD, Dict.get?_set_of_ne _ _ hexponent,
    Dict.get?_set_of_ne _ _ hmodel]

theorem communicationIssues_pathLoss {model : String} (hmodel : model ∈ propagationModels)
    (hne : model ≠ "sionna_rt") (exponent : ℝ) (world : Dict String (Json ℝ)) :
    communicationIssues (pathLossCommunication model exponent) world = [] := by
  have hname : (pathLossCommunication model exponent).getText "model" "free_space" = model := by
    rw [pathLossCommunication, Dict.getText, Dict.getD, Dict.get?_set_of_ne _ _ (by decide),
      Dict.get?_set_self]
    rfl
  have hfrequency : (pathLossCommunication model exponent).getD "carrier_frequency_hz" (.int 0) =
      .float 3.5e9 := getD_pathLossCommunication _ _ (by decide) (by decide) _
  have hbandwidth : (pathLossCommunication model exponent).getD "bandwidth_hz" (.int 0) =
      .float 20e6 := getD_pathLossCommunication _ _ (by decide) (by decide) _
  have hrange : (pathLossCommunication model exponent).getD "operational_range_m" (.int 0) =
      .float 90.0 := getD_pathLossCommunication _ _ (by decide) (by decide) _
  have houtage : (pathLossCommunication model exponent).getD "hard_outage_distance_m" (.int 0) =
      .float 220.0 := getD_pathLossCommunication _ _ (by decide) (by decide) _
  have horder : PyFloat.lt (rangeValue (.float 220.0 : Json ℝ) 0.1)
      (rangeValue (.float 90.0) 0.1) = false := by
    show PyFloat.lt (220.0 : ℝ) 90.0 = false
    norm_num
  rw [communicationIssues, hname, hfrequency, hbandwidth, hrange, houtage, horder,
    rangeIssues_float (by norm_num) (by norm_num), rangeIssues_float (by norm_num) (by norm_num),
    rangeIssues_float (by norm_num) (by norm_num), rangeIssues_float (by norm_num) (by norm_num)]
  simp [issueIf, hmodel, hne]

/-! ## The document -/

theorem get?_withPathLoss (now : ℝ) (model : String) (exponent : ℝ) {key : String}
    {value : Dict String (Json ℝ)}
    (h : (key, value) ∈ defaultSections) (hne : key ≠ "communication") :
    (withPathLoss now model exponent).get? key = some (.ofDict value) := by
  rw [withPathLoss, Dict.get?_set_of_ne _ _ hne, get?_defaultExperiment_section now h]

theorem get?_withPathLoss_communication (now : ℝ) (model : String) (exponent : ℝ) :
    (withPathLoss now model exponent).get? "communication" =
      some (.ofDict (pathLossCommunication model exponent)) := Dict.get?_set_self ..

theorem eq_section?_of_get? {config d : Dict String (Json ℝ)} {key : String}
    (h : config.get? key = some (.ofDict d)) : section? config key = some d := by
  rw [section?, h]
  exact Json.dict?_ofDict d

/-- The document has no issues. -/
theorem documentErrors_withPathLoss {model : String} (hmodel : model ∈ propagationModels)
    (hne : model ≠ "sionna_rt") (now exponent : ℝ) :
    documentErrors (withPathLoss now model exponent) = some [] := by
  have hheader : section? (withPathLoss now model exponent) "experiment" =
      some (defaultHeader now) := by
    refine eq_section?_of_get? ?_
    rw [withPathLoss, Dict.get?_set_of_ne _ _ (by decide), get?_defaultExperiment_header]
  have hworld : section? (withPathLoss now model exponent) "world" = some defaultWorld :=
    eq_section?_of_get?
      (get?_withPathLoss now model exponent (by simp [defaultSections]) (by decide))
  have hswarm : section? (withPathLoss now model exponent) "swarm" = some defaultSwarm :=
    eq_section?_of_get?
      (get?_withPathLoss now model exponent (by simp [defaultSections]) (by decide))
  have htopology : section? (withPathLoss now model exponent) "topology" = some defaultTopology :=
    eq_section?_of_get?
      (get?_withPathLoss now model exponent (by simp [defaultSections]) (by decide))
  have hcommunication : section? (withPathLoss now model exponent) "communication" =
      some (pathLossCommunication model exponent) :=
    eq_section?_of_get? (get?_withPathLoss_communication now model exponent)
  -- these two sections are read through their members
  have hantennas : (withPathLoss now model exponent).get? "antennas" =
      some (.ofDict defaultAntennas) :=
    get?_withPathLoss now model exponent (by simp [defaultSections]) (by decide)
  have htraffic : (withPathLoss now model exponent).get? "traffic" =
      some (.ofDict defaultTraffic) :=
    get?_withPathLoss now model exponent (by simp [defaultSections]) (by decide)
  have hschema : schemaIssues (withPathLoss now model exponent) = [] := by
    rw [schemaIssues, Dict.getD, withPathLoss, Dict.get?_set_of_ne _ _ (by decide),
      get?_defaultExperiment_schema]
    rfl
  rw [documentErrors, hheader, hworld, hswarm, htopology, hcommunication]
  simp only [bind, pure, Option.bind_some, hschema, headerIssues_default, worldIssues_default,
    swarmIssues_default, topologyIssues_default, communicationIssues_pathLoss hmodel hne,
    antennaIssues_default hantennas, trafficIssues_default htraffic, List.append_nil]

/-- The document is validated to itself. -/
theorem validateStrict_withPathLoss {model : String} (hmodel : model ∈ propagationModels)
    (hne : model ≠ "sionna_rt") (now later created exponent : ℝ) :
    validateStrict now later (withPathLoss created model exponent) =
      some (withPathLoss created model exponent) := by
  refine validateStrict_eq_some_iff.mpr
    ⟨?_, documentErrors_withPathLoss hmodel hne created exponent⟩
  have hversioned : isVersioned (withPathLoss created model exponent) = true := by
    rw [isVersioned, Dict.getD, withPathLoss, Dict.get?_set_of_ne _ _ (by decide),
      Dict.get?_set_of_ne _ _ (by decide), get?_defaultExperiment_schema,
      get?_defaultExperiment_header]
    simp
  have hsection : ("communication", (defaultCommunication : Dict String (Json ℝ))) ∈
      defaultSections := by simp [defaultSections]
  have hcovers : Covers (defaultExperiment now) (withPathLoss created model exponent) := by
    refine (sameShape_defaultExperiment now created).covers.store fun b hb => ?_
    rw [get?_defaultExperiment_section now hsection, Option.some.injEq] at hb
    subst hb
    exact (((covers_default hsection).store_plain "model" rfl).store_plain "path_loss_exponent"
      rfl).ofDict
  rw [migrateLegacyConfig, if_pos hversioned, deepMerge_eq_self hcovers]

end

end Netlab.Experiment
