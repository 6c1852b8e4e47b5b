import Netlab.Algorithm.Shield
import Netlab.Link.Closer

/-!
# Soundness of the safety shield

In exact arithmetic, what the shield lets through keeps the limits of the configuration. Clamping
puts a target into the region (`inRegion_clampTarget`), and what a UAV can fly in one update lies on
the way from its position to the target (`stepTowards_spec`): so from a position in the region it
stays in the region. The checks that follow each say what an accepted decision has passed.

## Main results

* `applySafetyShield_sound`: what an accepted decision about positions guarantees.
-/

namespace Netlab

/-! ## Limits -/

/-- A point in the region that the shield projects into: the box of the service region when the
geofence is enabled, and otherwise all points between the altitudes. -/
structure ShieldLimits.InRegion (limits : ShieldLimits ℝ) (p : Vec3 ℝ) : Prop where
  altitude : p.z ∈ Set.Icc limits.bounds.minAlt limits.bounds.maxAlt
  fenced : limits.geofenceEnabled = true →
    p.x ∈ Set.Icc limits.bounds.minX limits.bounds.maxX ∧
      p.y ∈ Set.Icc limits.bounds.minY limits.bounds.maxY

/-- The limits that are read from a configuration allow some movement. -/
theorem shieldLimits_pos [PyText ℝ] {config : Dict String (Json ℝ)} {limits : ShieldLimits ℝ}
    (h : shieldLimits config = some limits) :
    0 < limits.updateRateHz ∧ 0 < limits.maxVertical ∧ 0 < limits.maxDistance := by
  simp only [shieldLimits, bind, pure, Option.bind_eq_some_iff, Option.some.injEq] at h
  obtain ⟨_, -, rate, -, speed, -, vertical, -, maxDistance, hdistance, _, -, _, -, _, -, rfl⟩ := h
  have hrate : (0 : ℝ) < PyFloat.max 0.1 rate := by
    rw [PyFloat.max_real]
    exact lt_max_of_lt_left (show (0 : ℝ) < 0.1 by norm_num)
  have hspeed : (0 : ℝ) < PyFloat.max 0.01 speed := by
    rw [PyFloat.max_real]
    exact lt_max_of_lt_left (show (0 : ℝ) < 0.01 by norm_num)
  have hvertical : (0 : ℝ) < PyFloat.max 0.01 vertical := by
    rw [PyFloat.max_real]
    exact lt_max_of_lt_left (show (0 : ℝ) < 0.01 by norm_num)
  rw [PyFloat.div_real hrate.ne'] at hdistance
  obtain rfl := Option.some.inj hdistance
  exact ⟨hrate, hvertical, div_pos hspeed hrate⟩

/-- Clamping to an interval that is not empty. -/
theorem clamp_mem (value : ℝ) {lower upper : ℝ} (h : lower ≤ upper) :
    clamp value lower upper ∈ Set.Icc lower upper := by
  rw [clamp, PyFloat.max_real, PyFloat.min_real]
  exact ⟨le_max_left _ _, max_le h (min_le_left _ _)⟩

/-- A value in the interval is not changed. -/
theorem clamp_of_mem {value lower upper : ℝ} (h : value ∈ Set.Icc lower upper) :
    clamp value lower upper = value := by
  rw [clamp, PyFloat.max_real, PyFloat.min_real, min_eq_right h.2, max_eq_right h.1]

/-- A region that is not empty contains what is clamped to it. -/
theorem inRegion_clampTarget {limits : ShieldLimits ℝ} {q : Vec3 ℝ} (hq : limits.InRegion q)
    (uavId : String) (target : Vec3 ℝ) : limits.InRegion (clampTarget limits uavId target).1 := by
  have hz := clamp_mem target.z (hq.altitude.1.trans hq.altitude.2)
  rw [clampTarget]
  dsimp only
  split
  · rename_i hfence
    obtain ⟨hqx, hqy⟩ := hq.fenced hfence
    have hx := clamp_mem target.x (hqx.1.trans hqx.2)
    have hy := clamp_mem target.y (hqy.1.trans hqy.2)
    split
    · rename_i heq
      simp only [Bool.and_eq_true, PyMotion.eq_real] at heq
      -- the target is returned as it is, having been in the region already
      obtain ⟨⟨hxeq, hyeq⟩, hzeq⟩ := heq
      rw [hxeq] at hx
      rw [hyeq] at hy
      rw [hzeq] at hz
      exact ⟨hz, fun _ => ⟨hx, hy⟩⟩
    · exact ⟨hz, fun _ => ⟨hx, hy⟩⟩
  · rename_i hfence
    split
    · rename_i heq
      rw [(PyMotion.eq_real _ _).mp heq] at hz
      exact ⟨hz, fun h => absurd h hfence⟩
    · exact ⟨hz, fun h => absurd h hfence⟩

/-- A target in the region is not moved, and there is nothing to say about it. -/
theorem clampTarget_of_inRegion {limits : ShieldLimits ℝ} {target : Vec3 ℝ}
    (h : limits.InRegion target) (uavId : String) :
    clampTarget limits uavId target = (target, []) := by
  rw [clampTarget]
  dsimp only
  rw [clamp_of_mem h.altitude]
  split
  · rename_i hfence
    obtain ⟨hx, hy⟩ := h.fenced hfence
    rw [clamp_of_mem hx, clamp_of_mem hy]
    exact if_pos (by simp [PyMotion.eq_real])
  · exact if_pos ((PyMotion.eq_real _ _).mpr rfl)

/-- The region is convex, coordinate by coordinate. -/
theorem ShieldLimits.InRegion.between {limits : ShieldLimits ℝ} {a b p : Vec3 ℝ}
    (ha : limits.InRegion a) (hb : limits.InRegion b) (hp : Vec3.Between a b p) :
    limits.InRegion p := by
  refine ⟨Set.uIcc_subset_Icc ha.altitude hb.altitude hp.z, fun hfence => ?_⟩
  exact ⟨Set.uIcc_subset_Icc (ha.fenced hfence).1 (hb.fenced hfence).1 hp.x,
    Set.uIcc_subset_Icc (ha.fenced hfence).2 (hb.fenced hfence).2 hp.y⟩

/-! ## Steps -/

/-- The length of a step. -/
theorem sqrt_step (current target : Vec3 ℝ) :
    PyMotion.sqrt (PyFloat.sum [(target.x - current.x) * (target.x - current.x),
      (target.y - current.y) * (target.y - current.y),
      (target.z - current.z) * (target.z - current.z)]) = target.dist current := by
  rw [PyFloat.sum_real, PyMotion.sqrt_real, Vec3.dist_real]
  congr 1
  simp only [List.sum_cons, List.sum_nil]
  ring

/-- A step of limited length leads to a point on the way, and not farther than the limit. -/
theorem projectStep_spec {current target p : Vec3 ℝ} {maxDistance : ℝ} (hmax : 0 ≤ maxDistance)
    (h : projectStep current target maxDistance = some p) :
    Vec3.Between current target p ∧ p.dist current ≤ max 1e-12 maxDistance := by
  rw [projectStep] at h
  rw [sqrt_step, PyFloat.le_real, PyFloat.le_real, ← Bool.decide_or, ite_eq_iff] at h
  rcases h with ⟨hnear, h⟩ | ⟨hfar, h⟩
  · obtain rfl := Option.some.inj h
    rcases of_decide_eq_true hnear with hle | hle
    · exact ⟨.right _ _, le_max_of_le_right hle⟩
    · exact ⟨.right _ _, le_max_of_le_left hle⟩
  · rw [decide_eq_true_eq, not_or, not_le, not_le] at hfar
    have hpos : 0 < target.dist current := lt_of_le_of_lt hmax hfar.1
    rw [PyFloat.div_real hpos.ne'] at h
    obtain rfl := Option.some.inj h
    have hscale : 0 ≤ maxDistance / target.dist current := div_nonneg hmax hpos.le
    refine ⟨.scale _ _ hscale ((div_le_one hpos).mpr hfar.1.le), le_max_of_le_right ?_⟩
    refine (Vec3.dist_scale current target hscale).le.trans ?_
    rw [mul_div_cancel₀ _ hpos.ne']

/-- A step that is short enough leads to its target. -/
theorem projectStep_of_near {current target : Vec3 ℝ} {maxDistance : ℝ}
    (h : target.dist current ≤ max 1e-12 maxDistance) :
    projectStep current target maxDistance = some target := by
  rw [projectStep]
  rw [sqrt_step, PyFloat.le_real, PyFloat.le_real]
  refine if_pos ?_
  rcases le_max_iff.mp h with hle | hle
  · simp [hle]
  · simp [hle]

/-- What a UAV can fly in one update lies on the way to the target, within the limits. -/
theorem stepTowards_spec {limits : ShieldLimits ℝ} {current target p : Vec3 ℝ}
    (hrate : 0 < limits.updateRateHz) (hvertical : 0 < limits.maxVertical)
    (hmax : 0 < limits.maxDistance) (h : stepTowards limits current target = some p) :
    Vec3.Between current target p ∧ p.dist current ≤ max 1e-12 limits.maxDistance ∧
      |p.z - current.z| ≤ limits.maxVertical / limits.updateRateHz := by
  obtain ⟨stepped, hstepped, h⟩ := Option.bind_eq_some_iff.mp h
  obtain ⟨hbetween, hdist⟩ := projectStep_spec hmax.le hstepped
  dsimp only at h
  rw [PyFloat.div_real hrate.ne'] at h
  have hstep : 0 < limits.maxVertical / limits.updateRateHz := div_pos hvertical hrate
  obtain h := Option.some.inj h
  rw [PyFloat.lt_real, PyMotion.abs_real, PyMotion.copysign_real, abs_of_pos hstep] at h
  split at h
  · rename_i hfast
    rw [decide_eq_true_eq] at hfast
    -- the altitude moves in the same direction, but less far
    have hz : p.z ∈ Set.uIcc current.z stepped.z ∧
        |p.z - current.z| = limits.maxVertical / limits.updateRateHz := by
      rw [← h]
      dsimp only
      split
      · rename_i hdown
        rw [abs_of_neg hdown] at hfast
        refine ⟨Set.mem_uIcc.mpr (Or.inr ⟨by linarith, by linarith⟩), ?_⟩
        rw [add_sub_cancel_left, abs_neg, abs_of_pos hstep]
      · rename_i hup
        rw [abs_of_nonneg (not_lt.mp hup)] at hfast
        refine ⟨Set.mem_uIcc.mpr (Or.inl ⟨by linarith, by linarith⟩), ?_⟩
        rw [add_sub_cancel_left, abs_of_pos hstep]
    have hp : Vec3.Between current stepped p := by
      refine ⟨?_, ?_, hz.1⟩
      · rw [← h]; exact Set.right_mem_uIcc
      · rw [← h]; exact Set.right_mem_uIcc
    exact ⟨hbetween.trans hp, hp.dist_le.trans hdist, hz.2.le⟩
  · rename_i hslow
    rw [decide_eq_true_eq, not_lt] at hslow
    obtain rfl := h
    exact ⟨hbetween, hdist, hslow⟩

/-! ## What the checks say when they find nothing -/

section

variable {F : Type} [PyText F]

/-- A list of issues none of which is an error. -/
def Harmless (issues : List (ShieldIssue F)) : Prop :=
  ∀ issue ∈ issues, issue.isError = false

variable [PyFloat F]

omit [PyText F] in
/-- Pairs of UAVs are far enough apart when none of them is an issue. -/
theorem pairwise_of_harmless {minSeparation : F} {fleet : List (String × Vec3 F)}
    (h : Harmless (separationIssues minSeparation fleet)) :
    fleet.Pairwise fun a b => PyFloat.lt (a.2.dist b.2 + 1e-9) minSeparation = false := by
  induction fleet with
  | nil => exact .nil
  | cons first rest ih =>
      rw [separationIssues] at h
      refine List.pairwise_cons.mpr ⟨fun second hsecond => ?_, ih fun issue hissue =>
        h issue (List.mem_append_right _ hissue)⟩
      by_contra hclose
      rw [Bool.not_eq_false] at hclose
      have herror := h _ (List.mem_append_left _ (List.mem_filterMap.mpr
        ⟨second, hsecond, if_pos hclose⟩))
      simp [ShieldIssue.isError] at herror

/-- A commanded UAV has enough charge when its battery is no issue. -/
theorem charged_of_harmless {reserve : F} {uavs : Dict String (Dict String (Json F))}
    {normalized : Dict String (Vec3 F)} {lowBattery : List (ShieldIssue F)}
    (h : batteryIssues reserve uavs normalized = some lowBattery) (hfree : Harmless lowBattery)
    {id : String} {p : Vec3 F} (hp : normalized.get? id = some p) :
    ∃ item soc, uavs.get? id = some item ∧ item.getFloat "battery_soc_pct" 100.0 = some soc ∧
      PyFloat.le soc reserve = false := by
  obtain ⟨issues, hissues, h⟩ := Option.bind_eq_some_iff.mp h
  obtain rfl := Option.some.inj h
  obtain ⟨own, hown⟩ := List.exists_mapM_eq_some_iff.mp ⟨issues, hissues⟩ (id, p)
    (Dict.get?_eq_some_iff.mp hp)
  have hmem : own ∈ issues :=
    (List.mem_mapM_iff hissues).mpr ⟨(id, p), Dict.get?_eq_some_iff.mp hp, hown⟩
  obtain ⟨item, hitem, hown⟩ := Option.bind_eq_some_iff.mp hown
  obtain ⟨soc, hsoc, hown⟩ := Option.bind_eq_some_iff.mp hown
  refine ⟨item, soc, hitem, hsoc, ?_⟩
  by_contra hlow
  rw [Bool.not_eq_false] at hlow
  rw [if_pos hlow] at hown
  have herror := hfree _ (List.mem_flatten.mpr ⟨own, hmem, by
    rw [← Option.some.inj hown]; exact List.mem_singleton_self _⟩)
  simp [ShieldIssue.isError] at herror

/-- The link between two entities passes the feasibility gate at the given positions. -/
def PassesGate (propagation : Propagation F) (stamp : LinkStamp F)
    (positions : Dict String (Vec3 F)) (config : Dict String (Json F))
    (uavs : Dict String (Dict String (Json F))) (src dst : String) : Prop :=
  ∃ txPosition rxPosition request metrics thresholds,
    (entityPositions positions config).get? src = some txPosition ∧
      (entityPositions positions config).get? dst = some rxPosition ∧
      previewRequest config src dst txPosition rxPosition = some request ∧
      computeAnalyticalLink propagation stamp.freshId stamp.computedAt request = some metrics ∧
      previewThresholds config = some thresholds ∧
      (evaluateFeasibility (some metrics) (previewEndpoints config uavs src dst) thresholds
        stamp.decidedAt).feasible = true

/-- A feasible preview of an edge. -/
theorem passesGate_of_previewEdge {propagation : Propagation F} {stamp : LinkStamp F}
    {positions : Dict String (Vec3 F)} {config : Dict String (Json F)}
    {uavs : Dict String (Dict String (Json F))} {src dst : String} {preview : LinkPreview F}
    (h : previewEdge propagation stamp positions config uavs src dst = some preview)
    (hfeasible : preview.feasible = true) :
    PassesGate propagation stamp positions config uavs src dst := by
  rw [previewEdge] at h
  split at h
  · rename_i txPosition rxPosition htx hrx
    obtain ⟨request, hrequest, h⟩ := Option.bind_eq_some_iff.mp h
    obtain ⟨metrics, hmetrics, h⟩ := Option.bind_eq_some_iff.mp h
    obtain ⟨thresholds, hthresholds, h⟩ := Option.bind_eq_some_iff.mp h
    obtain rfl := Option.some.inj h
    exact ⟨txPosition, rxPosition, request, metrics, thresholds, htx, hrx, hrequest, hmetrics,
      hthresholds, hfeasible⟩
  · obtain rfl := Option.some.inj h
    simp [LinkPreview.feasible] at hfeasible

/-- The preview of an edge that passes the gate. -/
theorem previewEdge_of_passesGate {propagation : Propagation F} {stamp : LinkStamp F}
    {positions : Dict String (Vec3 F)} {config : Dict String (Json F)}
    {uavs : Dict String (Dict String (Json F))} {src dst : String}
    (h : PassesGate propagation stamp positions config uavs src dst) :
    ∃ preview, previewEdge propagation stamp positions config uavs src dst = some preview ∧
      preview.feasible = true := by
  obtain ⟨txPosition, rxPosition, request, metrics, thresholds, htx, hrx, hrequest, hmetrics,
    hthresholds, hfeasible⟩ := h
  simp only [previewEdge, htx, hrx, hrequest, hmetrics, hthresholds, bind, pure, Option.bind_some]
  exact ⟨_, rfl, hfeasible⟩

/-- When the preview finds every edge feasible, every edge passes the gate. -/
theorem passesGate_of_connectivityPreview {propagation : Propagation F} {stamps : ℕ → LinkStamp F}
    {positions : Dict String (Vec3 F)} {config : Dict String (Json F)}
    {uavs : Dict String (Dict String (Json F))} {results : List (LinkPreview F)}
    (h : connectivityPreview propagation stamps positions config uavs = some (results, true)) :
    ∃ edges, topologyEdges (Experiment.mappingOrEmpty config "topology") = some edges ∧
      ∀ (i : ℕ) (src dst : String), edges[i]? = some (src, dst) →
        PassesGate propagation (stamps i) positions config uavs src dst := by
  obtain ⟨edges, hedges, h⟩ := Option.bind_eq_some_iff.mp h
  obtain ⟨previews, hpreviews, h⟩ := Option.bind_eq_some_iff.mp h
  obtain ⟨rfl, hall⟩ := Prod.mk.injEq .. ▸ Option.some.inj h
  refine ⟨edges, hedges, fun i src dst hedge => ?_⟩
  have hmem : ((src, dst), i) ∈ edges.zipIdx := List.mem_zipIdx_iff_getElem?.mpr hedge
  obtain ⟨preview, hpreview⟩ := List.exists_mapM_eq_some_iff.mp ⟨_, hpreviews⟩ _ hmem
  have hpmem := (List.mem_mapM_iff hpreviews).mpr ⟨_, hmem, hpreview⟩
  exact passesGate_of_previewEdge hpreview (List.all_eq_true.mp hall _ hpmem)

/-- Where an operational UAV will be: where it is told to go, or else where it is. -/
def FliesAt (uavs : Dict String (Dict String (Json F))) (normalized : Dict String (Vec3 F))
    (id : String) (p : Vec3 F) : Prop :=
  ∃ item current, uavs.get? id = some item ∧ isOperational item = true ∧
    currentPosition item = some current ∧ p = (normalized.get? id).getD current

end

section

variable {F : Type} [PyText F] [PyMotion F]

/-- The positions that are checked are those of the operational UAVs. -/
theorem get?_completePositions {uavs : Dict String (Dict String (Json F))}
    {normalized complete : Dict String (Vec3 F)}
    (h : completePositions uavs normalized = some complete) (id : String) (p : Vec3 F) :
    complete.get? id = some p ↔ FliesAt uavs normalized id p := by
  rw [Dict.get?_of_traverse h, Option.bind_eq_some_iff]
  constructor
  · rintro ⟨item, hitem, hp⟩
    obtain ⟨current, hcurrent, hp⟩ := Option.bind_eq_some_iff.mp hp
    obtain ⟨huav, hoperational⟩ := get?_operationalUavs.mp hitem
    exact ⟨item, current, huav, hoperational, hcurrent, (Option.some.inj hp).symm⟩
  · rintro ⟨item, current, huav, hoperational, hcurrent, rfl⟩
    refine ⟨item, get?_operationalUavs.mpr ⟨huav, hoperational⟩, ?_⟩
    exact Option.bind_eq_some_iff.mpr ⟨current, hcurrent, rfl⟩

/-- The positions that are read from a map are named in it. -/
theorem mem_keys_of_normalizeVec3Items {fieldName : String} {items : List (String × Json F)}
    {normalized desired : Dict String (Vec3 F)}
    (h : normalizeVec3Items fieldName normalized items = some (.ok desired)) {id : String}
    {p : Vec3 F} (hp : desired.get? id = some p) :
    (∃ q, normalized.get? id = some q) ∨ id ∈ items.map Prod.fst := by
  induction items generalizing normalized with
  | nil =>
      obtain rfl := Except.ok.inj (Option.some.inj h)
      exact Or.inl ⟨p, hp⟩
  | cons item rest ih =>
      obtain ⟨entityId, raw⟩ := item
      rw [normalizeVec3Items.eq_def] at h
      split at h
      · simp at *
      · rename_i hcons
        obtain ⟨hitem, rfl⟩ := List.cons.inj hcons
        obtain ⟨rfl, rfl⟩ := Prod.mk.injEq .. ▸ hitem
        obtain ⟨x, -, h⟩ := Option.bind_eq_some_iff.mp h
        obtain ⟨y, -, h⟩ := Option.bind_eq_some_iff.mp h
        obtain ⟨z, -, h⟩ := Option.bind_eq_some_iff.mp h
        split at h
        · -- the entry is added under its id, over an earlier one of the same id
          rcases ih h with ⟨q, hq⟩ | hmem
          · rw [Dict.get?_set] at hq
            split at hq
            · rename_i hid
              exact Or.inr (by simp [hid])
            · exact Or.inl ⟨q, hq⟩
          · exact Or.inr (List.mem_cons_of_mem _ hmem)
        · simp at h
      · simp at h

end

/-! ## Soundness -/

section

variable [PyText ℝ]

/-- Where a UAV is sent lies in the region and can be reached in one update. -/
structure Reachable (limits : ShieldLimits ℝ) (current p : Vec3 ℝ) : Prop where
  inRegion : limits.InRegion p
  near : p.dist current ≤ max 1e-12 limits.maxDistance
  climb : |p.z - current.z| ≤ limits.maxVertical / limits.updateRateHz

/-- A UAV is only sent anywhere if it is operational, and then to where it can be in one update. -/
theorem commandUav_spec {config item : Dict String (Json ℝ)} {limits : ShieldLimits ℝ}
    {frame uavId : String} {target p : Vec3 ℝ} {command : Commanded ℝ}
    (hlimits : shieldLimits config = some limits)
    (h : commandUav limits frame uavId item target = some command) (hp : command.position = some p)
    (hinside : ∀ current, currentPosition item = some current → limits.InRegion current) :
    isOperational item = true ∧
      ∃ current, currentPosition item = some current ∧ Reachable limits current p := by
  obtain ⟨hrate, hvertical, hmax⟩ := shieldLimits_pos hlimits
  rw [commandUav] at h
  split at h
  · obtain rfl := Option.some.inj h
    simp at hp
  · rename_i hoperational
    obtain ⟨current, hcurrent, h⟩ := Option.bind_eq_some_iff.mp h
    split at h
    · obtain rfl := Option.some.inj h
      simp at hp
    · rename_i targetEnu _
      obtain ⟨stepped, hstepped, h⟩ := Option.bind_eq_some_iff.mp h
      obtain rfl := Option.some.inj h
      obtain rfl := Option.some.inj hp
      -- the step ends between the position and the corrected target, and the region is convex
      obtain ⟨hbetween, hnear, hclimb⟩ := stepTowards_spec hrate hvertical hmax hstepped
      have hcorrected := inRegion_clampTarget (hinside current hcurrent) uavId targetEnu
      exact ⟨by simpa using hoperational, current, hcurrent,
        ⟨(hinside current hcurrent).between hcorrected hbetween, hnear, hclimb⟩⟩

omit [PyText ℝ] in
/-- A target within reach is reached. -/
theorem stepTowards_of_reachable {limits : ShieldLimits ℝ} {current target : Vec3 ℝ}
    (hrate : 0 < limits.updateRateHz) (h : Reachable limits current target) :
    stepTowards limits current target = some target := by
  have hclimb : PyFloat.lt (limits.maxVertical / limits.updateRateHz)
      (PyMotion.abs (target.z - current.z)) = false := by
    rw [PyFloat.lt_real, PyMotion.abs_real]
    exact decide_eq_false h.climb.not_gt
  rw [stepTowards, projectStep_of_near h.near]
  simp only [Option.bind_eq_bind, Option.bind_some, PyFloat.div_real hrate.ne', hclimb,
    Bool.false_eq_true, if_false, Option.pure_def]

/-- A UAV is sent to a target in the region and within reach, without an issue. -/
theorem commandUav_of_reachable {limits : ShieldLimits ℝ} {frame uavId : String}
    {item : Dict String (Json ℝ)} {target targetEnu current : Vec3 ℝ}
    (hrate : 0 < limits.updateRateHz) (hoperational : isOperational item = true)
    (hcurrent : currentPosition item = some current) (hframe : enu target frame = .ok targetEnu)
    (h : Reachable limits current targetEnu) :
    commandUav limits frame uavId item target = some {
      issues := [], projected := false, position := some targetEnu } := by
  have hstill : PyFloat.lt 1e-9 (targetEnu.dist targetEnu) = false := by
    have hzero : targetEnu.dist targetEnu = 0 := by
      rw [Vec3.dist_real]
      simp
    rw [hzero, PyFloat.lt_real]
    exact decide_eq_false (by norm_num)
  rw [commandUav, hoperational]
  simp only [Bool.not_true, Bool.false_eq_true, if_false, hcurrent, Option.bind_eq_bind,
    Option.bind_some, hframe, clampTarget_of_inRegion h.inRegion,
    stepTowards_of_reachable hrate h, hstill, Option.pure_def, List.append_nil, List.isEmpty_nil,
    Bool.not_true, Bool.or_false]

/-- A review without errors is accepted. -/
theorem concludeReview_of_free {config controller : Dict String (Json ℝ)}
    {action : AlgorithmAction ℝ} {review : ShieldReview ℝ}
    (hcontroller : Experiment.section? (Experiment.mappingOrEmpty config "swarm") "controller" =
      some controller)
    (hfree : review.issues.any ShieldIssue.isError = false) :
    ∃ decision shielded, concludeReview config action review = some decision ∧
      decision.accepted = true ∧ decision.action = some shielded ∧
      shielded.payload.get? "desired_positions" = some (positionsJson review.normalized) := by
  rw [concludeReview, hcontroller]
  simp only [Option.bind_eq_bind, Option.bind_some, hfree]
  exact ⟨_, _, rfl, rfl, rfl, Dict.get?_set_self ..⟩

/-- Every UAV that an action commands is in the region before the step. -/
def StartsInRegion (action : AlgorithmAction ℝ) (snapshot config : Dict String (Json ℝ)) : Prop :=
  ∀ limits uavs commanded id item current, shieldLimits config = some limits →
    uavMap snapshot = some uavs →
    (action.payload.getD "desired_positions" .null).dict? = some commanded →
    id ∈ commanded.keys → uavs.get? id = some item → currentPosition item = some current →
    limits.InRegion current

/-- What an accepted decision about positions guarantees, of the positions that it sends out. -/
structure SafeOutput (propagation : Propagation ℝ) (stamps : ℕ → LinkStamp ℝ)
    (requireConnectivity : Bool) (config : Dict String (Json ℝ)) (limits : ShieldLimits ℝ)
    (reserve : ℝ) (uavs : Dict String (Dict String (Json ℝ)))
    (output : Dict String (Vec3 ℝ)) : Prop where
  /-- Each output is for an operational UAV with enough charge, in the region and within reach. -/
  commanded : ∀ id p, output.get? id = some p →
    ∃ item soc current, uavs.get? id = some item ∧ isOperational item = true ∧
      item.getFloat "battery_soc_pct" 100.0 = some soc ∧ reserve < soc ∧
      currentPosition item = some current ∧ Reachable limits current p
  /-- Any two operational UAVs keep the separation. -/
  separated : ∀ a b p q, a ≠ b → FliesAt uavs output a p → FliesAt uavs output b q →
    limits.minSeparation - 1e-9 ≤ p.dist q
  /-- Where connectivity is required, every edge of the topology passes the gate. -/
  connected : requireConnectivity = true →
    ∃ complete edges, (∀ id p, complete.get? id = some p ↔ FliesAt uavs output id p) ∧
      topologyEdges (Experiment.mappingOrEmpty config "topology") = some edges ∧
      ∀ (i : ℕ) (src dst : String), edges[i]? = some (src, dst) →
        PassesGate propagation (stamps i) complete config uavs src dst

omit [PyText ℝ] in
/-- Positions in which no pair is an issue are separated, in whichever order they are listed. -/
theorem separated_of_harmless {minSeparation : ℝ} {complete : Dict String (Vec3 ℝ)}
    (h : Harmless (separationIssues minSeparation
      (complete.entries.insertionSort fun a b => a.1 ≤ b.1)))
    {a b : String} {p q : Vec3 ℝ} (hne : a ≠ b) (ha : complete.get? a = some p)
    (hb : complete.get? b = some q) : minSeparation - 1e-9 ≤ p.dist q := by
  let Far (e f : String × Vec3 ℝ) : Prop := minSeparation ≤ e.2.dist f.2 + 1e-9
  have hsymm : Std.Symm Far := ⟨fun e f hef => by
    show minSeparation ≤ f.2.dist e.2 + 1e-9
    rw [Vec3.dist_comm]
    exact hef⟩
  have hfar : (complete.entries.insertionSort fun a b => a.1 ≤ b.1).Pairwise Far :=
    (pairwise_of_harmless h).imp fun hlt => by simpa using hlt
  have hpq := hfar.forall ((List.mem_insertionSort _).mpr (Dict.get?_eq_some_iff.mp ha))
    ((List.mem_insertionSort _).mpr (Dict.get?_eq_some_iff.mp hb))
    (fun heq => hne (congrArg Prod.fst heq))
  exact sub_le_iff_le_add.mpr hpq

/-- In exact arithmetic, if each UAV that an action commands is in the region, an accepted decision
sends operational UAVs with enough charge to positions in the region and within reach, keeps every
two operational UAVs separated, and keeps the required links. -/
theorem applySafetyShield_sound {propagation : Propagation ℝ} {now : ℝ} {stamps : ℕ → LinkStamp ℝ}
    {requireConnectivity : Bool} {action : AlgorithmAction ℝ}
    {snapshot config : Dict String (Json ℝ)} {decision : ShieldDecision ℝ}
    (h : applySafetyShield propagation now stamps requireConnectivity action snapshot config =
      some decision)
    (haccepted : decision.accepted = true)
    (hpositions : action.payload.getD "desired_positions" .null ≠ .null)
    (hinside : StartsInRegion action snapshot config) :
    ∃ limits uavs reserve output shielded,
      shieldLimits config = some limits ∧ uavMap snapshot = some uavs ∧
        batteryReserve config = some reserve ∧ decision.action = some shielded ∧
        shielded.payload.get? "desired_positions" = some (positionsJson output) ∧
        SafeOutput propagation stamps requireConnectivity config limits reserve uavs output := by
  cases decidedBy_of_applySafetyShield h with
  | refused issues _ hrefusal => simp [(refuseEarly_spec hrefusal).1] at haccepted
  | untouched _ habsent _ => exact absurd habsent hpositions
  | reviewed uavs desired review _ hfleet hdesired hresult hconclusion =>
      rcases concludeReview_spec hconclusion with
        ⟨-, hrejected, -⟩ | ⟨hharmless, -, -, shielded, hshielded, -, hpayload⟩
      · simp [hrejected] at haccepted
      obtain ⟨limits, commands, complete, reserve, lowBattery, connected, hparts⟩ :=
        reviewPositions_spec hresult
      have hfree : ∀ issue ∈ review.issues, issue.isError = false := by
        simpa using hharmless
      rw [hparts.issues_eq] at hfree
      refine ⟨limits, uavs, reserve, review.normalized, shielded, hparts.limits_eq, hfleet,
        hparts.reserve_eq, hshielded, by rw [hpayload, Dict.get?_set_self], ?_, ?_, ?_⟩
      · -- every returned position belongs to a charged, operational UAV that can reach it
        intro id p hp
        obtain ⟨item, soc, hitem, hsoc, hcharged⟩ := charged_of_harmless hparts.lowBattery_eq
          (fun issue hissue => hfree issue (by simp [hissue])) hp
        rw [hparts.normalized_eq, Dict.get?_filterMap] at hp
        obtain ⟨command, hcommand, hp⟩ := Option.bind_eq_some_iff.mp hp
        rw [Dict.get?_of_traverse hparts.commands_eq, Dict.get?_restrict] at hcommand
        obtain ⟨target, htarget, hcommand⟩ := Option.bind_eq_some_iff.mp hcommand
        obtain ⟨item', hitem', hcommand⟩ := Option.bind_eq_some_iff.mp hcommand
        obtain rfl := Option.some.inj (hitem.symm.trans hitem')
        have htarget : desired.get? id = some target := by
          split at htarget
          · exact htarget
          · simp at htarget
        obtain ⟨hoperational, current, hcurrent, hreach⟩ := commandUav_spec hparts.limits_eq
          hcommand hp fun current hcurrent => by
            rw [normalizeVec3Map] at hdesired
            split at hdesired
            · rename_i commanded hcommanded
              have hkey : id ∈ commanded.keys :=
                (mem_keys_of_normalizeVec3Items hdesired htarget).resolve_left (by simp)
              exact hinside limits uavs commanded id item current hparts.limits_eq hfleet hcommanded
                hkey hitem hcurrent
            · simp at hdesired
        exact ⟨item, soc, current, hitem, hoperational, hsoc, by simpa using hcharged, hcurrent,
          hreach⟩
      · -- two returned positions are far enough apart
        intro a b p q hne ha hb
        refine separated_of_harmless (fun issue hissue => hfree issue (by simp [hissue])) hne
          ((get?_completePositions hparts.complete_eq a p).mpr ha)
          ((get?_completePositions hparts.complete_eq b q).mpr hb)
      · -- the links that are required are feasible
        intro hrequired
        have hconnected : connected = true := by
          by_contra hbroken
          have := hfree (connectivityIssue review.linkPreview) (by simp [hrequired, hbroken])
          simp [connectivityIssue, ShieldIssue.isError] at this
        have hpreview := hparts.preview_eq
        rw [hconnected] at hpreview
        obtain ⟨edges, hedges, hgate⟩ := passesGate_of_connectivityPreview hpreview
        exact ⟨complete, edges, get?_completePositions hparts.complete_eq, hedges, hgate⟩

end

/-! ## Two UAVs and a link -/

section

attribute [local instance] PyText.exact

/-- A record of a UAV that hovers at an altitude of ten metres. -/
noncomputable def hovering (id : String) (x y : ℝ) : Dict String (Json ℝ) :=
  .ofList [("id", .str id), ("position", .arr [.float x, .float y, .float 10.0]),
    ("battery_soc_pct", .float 80.0)]

/-- Two UAVs that hover thirty metres apart. -/
noncomputable def hoveringPair : Dict String (Dict String (Json ℝ)) :=
  .ofList [("drone_1", hovering "drone_1" 0 0), ("drone_2", hovering "drone_2" 1 30.0)]

/-- A snapshot of the two UAVs. -/
noncomputable def pairFleet : Dict String (Json ℝ) :=
  .ofList [("uavs", .arr [.ofDict (hovering "drone_1" 0 0), .ofDict (hovering "drone_2" 1 30.0)])]

/-- A fence of two hundred metres, and a link between the two UAVs that has to be kept. -/
noncomputable def fencedConfig : Dict String (Json ℝ) :=
  .ofList [
    ("service_region", .obj [("length_m", .float 200.0), ("width_m", .float 200.0),
      ("min_altitude_m", .float 5.0), ("max_altitude_m", .float 60.0),
      ("geofence_enabled", .bool true)]),
    ("swarm", .obj [("controller", .obj [("update_rate_hz", .float 10.0)]),
      ("max_horizontal_speed_mps", .float 10.0), ("minimum_separation_m", .float 5.0),
      ("energy", .obj [("reserve_soc_pct", .float 25.0)])]),
    ("communication", .obj [("bandwidth_hz", .float 1e7), ("min_snr_db", .float 6.0)]),
    ("topology", .obj [("mode", .str "manual"),
      ("manual_edges", .arr [.obj [("src", .str "drone_1"), ("dst", .str "drone_2")]])])]

/-- Targets: one far outside the fence, the other where the second UAV is. -/
noncomputable def farTargets : Json ℝ :=
  .obj [("drone_1", .arr [.float 500.0, .float 0, .float 10.0]),
    ("drone_2", .arr [.float 1, .float 30.0, .float 10.0])]

/-- The action that asks for them. -/
noncomputable def farAction : AlgorithmAction ℝ where
  algorithmId := "line_policy"
  algorithmVersion := "1.0.0"
  sourceRevisionId := "rev-1"
  timestampS := 0
  validityHorizonS := 1
  coordinateFrame := "ENU"
  units := .empty
  payload := .ofList [("desired_positions", farTargets)]
  computationDurationS := 0

/-- The analytical models, without a draw. -/
noncomputable def noShadowing : Propagation ℝ := .analytical fun _ _ => 0

/-- The limits of the configuration: a UAV flies at most a metre in one update. -/
noncomputable def fencedLimits : ShieldLimits ℝ where
  updateRateHz := 10.0
  maxVertical := 4.0
  maxDistance := 1
  minSeparation := 5.0
  bounds := ⟨-100.0, 100.0, -100.0, 100.0, 5.0, 60.0⟩
  geofenceEnabled := true

/-- They are read from it. -/
theorem shieldLimits_fenced : shieldLimits fencedConfig = some fencedLimits := by
  have hbounds : serviceBounds fencedConfig = some fencedLimits.bounds := by
    show (do
      let halfLength ← PyFloat.div (PyFloat.max 1.0 200.0) (2.0 : ℝ)
      let halfWidth ← PyFloat.div (PyFloat.max 1.0 200.0) (2.0 : ℝ)
      return (⟨0.0 - halfLength, 0.0 + halfLength, 0.0 - halfWidth, 0.0 + halfWidth, 5.0, 60.0⟩ :
        ServiceBounds ℝ)) = _
    rw [PyFloat.div_real (by norm_num), PyFloat.max_real]
    simp [fencedLimits]
    norm_num
  show (do
    let maxDistance ← PyFloat.div (PyFloat.max 0.01 10.0) (PyFloat.max 0.1 10.0 : ℝ)
    let bounds ← serviceBounds fencedConfig
    return ({
      updateRateHz := PyFloat.max 0.1 10.0, maxVertical := PyFloat.max 0.01 4.0, maxDistance
      minSeparation := PyFloat.max 0.0 5.0, bounds, geofenceEnabled := true } :
        ShieldLimits ℝ)) = _
  have hrate : (PyFloat.max 0.1 10.0 : ℝ) = 10.0 := by rw [PyFloat.max_real]; norm_num
  have hspeed : (PyFloat.max 0.01 10.0 : ℝ) = 10.0 := by rw [PyFloat.max_real]; norm_num
  have hvertical : (PyFloat.max 0.01 4.0 : ℝ) = 4.0 := by rw [PyFloat.max_real]; norm_num
  have hseparation : (PyFloat.max 0.0 5.0 : ℝ) = 5.0 := by rw [PyFloat.max_real]; norm_num
  rw [hrate, hspeed, hvertical, hseparation, PyFloat.div_real (by norm_num), hbounds]
  simp [fencedLimits]
  norm_num

/-- What is at the altitude of the UAVs and behind the fence is in the region. -/
theorem inRegion_hovering {x y : ℝ} (hx : |x| ≤ 100.0) (hy : |y| ≤ 100.0) :
    fencedLimits.InRegion ⟨x, y, 10.0⟩ := by
  refine ⟨⟨?_, ?_⟩, fun _ => ⟨abs_le.mp hx, abs_le.mp hy⟩⟩
  · show (5.0 : ℝ) ≤ 10.0
    norm_num
  · show (10.0 : ℝ) ≤ 60.0
    norm_num

/-- A target outside the fence is clamped to it. -/
theorem clampTarget_far :
    (clampTarget fencedLimits "drone_1" ⟨500.0, 0, 10.0⟩).1 = ⟨100.0, 0, 10.0⟩ ∧
      Harmless (clampTarget fencedLimits "drone_1" ⟨500.0, 0, 10.0⟩).2 := by
  have hx : clamp 500.0 fencedLimits.bounds.minX fencedLimits.bounds.maxX = (100.0 : ℝ) := by
    rw [clamp, PyFloat.max_real, PyFloat.min_real]
    show max (-100.0 : ℝ) (min 100.0 500.0) = 100.0
    norm_num
  -- the other coordinates are not changed
  have hedge : fencedLimits.InRegion ⟨100.0, 0, 10.0⟩ :=
    inRegion_hovering (by norm_num) (by norm_num)
  have hy := clamp_of_mem (hedge.fenced rfl).2
  have hz := clamp_of_mem hedge.altitude
  have hmoved : PyMotion.eq (100.0 : ℝ) 500.0 = false := by
    rw [← Bool.not_eq_true, PyMotion.eq_real]
    norm_num
  have hfenced : fencedLimits.geofenceEnabled = true := rfl
  rw [clampTarget]
  simp only [hx, hy, hz, hmoved, hfenced, Bool.false_and, if_true]
  exact ⟨rfl, fun issue hissue => by rw [List.mem_singleton.mp hissue]; rfl⟩

/-- Towards the fence a hundred metres away the UAV flies one metre. -/
theorem stepTowards_far :
    stepTowards fencedLimits ⟨0, 0, 10.0⟩ ⟨100.0, 0, 10.0⟩ = some ⟨1, 0, 10.0⟩ := by
  have hdistance : (⟨100.0, 0, 10.0⟩ : Vec3 ℝ).dist ⟨0, 0, 10.0⟩ = 100.0 := by
    have hsquare : ((100.0 : ℝ) - 0) ^ 2 + (0 - 0) ^ 2 + (10.0 - 10.0) ^ 2 = 100.0 ^ 2 := by
      norm_num
    rw [Vec3.dist_real, hsquare]
    exact Real.sqrt_sq (by norm_num)
  have hfar : (PyFloat.le (100.0 : ℝ) 1 || PyFloat.le (100.0 : ℝ) 1e-12) = false := by
    rw [PyFloat.le_real, PyFloat.le_real, Bool.or_eq_false_iff, decide_eq_false_iff_not,
      decide_eq_false_iff_not]
    norm_num
  have hproject : projectStep (⟨0, 0, 10.0⟩ : Vec3 ℝ) ⟨100.0, 0, 10.0⟩ 1 = some ⟨1, 0, 10.0⟩ := by
    rw [projectStep]
    rw [sqrt_step, hdistance, hfar, PyFloat.div_real (by norm_num)]
    -- the step is scaled down to a hundredth
    norm_num
  -- the altitude stays the same
  have hlevel : PyFloat.lt (4.0 / 10.0 : ℝ) (PyMotion.abs (10.0 - 10.0)) = false := by
    rw [PyFloat.lt_real, PyMotion.abs_real, decide_eq_false_iff_not]
    norm_num
  show (do
    let stepped ← projectStep (⟨0, 0, 10.0⟩ : Vec3 ℝ) ⟨100.0, 0, 10.0⟩ 1
    let maxVerticalStep ← PyFloat.div 4.0 (10.0 : ℝ)
    return if PyFloat.lt maxVerticalStep (PyMotion.abs (stepped.z - 10.0)) then
      { stepped with z := 10.0 + PyMotion.copysign maxVerticalStep (stepped.z - 10.0) }
      else stepped) = _
  simp only [hproject, PyFloat.div_real (show (10.0 : ℝ) ≠ 0 by norm_num), Option.bind_eq_bind,
    Option.bind_some, hlevel]
  rfl

/-- The UAV whose target is outside the fence is sent one metre towards it. -/
theorem commandUav_far : ∃ command,
    commandUav fencedLimits "ENU" "drone_1" (hovering "drone_1" 0 0) ⟨500.0, 0, 10.0⟩ =
      some command ∧ command.position = some ⟨1, 0, 10.0⟩ ∧ Harmless command.issues := by
  obtain ⟨hcorrected, hissues⟩ := clampTarget_far
  have hoperational : isOperational (hovering "drone_1" 0 0) = true := rfl
  have hcurrent : currentPosition (hovering "drone_1" 0 0) = some ⟨0, 0, 10.0⟩ := rfl
  have henu : enu (⟨500.0, 0, 10.0⟩ : Vec3 ℝ) "ENU" = .ok ⟨500.0, 0, 10.0⟩ := rfl
  rw [commandUav, hoperational, hcurrent]
  simp only [Bool.not_true, Bool.false_eq_true, if_false, Option.bind_eq_bind, Option.bind_some,
    henu, hcorrected, stepTowards_far]
  refine ⟨_, rfl, rfl, fun issue hissue => ?_⟩
  rcases List.mem_append.mp hissue with hmem | hmem
  · exact hissues issue hmem
  · split at hmem
    · rw [List.mem_singleton.mp hmem]
      rfl
    · cases hmem

/-- Where the second UAV is, it can stay. -/
theorem reachable_held : Reachable fencedLimits ⟨1, 30.0, 10.0⟩ ⟨1, 30.0, 10.0⟩ := by
  refine ⟨inRegion_hovering (by norm_num) (by norm_num), ?_, ?_⟩
  · have hzero : (⟨1, 30.0, 10.0⟩ : Vec3 ℝ).dist ⟨1, 30.0, 10.0⟩ = 0 := by simp [Vec3.dist_real]
    rw [hzero]
    positivity
  · show |(10.0 : ℝ) - 10.0| ≤ 4.0 / 10.0
    norm_num

/-- A clock that stands still. -/
noncomputable def stoppedClock (_ : ℕ) : LinkStamp ℝ := ⟨"", 0, 0⟩

/-- Where the shield sends the two UAVs. -/
noncomputable def steppedPair : Dict String (Vec3 ℝ) :=
  .ofList [("drone_1", ⟨1, 0, 10.0⟩), ("drone_2", ⟨1, 30.0, 10.0⟩)]

/-- The two UAVs end up thirty metres apart. -/
theorem dist_pair : (⟨1, 0, 10.0⟩ : Vec3 ℝ).dist ⟨1, 30.0, 10.0⟩ = 30.0 := by
  have hsquare : ((1 : ℝ) - 1) ^ 2 + (0 - 30.0) ^ 2 + (10.0 - 10.0) ^ 2 = 30.0 ^ 2 := by norm_num
  rw [Vec3.dist_real, hsquare]
  exact Real.sqrt_sq (by norm_num)

/-- The link between the two UAVs. -/
noncomputable def pairRequest : LinkRequest ℝ where
  src := "drone_1"
  dst := "drone_2"
  txPosition := (⟨1, 0, 10.0⟩ : Vec3 ℝ).toJson
  rxPosition := (⟨1, 30.0, 10.0⟩ : Vec3 ℝ).toJson
  frequencyHz := 3.5e9
  bandwidthHz := 1e7
  txPowerDbm := 23.0
  receiverNoiseFigureDb := 7.0
  implementationLossDb := 2.0
  txGainDbi := 0.0
  rxGainDbi := 0.0
  txCableLossDb := 0.0
  rxCableLossDb := 0.0
  pathLossExponent := 2.0
  shadowingSigmaDb := 0.0
  interferenceMarginDb := 0.0
  model := "free_space"
  spectralEfficiencyFactor := 0.75
  seed := 0
  referenceDistanceM := 1.0
  atmosphericLossDb := 0.0
  rainLossDb := 0.0
  foliageLossDb := 0.0
  clutterLossDb := 0.0
  blockageLossDb := 0.0
  polarizationLossDb := 0.0
  miscellaneousLossDb := 0.0
  requestId := ""

/-- Over thirty metres free space costs at most 80 dB. -/
theorem freeSpacePathLossDb_pair :
    ∃ loss, freeSpacePathLossDb 30.0 3.5e9 = some loss ∧ loss ≤ (80.0 : ℝ) := by
  refine ⟨_, freeSpacePathLossDb_eq_some_iff.mpr ⟨by norm_num, by norm_num, rfl⟩, ?_⟩
  rw [cMps]
  have hle : 4 * Real.pi * 30.0 / (299792458.0 / 3.5e9) ≤ (10 : ℝ) ^ (4 : ℝ) := by
    have hpi := Real.pi_le_four
    norm_num
    linarith
  have hlog : Real.logb 10 (4 * Real.pi * 30.0 / (299792458.0 / 3.5e9)) ≤ 4 :=
    (Real.logb_le_iff_le_rpow (by norm_num) (by positivity)).mpr hle
  linarith

/-- The signal of the link. -/
theorem receivedSignal_pair : ∃ signal, receivedSignal noShadowing pairRequest = some signal ∧
    signal.distanceM = 30.0 ∧ -59 ≤ signal.rxPowerDbm := by
  obtain ⟨loss, hloss, hle⟩ := freeSpacePathLossDb_pair
  have hdistance : linkDistance pairRequest = some 30.0 := by
    have hread : linkDistance pairRequest =
        some (PyFloat.max 1e-3 ((⟨1, 0, 10.0⟩ : Vec3 ℝ).dist ⟨1, 30.0, 10.0⟩)) := rfl
    rw [hread, dist_pair, PyFloat.max_real]
    norm_num
  have hmodel : analyticalPathLoss pairRequest 30.0 = some (loss, "free_space") := by
    have hname : PyText.strip ℝ (PyText.lower ℝ pairRequest.model) = "free_space" := by
      decide +kernel
    have hfree : "free_space" ∈ freeSpaceModels := by decide
    have hfrequency : pairRequest.frequencyHz = 3.5e9 := rfl
    rw [analyticalPathLoss, hname, hfrequency, hloss]
    simp [hfree]
  have hsigma : pairRequest.shadowingSigmaDb = 0 := by
    show (0.0 : ℝ) = 0
    norm_num
  refine ⟨_, (receivedSignal_eq_some_iff hsigma).mpr ⟨30.0, _, hdistance, hmodel, rfl⟩, rfl, ?_⟩
  -- of the losses only that of the path and the implementation's 2 dB are not zero
  rw [PyFloat.sum_real]
  show (-59 : ℝ) ≤ 23.0 + 0.0 + 0.0 -
    [loss, 0.0, 0.0, 0.0, 0.0, 0.0, 0.0, 0.0, 0.0, 0.0, 2.0, 0.0].sum
  norm_num
  linarith

/-- The link between the two UAVs has a margin of more than thirty decibels. -/
theorem computeAnalyticalLink_pair : ∃ metrics,
    computeAnalyticalLink noShadowing "" 0 pairRequest = some metrics ∧
      metrics.timestampWallS = 0 ∧ metrics.distanceM = 30.0 ∧ 38 ≤ metrics.snrDb ∧
      metrics.sinrDb = some metrics.snrDb ∧ 7.5 ≤ metrics.capacityMbps := by
  obtain ⟨signal, hsignal, hdistance, hpower⟩ := receivedSignal_pair
  have hnoise : thermalNoiseDbm pairRequest.bandwidthHz pairRequest.receiverNoiseFigureDb =
      some (-97) := thermalNoiseDbm_wide
  have hcapacity := capacityAt_real pairRequest.spectralEfficiencyFactor pairRequest.bandwidthHz
    (signal.rxPowerDbm - -97 - pairRequest.interferenceMarginDb)
  obtain ⟨metrics, hmetrics⟩ := exists_computeAnalyticalLink "" 0 hsignal hnoise hcapacity
  obtain ⟨signal', noise, sinrDb, hsignal', hnoise', hdistance', -, hsnr, hsinr, hsinrDb,
    hcapacity', hat⟩ := computeAnalyticalLink_spec hmetrics
  obtain rfl := Option.some.inj (hsignal.symm.trans hsignal')
  obtain rfl := Option.some.inj (hnoise.symm.trans hnoise')
  have hmargin : pairRequest.interferenceMarginDb = 0.0 := rfl
  have hsame : sinrDb = metrics.snrDb := by
    rw [hsinrDb, hmargin]
    norm_num
  have hstrong : 38 ≤ metrics.snrDb := by
    rw [hsnr]
    linarith
  refine ⟨metrics, hmetrics, hat, hdistance'.trans hdistance, hstrong, hsame ▸ hsinr, ?_⟩
  -- at a positive SINR there is more than one bit per second and hertz
  rw [hsame, capacityAt_real, Option.some.injEq] at hcapacity'
  have hpow : (1 : ℝ) ≤ 10 ^ (metrics.snrDb / 10) :=
    Real.one_le_rpow (by norm_num) (by linarith)
  have hlog : 1 ≤ Real.logb 2 (1 + 10 ^ (metrics.snrDb / 10)) := by
    rw [Real.le_logb_iff_rpow_le (by norm_num) (by linarith), Real.rpow_one]
    linarith
  rw [← hcapacity']
  show (7.5 : ℝ) ≤ 0.75 * 1e7 * Real.logb 2 (1 + 10 ^ (metrics.snrDb / 10)) / 1e6
  linarith

/-- So the one edge passes the gate. -/
theorem passesGate_pair : PassesGate noShadowing (stoppedClock 0) steppedPair fencedConfig
    hoveringPair "drone_1" "drone_2" := by
  obtain ⟨metrics, hmetrics, hat, hdistance, hsnr, hsinr, hcapacity⟩ := computeAnalyticalLink_pair
  refine ⟨_, _, pairRequest, metrics, _, rfl, rfl, rfl, hmetrics, rfl,
    (evaluateFeasibility_feasible_iff ⟨rfl, rfl, rfl, rfl⟩ _ _ _).mpr ⟨?_, ?_, ?_, ?_, ?_, ?_⟩⟩
  -- the age of the metric, as the clock stands still
  · rw [PyFloat.le_real, decide_eq_true_eq, LinkMetrics.ageS, hat, PyFloat.max_real]
    show max (0.0 : ℝ) (0 - 0) ≤ 2.0
    norm_num
  -- the two limits on the distance
  · rw [PyFloat.lt_real, decide_eq_true_eq, hdistance]
    show (30.0 : ℝ) < 220.0
    norm_num
  · rw [PyFloat.le_real, decide_eq_true_eq, hdistance]
    show (30.0 : ℝ) ≤ 90.0
    norm_num
  -- the signal: the threshold for the SINR is that for the SNR, since none is configured
  · rw [PyFloat.le_real, decide_eq_true_eq]
    show (6.0 : ℝ) ≤ metrics.snrDb
    linarith
  · rintro minSinrDb ⟨⟩ sinrDb hvalue
    obtain rfl := Option.some.inj (hsinr.symm.trans hvalue)
    rw [PyFloat.le_real, decide_eq_true_eq]
    show (6.0 : ℝ) ≤ metrics.snrDb
    linarith
  · rw [PyFloat.le_real, decide_eq_true_eq]
    show (1.0 : ℝ) ≤ metrics.capacityMbps
    linarith

/-- The preview finds the link that has to be kept. -/
theorem connectivityPreview_pair : ∃ results,
    connectivityPreview noShadowing stoppedClock steppedPair fencedConfig hoveringPair =
      some (results, true) := by
  have hedges : topologyEdges (Experiment.mappingOrEmpty fencedConfig "topology") =
      some [("drone_1", "drone_2")] := by decide +kernel
  obtain ⟨preview, hpreview, hfeasible⟩ := previewEdge_of_passesGate passesGate_pair
  have hresults : previewEdges noShadowing stoppedClock steppedPair fencedConfig hoveringPair
      [("drone_1", "drone_2")] = some [preview] := by
    simp [previewEdges, hpreview]
  refine ⟨[preview], ?_⟩
  simp only [connectivityPreview, hedges, hresults, bind, pure, Option.bind_some, List.all_cons,
    List.all_nil, hfeasible, Bool.and_true]

/-- Both UAVs have charge left. -/
theorem batteryIssues_pair : batteryIssues 25.0 hoveringPair steppedPair = some [] := by
  have hcharged : PyFloat.le (80.0 : ℝ) 25.0 = false := by
    rw [PyFloat.le_real, decide_eq_false_iff_not]
    norm_num
  have hissue : ∀ id x y, batteryIssue 25.0 id (hovering id x y) = some [] := by
    intro id x y
    show some (if PyFloat.le (80.0 : ℝ) 25.0 = true then _ else []) = some []
    rw [hcharged]
    rfl
  show (do
    let issues ← (do
      let first ← batteryIssue 25.0 "drone_1" (hovering "drone_1" 0 0)
      let second ← batteryIssue 25.0 "drone_2" (hovering "drone_2" 1 30.0)
      return [first, second])
    return issues.flatten) = _
  rw [hissue, hissue]
  rfl

/-- Thirty metres are enough of a distance. -/
theorem separationIssues_pair : separationIssues 5.0
    (steppedPair.entries.insertionSort fun a b => a.1 ≤ b.1) = [] := by
  have hsorted : steppedPair.entries.insertionSort (fun a b => a.1 ≤ b.1) =
      [("drone_1", ⟨1, 0, 10.0⟩), ("drone_2", ⟨1, 30.0, 10.0⟩)] := by
    rfl
  have hfar : (5.0 : ℝ) ≤ 30.0 + 1e-9 := by norm_num
  rw [hsorted]
  simp [separationIssues, dist_pair, hfar]

/-- The review of the targets sends the UAVs to the two positions and finds no error. -/
theorem reviewPositions_pair : ∃ review,
    reviewPositions noShadowing stoppedClock true fencedConfig "ENU" hoveringPair
        (.ofList [("drone_1", ⟨500.0, 0, 10.0⟩), ("drone_2", ⟨1, 30.0, 10.0⟩)]) = some review ∧
      review.normalized = steppedPair ∧ review.issues.any ShieldIssue.isError = false := by
  obtain ⟨far, hfar, hfarAt, hfarIssues⟩ := commandUav_far
  obtain ⟨held, hheld, hheldAt, hheldIssues⟩ : ∃ command,
      commandUav fencedLimits "ENU" "drone_2" (hovering "drone_2" 1 30.0) ⟨1, 30.0, 10.0⟩ =
        some command ∧ command.position = some ⟨1, 30.0, 10.0⟩ ∧ command.issues = [] := by
    have hrate : 0 < fencedLimits.updateRateHz := by
      show (0 : ℝ) < 10.0
      norm_num
    exact ⟨_, commandUav_of_reachable hrate rfl rfl rfl reachable_held, rfl, rfl⟩
  have hne : "drone_1" ≠ "drone_2" := by decide
  have hcommands : commandUavs fencedLimits "ENU" hoveringPair
      (.ofList [("drone_1", ⟨500.0, 0, 10.0⟩), ("drone_2", ⟨1, 30.0, 10.0⟩)]) =
        some (.ofList [("drone_1", far), ("drone_2", held)]) :=
    Dict.traverse_pair hne hfar hheld
  have hnormalized : (Dict.ofList [("drone_1", far), ("drone_2", held)]).filterMap
      (fun _ command => command.position) = steppedPair := by
    apply Dict.ext
    show (Dict.ofList [("drone_1", far), ("drone_2", held)]).entries.filterMap
      (fun e => e.2.position.map (Prod.mk e.1)) = _
    rw [steppedPair, Dict.entries_ofList (by simp), Dict.entries_ofList (by simp)]
    simp [hfarAt, hheldAt]
  have hcomplete : completePositions hoveringPair steppedPair = some steppedPair := rfl
  have hreserve : batteryReserve fencedConfig = some 25.0 := rfl
  have hknown : unknownIssues hoveringPair (.ofList [("drone_1", (⟨500.0, 0, 10.0⟩ : Vec3 ℝ)),
      ("drone_2", ⟨1, 30.0, 10.0⟩)]) = [] := rfl
  -- the only issues are the warnings about the target outside the fence
  have hissues : (Dict.ofList [("drone_1", far), ("drone_2", held)]).values.flatMap
      Commanded.issues = far.issues := by
    simp [Dict.values, Dict.entries_ofList, hheldIssues]
  have hseparation : fencedLimits.minSeparation = 5.0 := rfl
  obtain ⟨results, hpreview⟩ := connectivityPreview_pair
  simp only [reviewPositions, shieldLimits_fenced, hcommands, hnormalized, hcomplete, hreserve,
    batteryIssues_pair, hpreview, hknown, hissues, hseparation, separationIssues_pair, bind, pure,
    Option.bind_some]
  refine ⟨_, rfl, rfl, ?_⟩
  rw [List.any_eq_false]
  intro issue hissue
  rw [Bool.not_eq_true]
  simp only [List.nil_append, List.append_nil, Bool.not_true, Bool.and_false, Bool.false_eq_true,
    if_false] at hissue
  exact hfarIssues issue hissue

/-- There is nothing to say against the action itself. -/
theorem validate_farAction : farAction.validate 0 = [] := by
  have hid : isAlgorithmId "line_policy" = true := by decide
  have hunknown : farAction.unknownFields = [] := by decide
  have hresiduals : farAction.constraintResiduals.entries = [] := rfl
  simp only [AlgorithmAction.validate, hunknown, hresiduals, List.append_eq_nil_iff, errorIf_eq_nil]
  refine ⟨⟨⟨⟨⟨⟨⟨?_, ?_⟩, ?_⟩, ?_⟩, ?_⟩, ?_⟩, ?_⟩, rfl⟩
  · rw [farAction, hid]; rfl
  · rfl
  · rfl
  · rw [PyFloat.le_real, decide_eq_false_iff_not]
    show ¬(1 : ℝ) ≤ 0.0
    norm_num
  · rw [AlgorithmAction.isStale, PyFloat.lt_real, decide_eq_false_iff_not]
    show ¬(1 : ℝ) < 0 - 0
    norm_num
  · rfl
  · rfl

/-- The fleet is read off the snapshot. -/
theorem uavMap_pairFleet : uavMap pairFleet = some hoveringPair := rfl

/-- And the targets off the action. -/
theorem normalizeVec3Map_farTargets : normalizeVec3Map "desired_positions" farTargets =
    some (.ok (.ofList [("drone_1", ⟨500.0, 0, 10.0⟩), ("drone_2", ⟨1, 30.0, 10.0⟩)])) := rfl

/-- The shield accepts the action, and sends the first UAV only a metre far. -/
theorem applySafetyShield_far : ∃ decision shielded,
    applySafetyShield noShadowing 0 stoppedClock true farAction pairFleet fencedConfig =
        some decision ∧ decision.accepted = true ∧ decision.action = some shielded ∧
      shielded.payload.get? "desired_positions" = some (positionsJson steppedPair) := by
  obtain ⟨review, hreview, hnormalized, hfree⟩ := reviewPositions_pair
  have hdecision : applySafetyShield noShadowing 0 stoppedClock true farAction pairFleet
      fencedConfig = concludeReview fencedConfig farAction review := by
    rw [applySafetyShield, validate_farAction]
    simp only [uavMap_pairFleet, Option.bind_eq_bind, Option.bind_some]
    refine (shieldPositions_of_wellFormed normalizeVec3Map_farTargets).trans ?_
    exact (congrArg (fun review => Option.bind review _) hreview).trans rfl
  rw [hdecision, ← hnormalized]
  exact concludeReview_of_free rfl hfree

/-- Both UAVs hover in the region. -/
theorem startsInRegion_far : StartsInRegion farAction pairFleet fencedConfig := by
  intro limits uavs commanded id item current hlimits huavs _ _ hitem hcurrent
  obtain rfl := Option.some.inj (shieldLimits_fenced.symm.trans hlimits)
  obtain rfl := Option.some.inj (uavMap_pairFleet.symm.trans huavs)
  rcases (by simpa using Dict.mem_of_get?_ofList hitem :
    (id = "drone_1" ∧ item = hovering "drone_1" 0 0) ∨
      (id = "drone_2" ∧ item = hovering "drone_2" 1 30.0)) with ⟨-, rfl⟩ | ⟨-, rfl⟩
  · obtain rfl : ⟨0, 0, 10.0⟩ = current := Option.some.inj hcurrent
    exact inRegion_hovering (by norm_num) (by norm_num)
  · obtain rfl : ⟨1, 30.0, 10.0⟩ = current := Option.some.inj hcurrent
    exact inRegion_hovering (by norm_num) (by norm_num)

/-- The first UAV is told to leave the fence and is sent one metre towards it, the second one stays
where it is, and the link between the two is kept. -/
theorem applySafetyShield_sound_pair :
    ∃ decision shielded,
      applySafetyShield noShadowing 0 stoppedClock true farAction pairFleet fencedConfig =
        some decision ∧ decision.action = some shielded ∧
      shielded.payload.get? "desired_positions" = some (positionsJson steppedPair) ∧
      SafeOutput noShadowing stoppedClock true fencedConfig fencedLimits 25.0 hoveringPair
        steppedPair := by
  obtain ⟨decision, shielded, hdecision, haccepted, hshielded, hpayload⟩ := applySafetyShield_far
  obtain ⟨limits, uavs, reserve, output, shielded', hlimits, huavs, hreserve, hshielded', hpayload',
    hsafe⟩ :=
    applySafetyShield_sound hdecision haccepted (fun hnull => by cases hnull) startsInRegion_far
  obtain rfl := Option.some.inj (shieldLimits_fenced.symm.trans hlimits)
  obtain rfl := Option.some.inj (uavMap_pairFleet.symm.trans huavs)
  obtain rfl : 25.0 = reserve := Option.some.inj hreserve
  obtain rfl := Option.some.inj (hshielded.symm.trans hshielded')
  obtain rfl := positionsJson_injective (Option.some.inj (hpayload.symm.trans hpayload'))
  exact ⟨decision, shielded, hdecision, hshielded, hpayload, hsafe⟩

end

end Netlab
