import Netlab.Algorithm.ShieldFallback
import Netlab.Algorithm.Vectors

/-!
# Commands in other fields

A payload can command UAVs in nine fields, from positions to transmit powers. Of an action with
desired positions the shield checks who is commanded and that the numbers are finite; what stands in
the other fields passes through as it is. So an accepted action commands legitimately exactly if
those other fields do (`legitimate_of_accepted_iff`).
-/

namespace Netlab

variable {F : Type}

section

variable [PyText F] [PyFloat F]

/-- The fields of a payload that command UAVs one by one, besides their positions. -/
def passedFields : List String :=
  ["desired_velocities", "desired_accelerations", "desired_jerks", "desired_yaws_deg",
    "desired_trajectories", "formation_targets", "antenna_commands", "transmit_power_commands_dbm"]

/-- The fields of a payload that command UAVs one by one. -/
def commandFields : List String := "desired_positions" :: passedFields

/-- A field that only commands operational UAVs of the snapshot, with finite numbers. A value that
is no map commands nobody. -/
structure LegitimateField (uavs : Dict String (Dict String (Json F))) (value : Json F) : Prop where
  operational : ∀ items, value.dict? = some items → ∀ id ∈ items.keys,
    ∃ item, uavs.get? id = some item ∧ isOperational item = true
  finite : ∀ items, value.dict? = some items → ∀ id command, items.get? id = some command →
    JsonText.finite command = true
  /-- The numbers of a value that is no map. -/
  scalar : value.dict? = none → JsonText.finite value = true

/-- The given fields of a payload are legitimate. -/
def LegitimateFields (fields : List String) (uavs : Dict String (Dict String (Json F)))
    (payload : Dict String (Json F)) : Prop :=
  ∀ field ∈ fields, ∀ value, payload.get? field = some value → LegitimateField uavs value

/-- A list of numbers is finite when its numbers are. -/
theorem finite_of_finiteVec3? {raw : Json F} {p : Vec3 F} (h : finiteVec3? raw = some p) :
    JsonText.finite raw = true := by
  obtain ⟨x, y, z, rfl, hx, hy, hz, hfx, hfy, hfz⟩ := finiteVec3?_eq_some_iff.mp h
  have hnumber : ∀ {value : Json F} {v : F}, value.toFloat? = some v → PyFloat.isFinite v = true →
      JsonText.finite value = true := by
    intro value v hv hfinite
    cases value with
    | float w =>
        obtain rfl : w = v := Option.some.inj hv
        exact hfinite
    | arr items => simp [Json.toFloat?] at hv
    | obj members => simp [Json.toFloat?] at hv
    | _ => rfl
  rw [JsonText.finite, JsonText.every_arr]
  simp only [List.mem_cons, List.not_mem_nil, or_false]
  rintro value (rfl | rfl | rfl)
  · exact hnumber hx hfx
  · exact hnumber hy hfy
  · exact hnumber hz hfz

end

section

variable [PyText F] [PyMotion F]

/-- A review that found no error only commands operational UAVs of the snapshot. -/
theorem operational_of_review {propagation : Propagation F} {stamps : ℕ → LinkStamp F}
    {requireConnectivity : Bool} {config : Dict String (Json F)} {frame : String}
    {uavs : Dict String (Dict String (Json F))} {desired : Dict String (Vec3 F)}
    {review : ShieldReview F}
    (h : reviewPositions propagation stamps requireConnectivity config frame uavs desired =
      some review)
    (hfree : ∀ issue ∈ review.issues, issue.isError = false) {id : String} {target : Vec3 F}
    (htarget : desired.get? id = some target) :
    ∃ item, uavs.get? id = some item ∧ isOperational item = true := by
  obtain ⟨limits, commands, complete, reserve, lowBattery, connected, hparts⟩ :=
    reviewPositions_spec h
  rw [hparts.issues_eq] at hfree
  have hkey : id ∈ desired.keys := Dict.mem_keys_iff.mpr ⟨target, htarget⟩
  -- a UAV that the snapshot does not have would be an issue
  obtain ⟨item, hitem⟩ : ∃ item, uavs.get? id = some item := by
    by_contra hnone
    have hmissing : (uavs.get? id).isNone = true := by
      rw [Option.isNone_iff_eq_none]
      exact Option.eq_none_iff_forall_ne_some.mpr fun item hitem => hnone ⟨item, hitem⟩
    have hissue : ∃ issue ∈ unknownIssues uavs desired, issue.isError = true := by
      refine ⟨_, List.mem_map.mpr ⟨id, ?_, rfl⟩, rfl⟩
      exact (List.mem_insertionSort _).mpr (List.mem_filter.mpr ⟨hkey, hmissing⟩)
    obtain ⟨issue, hmem, herror⟩ := hissue
    have hnot := hfree issue (by simp [hmem])
    exact Bool.false_ne_true (hnot.symm.trans herror)
  refine ⟨item, hitem, ?_⟩
  -- and so would be one that is not operational
  by_contra hdown
  rw [Bool.not_eq_true] at hdown
  have hkept : (desired.restrict fun id => (uavs.get? id).isSome).get? id = some target := by
    rw [Dict.get?_restrict, hitem]
    exact htarget
  obtain ⟨command, hcommand, hget⟩ := Dict.isSome_of_traverse hparts.commands_eq hkept
  obtain ⟨item', hitem', hcommand⟩ := Option.bind_eq_some_iff.mp hcommand
  obtain rfl := Option.some.inj (hitem.symm.trans hitem')
  rw [commandUav, hdown] at hcommand
  obtain rfl := Option.some.inj hcommand
  have hvalue := List.mem_map_of_mem (f := Prod.snd) (Dict.get?_eq_some_iff.mp hget)
  have hnot := hfree _ (List.mem_append_left _ (List.mem_append_left _ (List.mem_append_left _
    (List.mem_append_right _ (List.mem_flatMap.mpr ⟨_, hvalue, List.mem_singleton_self _⟩)))))
  simp [ShieldIssue.isError] at hnot

/-- The desired positions of an accepted action are legitimate. -/
theorem legitimateField_positions {propagation : Propagation F} {now : F}
    {stamps : ℕ → LinkStamp F} {requireConnectivity : Bool} {action : AlgorithmAction F}
    {snapshot config : Dict String (Json F)} {decision : ShieldDecision F}
    {uavs : Dict String (Dict String (Json F))}
    (h : applySafetyShield propagation now stamps requireConnectivity action snapshot config =
      some decision) (haccepted : decision.accepted = true) (hfleet : uavMap snapshot = some uavs)
    {value : Json F} (hvalue : action.payload.get? "desired_positions" = some value) :
    LegitimateField uavs value := by
  have hraw : action.payload.getD "desired_positions" .null = value := by
    rw [Dict.getD, hvalue]
    rfl
  cases decidedBy_of_applySafetyShield h with
  | refused issues _ hrefusal => simp [(refuseEarly_spec hrefusal).1] at haccepted
  | untouched _ habsent _ =>
      rw [hraw] at habsent
      -- a null field has neither items nor a sequence
      subst habsent
      exact ⟨by simp, by simp, fun _ => rfl⟩
  | reviewed uavs' desired review _ hfleet' hdesired hresult hconclusion =>
      obtain rfl := Option.some.inj (hfleet.symm.trans hfleet')
      rw [hraw] at hdesired
      rcases concludeReview_spec hconclusion with ⟨-, hrejected, -⟩ | ⟨hharmless, -⟩
      · simp [hrejected] at haccepted
      have hfree : ∀ issue ∈ review.issues, issue.isError = false := by simpa using hharmless
      obtain ⟨items, hitems, hkeys, hvectors⟩ := get?_of_normalizeVec3Map hdesired
      -- accepted means reviewed without an error, so every target passed its checks
      constructor
      · intro items' hitems' id hid
        obtain rfl := Option.some.inj (hitems.symm.trans hitems')
        obtain ⟨target, htarget⟩ := Dict.mem_keys_iff.mp (hkeys ▸ hid)
        exact operational_of_review hresult hfree htarget
      · intro items' hitems' id command hcommand
        obtain rfl := Option.some.inj (hitems.symm.trans hitems')
        obtain ⟨p, hp, -⟩ := hvectors id command hcommand
        exact finite_of_finiteVec3? hp
      · intro hnone
        exact absurd (hitems.symm.trans hnone) (by simp)

/-- The shield has read the snapshot of an action that it accepts. -/
theorem exists_uavMap_of_accepted {propagation : Propagation F} {now : F}
    {stamps : ℕ → LinkStamp F} {requireConnectivity : Bool} {action : AlgorithmAction F}
    {snapshot config : Dict String (Json F)} {decision : ShieldDecision F}
    (h : applySafetyShield propagation now stamps requireConnectivity action snapshot config =
      some decision) (haccepted : decision.accepted = true) :
    ∃ uavs, uavMap snapshot = some uavs := by
  rw [applySafetyShield] at h
  split at h
  · obtain ⟨uavs, huavs, -⟩ := Option.bind_eq_some_iff.mp h
    exact ⟨uavs, huavs⟩
  · simp [(refuseEarly_spec h).1] at haccepted

/-- An accepted action only commands operational UAVs of the snapshot, with finite numbers, exactly
if that is so of the fields besides the positions. -/
theorem legitimate_of_accepted_iff {propagation : Propagation F} {now : F}
    {stamps : ℕ → LinkStamp F} {requireConnectivity : Bool} {action : AlgorithmAction F}
    {snapshot config : Dict String (Json F)} {decision : ShieldDecision F}
    (h : applySafetyShield propagation now stamps requireConnectivity action snapshot config =
      some decision) (haccepted : decision.accepted = true) :
    ∃ uavs, uavMap snapshot = some uavs ∧
      (LegitimateFields commandFields uavs action.payload ↔
        LegitimateFields passedFields uavs action.payload) := by
  obtain ⟨uavs, hfleet⟩ := exists_uavMap_of_accepted h haccepted
  refine ⟨uavs, hfleet, fun hall field hfield value hvalue => ?_,
    fun hpassed field hfield value hvalue => ?_⟩
  · exact hall field (List.mem_cons_of_mem _ hfield) value hvalue
  · rcases List.mem_cons.mp hfield with rfl | hfield
    · exact legitimateField_positions h haccepted hfleet hvalue
    · exact hpassed field hfield value hvalue

end

/-! ## Velocities without positions -/

/-- The action that gives a UAV a velocity. -/
def velocityAction (uavId : String) : AlgorithmAction ℚ where
  algorithmId := "line_policy"
  algorithmVersion := "1.0.0"
  sourceRevisionId := "rev-1"
  timestampS := 0
  validityHorizonS := 1
  coordinateFrame := "ENU"
  units := .empty
  payload := .ofList [("desired_velocities", .obj [(uavId, .arr [.float 1, .float 0, .float 0])])]
  computationDurationS := 0

/-- A UAV of the snapshot gets a velocity. -/
theorem legitimate_of_accepted_iff_velocity :
    ∃ decision, applySafetyShield noLinks 0 stillStamps true (velocityAction "drone_1") oneUav
        .empty = some decision ∧ decision.accepted = true ∧
      ∃ uavs, uavMap oneUav = some uavs ∧
        (LegitimateFields commandFields uavs (velocityAction "drone_1").payload ↔
          LegitimateFields passedFields uavs (velocityAction "drone_1").payload) := by
  have haccepted : (applySafetyShield noLinks 0 stillStamps true (velocityAction "drone_1") oneUav
      .empty).any ShieldDecision.accepted = true := by
    decide +kernel
  obtain ⟨decision, hdecision, haccepted⟩ := (Option.any_eq_true _ _).mp haccepted
  exact ⟨decision, hdecision, haccepted, legitimate_of_accepted_iff hdecision haccepted⟩

/-- A velocity for a UAV that the snapshot does not have is accepted. -/
theorem not_legitimate_of_accepted :
    ¬∀ (propagation : Propagation ℚ) (now : ℚ) (stamps : ℕ → LinkStamp ℚ)
      (requireConnectivity : Bool) (action : AlgorithmAction ℚ)
      (snapshot config : Dict String (Json ℚ)) (decision : ShieldDecision ℚ)
      (uavs : Dict String (Dict String (Json ℚ))),
      applySafetyShield propagation now stamps requireConnectivity action snapshot config =
        some decision → decision.accepted = true → uavMap snapshot = some uavs →
      LegitimateFields commandFields uavs action.payload := by
  intro hclaim
  have haccepted : (applySafetyShield noLinks 0 stillStamps true (velocityAction "drone_2") oneUav
      .empty).any ShieldDecision.accepted = true := by
    decide +kernel
  obtain ⟨decision, hdecision, haccepted⟩ := (Option.any_eq_true _ _).mp haccepted
  have hfleet : (uavMap oneUav).any (fun uavs => (uavs.get? "drone_2").isNone) = true := by
    decide +kernel
  obtain ⟨uavs, huavs, hmissing⟩ := (Option.any_eq_true _ _).mp hfleet
  have hfield := hclaim noLinks 0 stillStamps true (velocityAction "drone_2") oneUav .empty decision
    uavs hdecision haccepted huavs "desired_velocities" (by decide) _ rfl
  obtain ⟨item, hitem, -⟩ := hfield.operational _ rfl "drone_2" (by decide)
  simp [hitem] at hmissing

end Netlab
