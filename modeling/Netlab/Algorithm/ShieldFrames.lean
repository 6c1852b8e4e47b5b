import Netlab.Algorithm.ShieldClock
import Netlab.Algorithm.ShieldFallback
import Netlab.Algorithm.Vectors

/-!
# Frames of returned actions

The shield computes in ENU. When it accepts reviewed positions it says so in the frame of the
action; when it rejects them it returns the positions of the fleet, which are in ENU as well, under
the frame that the action came with. Fields that it passes through keep the numbers they came with,
under whatever frame is declared then. The positions of a returned action are what its frame says
exactly if these numbers mean the same in both frames (`frameConsistent_iff`). The targets
themselves are converted as they should be: an action in NED has the outcome of its conversion to
ENU.
-/

namespace Json

variable {F : Type} [PyText F] [PyFloat F]

/-- A list of three numbers. -/
def vec3? : Json F → Option (Vec3 F)
  | .arr [x, y, z] => do return ⟨← x.toFloat?, ← y.toFloat?, ← z.toFloat?⟩
  | _ => none

mutual

/-- The points that a value lists, at any depth. -/
def points : Json F → List (Vec3 F)
  | .arr items =>
      match vec3? (.arr items) with
      | some p => [p]
      | none => pointsItems items
  | .obj members => pointsMembers members
  | _ => []

/-- `points` of each item of a list. -/
def pointsItems : List (Json F) → List (Vec3 F)
  | [] => []
  | item :: items => points item ++ pointsItems items

/-- `points` of each member of an object. -/
def pointsMembers : List (String × Json F) → List (Vec3 F)
  | [] => []
  | (_, value) :: members => points value ++ pointsMembers members

end

end Json

namespace Netlab

variable {F : Type}

section

variable [PyText F] [PyFloat F]

/-- The points of positions that are written as JSON. -/
theorem points_positionsJson (positions : Dict String (Vec3 F)) :
    (positionsJson positions).points = positions.values := by
  rw [positionsJson, Json.points, Dict.values]
  induction positions.entries with
  | nil => rfl
  | cons e entries ih =>
      rw [List.map_cons, Json.pointsMembers, ih, List.map_cons]
      rfl

/-- The fields of a payload that hold positions and that the shield passes through. -/
def passedPositionFields : List String := ["desired_trajectories", "formation_targets"]

/-- The fields of a payload that hold positions. -/
def positionFields : List String := "desired_positions" :: passedPositionFields

/-- A point whose numbers are written in one frame is the same under the frame that is declared. -/
def ExpressedIn (declared written : String) (p : Vec3 F) : Prop :=
  declared = written ∨ ∃ q, enu p declared = .ok q ∧ enu p written = .ok q

/-- In a frame with the axes of ENU every position means the same. -/
theorem expressedIn_of_axes {frame : String} (h : frame ∈ ["ENU", "ISAAC_STAGE"])
    (p : Vec3 F) : ExpressedIn frame "ENU" p ∧ ExpressedIn "ENU" frame p := by
  have hread : enu p frame = .ok p := by
    rw [enu, if_pos (by simpa using h)]
  have henu : enu p "ENU" = .ok p := rfl
  exact ⟨Or.inr ⟨p, hread, henu⟩, Or.inr ⟨p, henu, hread⟩⟩

/-- The frame in which the numbers of a field of a returned payload are written: the shield puts
positions in ENU under `desired_positions` if the action had any, and the rest is as it came. -/
def writtenFrame (action : AlgorithmAction F) (field : String) : String :=
  match action.payload.getD "desired_positions" .null with
  | .null => action.coordinateFrame
  | _ => if field = "desired_positions" then "ENU" else action.coordinateFrame

omit [PyText F] [PyFloat F] in
/-- The shield writes positions in ENU. -/
theorem writtenFrame_positions {action : AlgorithmAction F}
    (hasked : action.payload.getD "desired_positions" .null ≠ .null) :
    writtenFrame action "desired_positions" = "ENU" := by
  unfold writtenFrame
  split
  · rename_i habsent
    exact absurd habsent hasked
  · exact if_pos rfl

omit [PyText F] [PyFloat F] in
/-- Other fields are written in the frame of the action. -/
theorem writtenFrame_of_ne (action : AlgorithmAction F) {field : String}
    (h : field ≠ "desired_positions") : writtenFrame action field = action.coordinateFrame := by
  unfold writtenFrame
  split
  · rfl
  · exact if_neg h

/-- Every position of the action that is returned is expressed in the frame that it declares. -/
def FrameConsistent (action : AlgorithmAction F) (decision : ShieldDecision F) : Prop :=
  ∀ returned, decision.action = some returned →
    ∀ field ∈ positionFields, ∀ value, returned.payload.get? field = some value →
      ∀ p ∈ value.points, ExpressedIn returned.coordinateFrame (writtenFrame action field) p

/-- A target in NED as it is in ENU. -/
def nedToEnu (p : Vec3 F) : Vec3 F := ⟨p.y, p.x, -p.z⟩

/-- An action whose targets have been converted from NED to ENU. -/
def AlgorithmAction.toEnu (action : AlgorithmAction F) (desired : Dict String (Vec3 F)) :
    AlgorithmAction F :=
  { action with
    coordinateFrame := "ENU"
    payload := action.payload.set "desired_positions"
      (positionsJson (desired.map fun _ p => nedToEnu p)) }

end

section

variable [PyText F] [PyMotion F]

/-- The command to a UAV is the same for a target in NED and for its conversion to ENU. -/
theorem commandUav_ned (limits : ShieldLimits F) (uavId : String) (item : Dict String (Json F))
    (target : Vec3 F) : commandUav limits "NED" uavId item target =
      commandUav limits "ENU" uavId item (nedToEnu target) := by
  have hned : enu target "NED" = .ok (nedToEnu target) := rfl
  have henu : enu (nedToEnu target) "ENU" = .ok (nedToEnu target) := rfl
  simp only [commandUav, hned, henu]

/-- A review is the same for targets in NED and for their conversion to ENU. -/
theorem reviewPositions_ned (propagation : Propagation F) (stamps : ℕ → LinkStamp F)
    (requireConnectivity : Bool) (config : Dict String (Json F))
    (uavs : Dict String (Dict String (Json F))) (desired : Dict String (Vec3 F)) :
    reviewPositions propagation stamps requireConnectivity config "NED" uavs desired =
      reviewPositions propagation stamps requireConnectivity config "ENU" uavs
        (desired.map fun _ p => nedToEnu p) := by
  have hcommands : ∀ limits, commandUavs limits "NED" uavs desired =
      commandUavs limits "ENU" uavs (desired.map fun _ p => nedToEnu p) := by
    intro limits
    rw [commandUavs, commandUavs, Dict.restrict_map, Dict.traverse_map]
    simp only [commandUav_ned]
  have hunknown : unknownIssues uavs desired =
      unknownIssues uavs (desired.map fun _ p => nedToEnu p) := by
    rw [unknownIssues, unknownIssues, Dict.keys_map]
  simp only [reviewPositions, hcommands, hunknown]

/-- `validate` finds the same in an action and in its conversion. -/
theorem validate_toEnu {action : AlgorithmAction F} {now : F} (desired : Dict String (Vec3 F))
    (hframe : action.coordinateFrame = "NED")
    (hkey : "desired_positions" ∈ action.payload.keys) :
    (action.toEnu desired).validate now = action.validate now := by
  have hned : "NED" ∈ actionFrames := by decide
  have henu : "ENU" ∈ actionFrames := by decide
  have hunknown : (action.toEnu desired).unknownFields = action.unknownFields := by
    rw [AlgorithmAction.unknownFields, AlgorithmAction.unknownFields, AlgorithmAction.toEnu,
      Dict.keys_set_of_mem _ hkey]
  have hframe' : (action.toEnu desired).coordinateFrame = "ENU" := rfl
  rw [AlgorithmAction.validate, AlgorithmAction.validate, hunknown]
  simp only [hframe', hframe, hned, henu]
  rfl

/-- What is concluded from a review depends on the action in what it passes through. -/
theorem concludeReview_toEnu {config : Dict String (Json F)} (action : AlgorithmAction F)
    (desired : Dict String (Vec3 F)) (review : ShieldReview F) :
    (concludeReview config (action.toEnu desired) review).map ShieldDecision.outcome =
      (concludeReview config action review).map ShieldDecision.outcome := by
  simp only [concludeReview, AlgorithmAction.toEnu, Dict.set_set]
  cases Experiment.section? (Experiment.mappingOrEmpty config "swarm") "controller" with
  | none => rfl
  | some controller =>
      simp only [Option.bind_eq_bind, Option.bind_some]
      split
      · cases fallbackPositions review.uavs <;> rfl
      · rfl

/-- An action in NED has the outcome of its conversion to ENU. -/
theorem applySafetyShield_toEnu {propagation : Propagation F} {now : F} {stamps : ℕ → LinkStamp F}
    {requireConnectivity : Bool} {action : AlgorithmAction F}
    {snapshot config : Dict String (Json F)} {desired : Dict String (Vec3 F)}
    (hneg : ∀ x : F, PyFloat.isFinite x = true → PyFloat.isFinite (-x) = true)
    (hframe : action.coordinateFrame = "NED")
    (hdesired : normalizeVec3Map "desired_positions"
      (action.payload.getD "desired_positions" .null) = some (.ok desired)) :
    (applySafetyShield propagation now stamps requireConnectivity (action.toEnu desired) snapshot
        config).map ShieldDecision.outcome =
      (applySafetyShield propagation now stamps requireConnectivity action snapshot config).map
        ShieldDecision.outcome := by
  -- the positions are there, so the conversion replaces them
  have hkey : "desired_positions" ∈ action.payload.keys := by
    rw [Dict.mem_keys_iff]
    cases hvalue : action.payload.get? "desired_positions" with
    | some value => exact ⟨value, rfl⟩
    | none =>
        rw [Dict.getD, hvalue] at hdesired
        simp [normalizeVec3Map] at hdesired
  have hfinite : ∀ id p, (desired.map fun _ p => nedToEnu p).get? id = some p →
      PyFloat.isFinite p.x = true ∧ PyFloat.isFinite p.y = true ∧ PyFloat.isFinite p.z = true := by
    intro id p hp
    rw [Dict.get?_map, Option.map_eq_some_iff] at hp
    obtain ⟨target, htarget, rfl⟩ := hp
    obtain ⟨hx, hy, hz⟩ := isFinite_of_normalizeVec3Map hdesired htarget
    exact ⟨hy, hx, hneg _ hz⟩
  have hconverted : normalizeVec3Map "desired_positions"
      ((action.toEnu desired).payload.getD "desired_positions" .null) =
        some (.ok (desired.map fun _ p => nedToEnu p)) := by
    rw [AlgorithmAction.toEnu, Dict.getD, Dict.get?_set_self]
    exact normalizeVec3Map_positionsJson _ hfinite
  rw [applySafetyShield, applySafetyShield, validate_toEnu desired hframe hkey]
  split
  · refine Option.map_bind_congr (fun uavs => ?_) _
    rw [shieldPositions_of_wellFormed hconverted, shieldPositions_of_wellFormed hdesired, hframe,
      reviewPositions_ned]
    exact Option.map_bind_congr (concludeReview_toEnu action desired) _
  · rfl

/-! ## What is declared -/

/-- The positions of the fleet mean the same in ENU and in the frame of the action. -/
def FleetReadable (action : AlgorithmAction F) (uavs : Dict String (Dict String (Json F))) : Prop :=
  ∀ id item p, uavs.get? id = some item → isOperational item = true →
    currentPosition item = some p → ExpressedIn action.coordinateFrame "ENU" p

/-- The positions that are passed through mean the same in the frame of the action and in ENU. -/
def PassedReadable (action : AlgorithmAction F) : Prop :=
  ∀ field ∈ passedPositionFields, ∀ value, action.payload.get? field = some value →
    ∀ p ∈ value.points, ExpressedIn "ENU" action.coordinateFrame p

/-- What the branch that is taken after a review puts under another frame means the same there: the
positions of the fleet when there is an error, and otherwise what is passed through. -/
def FramesAgree (propagation : Propagation F) (now : F) (stamps : ℕ → LinkStamp F)
    (requireConnectivity : Bool) (action : AlgorithmAction F)
    (snapshot config : Dict String (Json F)) : Prop :=
  ∀ uavs desired review, action.validate now = [] → uavMap snapshot = some uavs →
    normalizeVec3Map "desired_positions" (action.payload.getD "desired_positions" .null) =
      some (.ok desired) →
    reviewPositions propagation stamps requireConnectivity config action.coordinateFrame uavs
      desired = some review →
    if review.issues.any ShieldIssue.isError then FleetReadable action uavs
    else PassedReadable action

/-- Actions in a frame with the axes of ENU agree. -/
theorem framesAgree_of_axes {propagation : Propagation F} {now : F} {stamps : ℕ → LinkStamp F}
    {requireConnectivity : Bool} {action : AlgorithmAction F}
    {snapshot config : Dict String (Json F)} (h : action.coordinateFrame ∈ ["ENU", "ISAAC_STAGE"]) :
    FramesAgree propagation now stamps requireConnectivity action snapshot config := by
  intro uavs desired review _ _ _ _
  split
  · exact fun id item p _ _ _ => (expressedIn_of_axes h p).1
  · exact fun field _ value _ p _ => (expressedIn_of_axes h p).2

/-- The frame and the payload of the action that is returned after a review. -/
theorem concludeReview_frame {config : Dict String (Json F)}
    {action : AlgorithmAction F} {review : ShieldReview F} {decision : ShieldDecision F}
    (h : concludeReview config action review = some decision) :
    (review.issues.any ShieldIssue.isError = true ∧ ∃ positions returned,
        fallbackPositions review.uavs = some positions ∧ decision.action = some returned ∧
          returned.coordinateFrame = action.coordinateFrame ∧
          returned.payload = .ofList [("desired_positions", positionsJson positions)]) ∨
      (review.issues.any ShieldIssue.isError = false ∧ ∃ returned,
        decision.action = some returned ∧ returned.coordinateFrame = "ENU" ∧
          returned.payload =
            action.payload.set "desired_positions" (positionsJson review.normalized)) := by
  obtain ⟨controller, -, h⟩ := Option.bind_eq_some_iff.mp h
  dsimp only at h
  split at h
  · rename_i herror
    obtain ⟨positions, hpositions, h⟩ := Option.bind_eq_some_iff.mp h
    obtain rfl := Option.some.inj h
    exact Or.inl ⟨herror, positions, _, hpositions, rfl, rfl, rfl⟩
  · rename_i hfree
    obtain rfl := Option.some.inj h
    exact Or.inr ⟨by simpa using hfree, _, rfl, rfl, rfl⟩

/-- After a review the frame of the returned action is right exactly if what the branch that is
taken puts under it means the same there. -/
theorem frameConsistent_of_reviewed {config : Dict String (Json F)} {action : AlgorithmAction F}
    {review : ShieldReview F} {decision : ShieldDecision F}
    (hasked : action.payload.getD "desired_positions" .null ≠ .null)
    (hconclusion : concludeReview config action review = some decision) :
    FrameConsistent action decision ↔
      if review.issues.any ShieldIssue.isError then FleetReadable action review.uavs
      else PassedReadable action := by
  rcases concludeReview_frame hconclusion with
    ⟨herror, positions, returned, hpositions, hreturned, hframe, hpayload⟩ |
      ⟨hfree, returned, hreturned, hframe, hpayload⟩
  · rw [if_pos herror]
    constructor
    · intro hconsistent id item p hitem hoperational hp
      have hheld : positions.get? id = some p :=
        (get?_fallbackPositions hpositions id p).mpr ⟨item, hitem, hoperational, hp⟩
      have hvalue : returned.payload.get? "desired_positions" = some (positionsJson positions) := by
        rw [hpayload]
        rfl
      have hmem : p ∈ (positionsJson positions).points := by
        rw [points_positionsJson]
        exact List.mem_map_of_mem (Dict.get?_eq_some_iff.mp hheld)
      have hexpressed := hconsistent returned hreturned "desired_positions" List.mem_cons_self _
        hvalue p hmem
      rwa [hframe, writtenFrame_positions hasked] at hexpressed
    · intro hreadable returned' hreturned' field _ value hvalue p hp
      obtain rfl := Option.some.inj (hreturned.symm.trans hreturned')
      -- the positions of the fleet are all that is returned
      rw [hpayload, Dict.get?_ofList_cons] at hvalue
      have hempty : (Dict.ofList ([] : List (String × Json F))).get? field = none := rfl
      rw [hempty, Option.none_or] at hvalue
      split at hvalue
      · rename_i hfield
        obtain rfl := Option.some.inj hvalue
        rw [points_positionsJson] at hp
        obtain ⟨⟨id, p'⟩, he, rfl⟩ := List.mem_map.mp hp
        obtain ⟨item, hitem, hoperational, hcurrent⟩ :=
          (get?_fallbackPositions hpositions id p').mp (Dict.get?_eq_some_iff.mpr he)
        rw [hframe, hfield, writtenFrame_positions hasked]
        exact hreadable id item p' hitem hoperational hcurrent
      · simp at hvalue
  · rw [if_neg (by simp [hfree])]
    constructor
    · intro hconsistent field hfield value hvalue p hp
      have hne : field ≠ "desired_positions" := by
        rintro rfl
        exact absurd hfield (by decide)
      have hkept : returned.payload.get? field = some value := by
        rw [hpayload, Dict.get?_set_of_ne _ _ hne]
        exact hvalue
      have hexpressed := hconsistent returned hreturned field (List.mem_cons_of_mem _ hfield) value
        hkept p hp
      rwa [hframe, writtenFrame_of_ne action hne] at hexpressed
    · intro hreadable returned' hreturned' field hfield value hvalue p hp
      obtain rfl := Option.some.inj (hreturned.symm.trans hreturned')
      rw [hframe]
      rcases List.mem_cons.mp hfield with rfl | hfield
      · exact Or.inl (writtenFrame_positions hasked).symm
      · have hne : field ≠ "desired_positions" := by
          rintro rfl
          exact absurd hfield (by decide)
        rw [hpayload, Dict.get?_set_of_ne _ _ hne] at hvalue
        rw [writtenFrame_of_ne action hne]
        exact hreadable field hfield value hvalue p hp

/-- The positions of the action that the shield returns are expressed in the frame that it declares,
and an action in NED has the outcome of its conversion to ENU, exactly if what is put under another
frame means the same there. -/
theorem frameConsistent_iff {propagation : Propagation F} {now : F} {stamps : ℕ → LinkStamp F}
    {requireConnectivity : Bool} {action : AlgorithmAction F}
    {snapshot config : Dict String (Json F)} {decision : ShieldDecision F}
    (hneg : ∀ x : F, PyFloat.isFinite x = true → PyFloat.isFinite (-x) = true)
    (h : applySafetyShield propagation now stamps requireConnectivity action snapshot config =
      some decision) :
    (FrameConsistent action decision ∧
      ∀ desired, action.coordinateFrame = "NED" →
        normalizeVec3Map "desired_positions" (action.payload.getD "desired_positions" .null) =
          some (.ok desired) →
        (applySafetyShield propagation now stamps requireConnectivity (action.toEnu desired) snapshot
          config).map ShieldDecision.outcome = some decision.outcome) ↔
      FramesAgree propagation now stamps requireConnectivity action snapshot config := by
  rw [and_iff_left]
  · cases decidedBy_of_applySafetyShield h with
    | refused issues hinadmissible hrefusal =>
        obtain ⟨-, haction, -⟩ := refuseEarly_spec hrefusal
        refine ⟨fun _ uavs desired review hvalid _ hdesired _ => ?_, fun _ returned hreturned => ?_⟩
        · -- the shield has come to a review, so it did not refuse the action
          refine absurd ⟨hvalid, ?_⟩ hinadmissible
          rw [malformedPositions]
          split
          · rfl
          · simp [hdesired]
        · exact absurd (haction.symm.trans hreturned) (by simp)
    | untouched _ habsent hdecided =>
        subst hdecided
        refine ⟨fun _ uavs desired review _ _ hdesired _ => ?_, fun _ returned hreturned => ?_⟩
        · rw [habsent] at hdesired
          simp [normalizeVec3Map] at hdesired
        · obtain rfl := Option.some.inj hreturned
          intro field _ value _ p _
          refine Or.inl ?_
          rw [writtenFrame, habsent]
    | reviewed uavs desired review hadmissible hfleet hdesired hresult hconclusion =>
        have hasked : action.payload.getD "desired_positions" .null ≠ .null := by
          intro habsent
          rw [habsent] at hdesired
          simp [normalizeVec3Map] at hdesired
        obtain ⟨_, _, _, _, _, _, hparts⟩ := reviewPositions_spec hresult
        rw [frameConsistent_of_reviewed hasked hconclusion, hparts.uavs_eq]
        constructor
        · intro hreadable uavs' desired' review' _ hfleet' hdesired' hresult'
          obtain rfl := Option.some.inj (hfleet.symm.trans hfleet')
          obtain rfl := Except.ok.inj (Option.some.inj (hdesired.symm.trans hdesired'))
          obtain rfl := Option.some.inj (hresult.symm.trans hresult')
          exact hreadable
        · exact fun hagree => hagree uavs desired review hadmissible.1 hfleet hdesired hresult
  · intro desired hframe hdesired
    rw [applySafetyShield_toEnu hneg hframe hdesired, h]
    rfl

end

/-! ## A target in NED -/

/-- The action that sends a UAV a metre to the east, at an altitude of ten metres, in NED. -/
def nedAction (uavId : String) : AlgorithmAction ℚ :=
  { moveAction uavId ⟨0, 1, -10⟩ none with coordinateFrame := "NED" }

/-- The target of the UAV of the snapshot. -/
theorem frameConsistent_iff_oneUav :
    ∃ decision, applySafetyShield noLinks 0 stillStamps true (nedAction "drone_1") oneUav .empty =
        some decision ∧ decision.accepted = true ∧
      ((FrameConsistent (nedAction "drone_1") decision ∧
        ∀ desired, (nedAction "drone_1").coordinateFrame = "NED" →
          normalizeVec3Map "desired_positions"
            ((nedAction "drone_1").payload.getD "desired_positions" .null) = some (.ok desired) →
          (applySafetyShield noLinks 0 stillStamps true ((nedAction "drone_1").toEnu desired) oneUav
            .empty).map ShieldDecision.outcome = some decision.outcome) ↔
        FramesAgree noLinks 0 stillStamps true (nedAction "drone_1") oneUav .empty) := by
  have haccepted : (applySafetyShield noLinks 0 stillStamps true (nedAction "drone_1") oneUav
      .empty).any ShieldDecision.accepted = true := by
    decide +kernel
  obtain ⟨decision, hdecision, haccepted⟩ := (Option.any_eq_true _ _).mp haccepted
  exact ⟨decision, hdecision, haccepted, frameConsistent_iff (fun _ _ => rfl) hdecision⟩

/-- A rejected action in NED comes back with the position of the fleet in ENU. -/
theorem not_frameConsistent :
    ¬∀ (propagation : Propagation ℚ) (now : ℚ) (stamps : ℕ → LinkStamp ℚ)
      (requireConnectivity : Bool) (action : AlgorithmAction ℚ)
      (snapshot config : Dict String (Json ℚ)) (decision : ShieldDecision ℚ),
      applySafetyShield propagation now stamps requireConnectivity action snapshot config =
        some decision →
      FrameConsistent action decision ∧
        ∀ desired, action.coordinateFrame = "NED" →
          normalizeVec3Map "desired_positions" (action.payload.getD "desired_positions" .null) =
            some (.ok desired) →
          (applySafetyShield propagation now stamps requireConnectivity (action.toEnu desired)
            snapshot config).map ShieldDecision.outcome = some decision.outcome := by
  intro hclaim
  have hreturned : (applySafetyShield noLinks 0 stillStamps true (nedAction "drone_2") oneUav
      .empty).any (fun d => d.action.any fun returned =>
        returned.coordinateFrame = "NED" && (returned.payload.get? "desired_positions").any fun value =>
          value.points = [⟨0, 0, 10⟩]) = true := by
    decide +kernel
  obtain ⟨decision, hdecision, hreturned⟩ := (Option.any_eq_true _ _).mp hreturned
  obtain ⟨returned, haction, hreturned⟩ := (Option.any_eq_true _ _).mp hreturned
  rw [Bool.and_eq_true, decide_eq_true_eq] at hreturned
  obtain ⟨value, hvalue, hpoints⟩ := (Option.any_eq_true _ _).mp hreturned.2
  have hmem : (⟨0, 0, 10⟩ : Vec3 ℚ) ∈ value.points := by
    rw [of_decide_eq_true hpoints]
    exact List.mem_cons_self
  have hexpressed := (hclaim noLinks 0 stillStamps true (nedAction "drone_2") oneUav .empty decision
    hdecision).1 returned haction "desired_positions" List.mem_cons_self value hvalue _ hmem
  rw [hreturned.1] at hexpressed
  -- read in NED, the position is ten metres below the ground
  rcases hexpressed with hsame | ⟨q, hned, henu⟩
  · exact absurd hsame (by decide)
  · have hq : enu (⟨0, 0, 10⟩ : Vec3 ℚ) "NED" = .ok ⟨0, 0, -10⟩ := by
      decide +kernel
    have hq' : enu (⟨0, 0, 10⟩ : Vec3 ℚ) "ENU" = .ok ⟨0, 0, 10⟩ := by
      decide +kernel
    have hne := (Except.ok.inj (hned.symm.trans hq)).symm.trans
      (Except.ok.inj (henu.symm.trans hq'))
    exact absurd hne (by decide +kernel)

end Netlab
