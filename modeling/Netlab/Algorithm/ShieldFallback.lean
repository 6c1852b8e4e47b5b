import Netlab.Algorithm.Shield

/-!
# The fallback of the safety shield

A decision that rejects an action says that a fallback is applied. Callers expect the same one from
every rejection: the action that holds every operational UAV where it is, without any other command
(`UniformFallback`). The shield returns it when it rejects positions that it has reviewed; an action
that it refuses before that comes back as the empty one.
-/

namespace Netlab

variable {F : Type} [PyText F]

section

variable [PyFloat F]

/-- Hold every operational UAV of a snapshot at its position, and command nothing else. -/
structure HoldsFleet (snapshot : Dict String (Json F)) (action : AlgorithmAction F) : Prop where
  /-- The payload is a map of positions. -/
  payload : ∃ positions : Dict String (Vec3 F),
    action.payload.entries = [("desired_positions", positionsJson positions)] ∧
      ∀ id p, positions.get? id = some p ↔
        ∃ uavs item, uavMap snapshot = some uavs ∧ uavs.get? id = some item ∧
          isOperational item = true ∧ currentPosition item = some p
  /-- The action says that it is a fallback. -/
  fallback : action.fallback = true

/-- The decision returns the fallback. -/
def UniformFallback (snapshot : Dict String (Json F)) (decision : ShieldDecision F) : Prop :=
  ∃ action, decision.action = some action ∧ HoldsFleet snapshot action

/-- The fallback positions are those of the operational UAVs. -/
theorem get?_fallbackPositions {uavs : Dict String (Dict String (Json F))}
    {positions : Dict String (Vec3 F)} (h : fallbackPositions uavs = some positions) (id : String)
    (p : Vec3 F) : positions.get? id = some p ↔
      ∃ item, uavs.get? id = some item ∧ isOperational item = true ∧
        currentPosition item = some p := by
  rw [Dict.get?_of_traverse h, Option.bind_eq_some_iff]
  simp only [get?_operationalUavs, and_assoc]

end

variable [PyMotion F]

/-- What the shield rejects after a review, it replaces by the fallback. -/
theorem holdsFleet_of_rejected {config snapshot : Dict String (Json F)}
    {action : AlgorithmAction F} {review : ShieldReview F} {decision : ShieldDecision F}
    (hfleet : uavMap snapshot = some review.uavs)
    (h : concludeReview config action review = some decision)
    (hrejected : decision.accepted = false) : UniformFallback snapshot decision := by
  rcases concludeReview_spec h with
    ⟨-, -, -, positions, held, hpositions, hheld, hfallback, hpayload⟩ | ⟨-, haccepted, -⟩
  · refine ⟨held, hheld, ⟨positions, ?_, fun id p => ?_⟩, hfallback⟩
    · rw [hpayload, Dict.entries_ofList (by simp)]
    · simp [get?_fallbackPositions hpositions, hfleet]
  · simp [haccepted] at hrejected

/-- A decision rejects exactly when it says that the fallback is applied. The action that it returns
when it rejects is the fallback exactly if the shield did not refuse the action before a review:
`validate` has nothing against it, and its desired positions keep the contract. -/
theorem uniformFallback_iff {propagation : Propagation F} {now : F} {stamps : ℕ → LinkStamp F}
    {requireConnectivity : Bool} {action : AlgorithmAction F}
    {snapshot config : Dict String (Json F)} {decision : ShieldDecision F}
    (h : applySafetyShield propagation now stamps requireConnectivity action snapshot config =
      some decision) :
    decision.fallbackApplied = !decision.accepted ∧
      ((decision.accepted = false → UniformFallback snapshot decision) ↔
        action.Admissible now) := by
  cases decidedBy_of_applySafetyShield h with
  | refused issues hinadmissible hrefusal =>
      obtain ⟨haccepted, haction, happlied⟩ := refuseEarly_spec hrefusal
      refine ⟨by rw [haccepted, happlied]; rfl, fun hfallback => ?_, fun hadmissible =>
        absurd hadmissible hinadmissible⟩
      -- the early refusal keeps no action
      obtain ⟨held, hheld, -⟩ := hfallback haccepted
      simp [haction] at hheld
  | untouched hadmissible _ hdecided =>
      subst hdecided
      exact ⟨rfl, fun _ => hadmissible, fun _ hrejected => absurd hrejected (by simp)⟩
  | reviewed uavs desired review hadmissible hfleet _ hresult hconclusion =>
      refine ⟨?_, fun _ => hadmissible, fun _ => ?_⟩
      · rcases concludeReview_spec hconclusion with
          ⟨-, haccepted, happlied, -⟩ | ⟨-, haccepted, happlied, -⟩ <;>
          rw [haccepted, happlied] <;> rfl
      · obtain ⟨_, _, _, _, _, _, hparts⟩ := reviewPositions_spec hresult
        rw [← hparts.uavs_eq] at hfleet
        exact holdsFleet_of_rejected hfleet hconclusion

/-! ## Two rejections -/

/-- An action that sends one UAV to a position. -/
def moveAction (uavId : String) (position : Vec3 ℚ) (confidence : Option ℚ) :
    AlgorithmAction ℚ where
  algorithmId := "line_policy"
  algorithmVersion := "1.0.0"
  sourceRevisionId := "rev-1"
  timestampS := 0
  validityHorizonS := 1
  coordinateFrame := "ENU"
  units := .empty
  payload := .ofList [("desired_positions", .obj [(uavId, position.toJson)])]
  confidence
  computationDurationS := 0

/-- A snapshot of one UAV. -/
def oneUav : Dict String (Json ℚ) :=
  .ofList [("uavs", .arr [.obj [("id", .str "drone_1"),
    ("position", .arr [.float 0, .float 0, .float 10])]])]

/-- A propagation model without path loss, for configurations without links. -/
def noLinks : Propagation ℚ where
  basePathLoss _ _ := none
  shadowing _ _ := 0

/-- A clock that stands still. -/
def stillStamps (_ : ℕ) : LinkStamp ℚ := ⟨"", 0, 0⟩

/-- A UAV that the snapshot does not have is commanded: the action is rejected after the review. -/
theorem uniformFallback_iff_unknownUav :
    ∃ decision, applySafetyShield noLinks 0 stillStamps true (moveAction "drone_2" ⟨1, 0, 10⟩ none)
        oneUav .empty = some decision ∧ decision.accepted = false ∧
      decision.fallbackApplied = !decision.accepted ∧
      ((decision.accepted = false → UniformFallback oneUav decision) ↔
        (moveAction "drone_2" ⟨1, 0, 10⟩ none).Admissible 0) := by
  have hrejected : (applySafetyShield noLinks 0 stillStamps true
      (moveAction "drone_2" ⟨1, 0, 10⟩ none) oneUav .empty).any (fun d => !d.accepted) = true := by
    decide +kernel
  obtain ⟨decision, hdecision, haccepted⟩ := (Option.any_eq_true _ _).mp hrejected
  exact ⟨decision, hdecision, by simpa using haccepted, uniformFallback_iff hdecision⟩

/-- An action with a confidence above one is rejected without the fallback. -/
theorem not_uniformFallback_overconfident :
    ¬∀ (propagation : Propagation ℚ) (now : ℚ) (stamps : ℕ → LinkStamp ℚ)
      (requireConnectivity : Bool) (action : AlgorithmAction ℚ)
      (snapshot config : Dict String (Json ℚ)) (decision : ShieldDecision ℚ),
      applySafetyShield propagation now stamps requireConnectivity action snapshot config =
        some decision →
      decision.accepted = false → UniformFallback snapshot decision := by
  intro hclaim
  have hrefused : (applySafetyShield noLinks 0 stillStamps true
      (moveAction "drone_1" ⟨1, 0, 10⟩ (some 1.5)) oneUav .empty).any
        (fun d => !d.accepted && d.action.isNone) = true := by
    decide +kernel
  obtain ⟨decision, hdecision, hrefusal⟩ := (Option.any_eq_true _ _).mp hrefused
  rw [Bool.and_eq_true, Bool.not_eq_true', Option.isNone_iff_eq_none] at hrefusal
  obtain ⟨held, hheld, -⟩ := hclaim noLinks 0 stillStamps true _ oneUav .empty decision hdecision
    hrefusal.1
  simp [hrefusal.2] at hheld

end Netlab
