import Netlab.Algorithm.ShieldClock
import Netlab.Algorithm.ShieldPayload
import Netlab.Algorithm.ShieldSoundness

/-!
# Fixed points of the projection

In exact arithmetic the shield leaves a target alone that lies in the region and within reach
(`commandUav_of_reachable`): clamping, the limit on the step and the limit on the climb all do
nothing. What it sends out is such a target. So when the positions of an accepted action are
submitted again, to the same snapshot and configuration, they are accepted as they are
(`applySafetyShield_again`).
-/

namespace Netlab

/-! ## A whole review -/

section

variable [PyText ℝ]

/-- Where a review that found no error sends UAVs, they can be sent again. -/
theorem command_of_review {propagation : Propagation ℝ} {stamps : ℕ → LinkStamp ℝ}
    {requireConnectivity : Bool} {config : Dict String (Json ℝ)} {frame : String}
    {uavs : Dict String (Dict String (Json ℝ))} {desired : Dict String (Vec3 ℝ)}
    {review : ShieldReview ℝ} {limits : ShieldLimits ℝ}
    {commands : Dict String (Commanded ℝ)} {complete : Dict String (Vec3 ℝ)} {reserve : ℝ}
    {lowBattery : List (ShieldIssue ℝ)} {connected : Bool}
    (hparts : ReviewParts propagation stamps requireConnectivity config frame uavs desired review
      limits commands complete reserve lowBattery connected) {id : String} {p : Vec3 ℝ}
    (hinside : ∀ item current, id ∈ desired.keys → uavs.get? id = some item →
      currentPosition item = some current → limits.InRegion current)
    (hp : review.normalized.get? id = some p) :
    ∃ item current, uavs.get? id = some item ∧ isOperational item = true ∧
      currentPosition item = some current ∧ Reachable limits current p := by
  rw [hparts.normalized_eq, Dict.get?_filterMap] at hp
  obtain ⟨command, hcommand, hp⟩ := Option.bind_eq_some_iff.mp hp
  rw [Dict.get?_of_traverse hparts.commands_eq, Dict.get?_restrict] at hcommand
  obtain ⟨target, htarget, hcommand⟩ := Option.bind_eq_some_iff.mp hcommand
  obtain ⟨item, hitem, hcommand⟩ := Option.bind_eq_some_iff.mp hcommand
  -- the desired positions were restricted to the fleet first
  have htarget : desired.get? id = some target := by
    split at htarget
    · exact htarget
    · simp at htarget
  obtain ⟨hoperational, current, hcurrent, hreach⟩ := commandUav_spec hparts.limits_eq hcommand hp
    fun current hcurrent => hinside item current (Dict.mem_keys_iff.mpr ⟨target, htarget⟩) hitem
      hcurrent
  exact ⟨item, current, hitem, hoperational, hcurrent, hreach⟩

/-- A review that found no error sends a UAV to its target if that is in the region and within
reach. -/
theorem command_of_reachable {propagation : Propagation ℝ} {stamps : ℕ → LinkStamp ℝ}
    {requireConnectivity : Bool} {config : Dict String (Json ℝ)} {frame : String}
    {uavs : Dict String (Dict String (Json ℝ))} {desired : Dict String (Vec3 ℝ)}
    {review : ShieldReview ℝ} {limits : ShieldLimits ℝ}
    {commands : Dict String (Commanded ℝ)} {complete : Dict String (Vec3 ℝ)} {reserve : ℝ}
    {lowBattery : List (ShieldIssue ℝ)} {connected : Bool}
    (hparts : ReviewParts propagation stamps requireConnectivity config frame uavs desired review
      limits commands complete reserve lowBattery connected) {id : String} {target q : Vec3 ℝ}
    {item : Dict String (Json ℝ)} {current : Vec3 ℝ} (htarget : desired.get? id = some target)
    (hq : enu target frame = .ok q) (hitem : uavs.get? id = some item)
    (hoperational : isOperational item = true) (hcurrent : currentPosition item = some current)
    (hreach : Reachable limits current q) : review.normalized.get? id = some q := by
  obtain ⟨hrate, -, -⟩ := shieldLimits_pos hparts.limits_eq
  have hkept : (desired.restrict fun id => (uavs.get? id).isSome).get? id = some target := by
    rw [Dict.get?_restrict, hitem]
    exact htarget
  obtain ⟨command, hcommand, hget⟩ := Dict.isSome_of_traverse hparts.commands_eq hkept
  obtain ⟨item', hitem', hcommand⟩ := Option.bind_eq_some_iff.mp hcommand
  obtain rfl := Option.some.inj (hitem.symm.trans hitem')
  obtain rfl := Option.some.inj
    ((commandUav_of_reachable hrate hoperational hcurrent hq hreach).symm.trans hcommand)
  rw [hparts.normalized_eq, Dict.get?_filterMap, hget]
  rfl

/-- A review of what a review without errors sends out finds no error, and sends out the same. -/
theorem reviewPositions_again {propagation : Propagation ℝ} {stamps : ℕ → LinkStamp ℝ}
    {requireConnectivity : Bool} {config : Dict String (Json ℝ)} {frame : String}
    {uavs : Dict String (Dict String (Json ℝ))} {desired : Dict String (Vec3 ℝ)}
    {review : ShieldReview ℝ}
    (h : reviewPositions propagation stamps requireConnectivity config frame uavs desired =
      some review)
    (hinside : ∀ limits id item current, shieldLimits config = some limits → id ∈ desired.keys →
      uavs.get? id = some item → currentPosition item = some current → limits.InRegion current)
    (hfree : ∀ issue ∈ review.issues, issue.isError = false) :
    ∃ again, reviewPositions propagation stamps requireConnectivity config "ENU" uavs
        review.normalized = some again ∧ again.normalized = review.normalized ∧
      again.issues.any ShieldIssue.isError = false := by
  obtain ⟨limits, commands, complete, reserve, lowBattery, connected, hparts⟩ :=
    reviewPositions_spec h
  obtain ⟨hrate, -, -⟩ := shieldLimits_pos hparts.limits_eq
  have hcommand : ∀ id p, review.normalized.get? id = some p →
      ∃ item current, uavs.get? id = some item ∧ isOperational item = true ∧
        currentPosition item = some current ∧ Reachable limits current p := fun id p hp =>
    command_of_review hparts (fun item current => hinside limits id item current hparts.limits_eq) hp
  -- every UAV is known
  have hknown : ∀ id ∈ review.normalized.keys, (uavs.get? id).isSome = true := by
    intro id hid
    obtain ⟨p, hp⟩ := Dict.mem_keys_iff.mp hid
    obtain ⟨item, -, hitem, -⟩ := hcommand id p hp
    rw [hitem]
    rfl
  -- and every command is a fixed point
  have hcommands : commandUavs limits "ENU" uavs review.normalized =
      some (review.normalized.map fun _ p => {
        issues := [], projected := false, position := some p }) := by
    rw [commandUavs, Dict.restrict_eq_self hknown]
    apply Dict.traverse_eq_map
    intro e he
    obtain ⟨item, current, hitem, hoperational, hcurrent, hreach⟩ :=
      hcommand e.1 e.2 (Dict.get?_eq_some_iff.mpr he)
    have henu : enu e.2 "ENU" = .ok e.2 := rfl
    simp only [hitem, Option.bind_eq_bind, Option.bind_some]
    exact commandUav_of_reachable hrate hoperational hcurrent henu hreach
  have hnormalized : (review.normalized.map fun _ p => ({
      issues := [], projected := false, position := some p } : Commanded ℝ)).filterMap
        (fun _ command => command.position) = review.normalized := by
    ext1
    simp [Dict.filterMap, Dict.map, List.filterMap_map]
  have hunknown : unknownIssues uavs review.normalized = [] := by
    have hnone : (review.normalized.keys.filter fun id => (uavs.get? id).isNone) = [] := by
      rw [List.filter_eq_nil_iff]
      intro id hid hmissing
      have hsome := hknown id hid
      rw [Option.isNone_iff_eq_none] at hmissing
      simp [hmissing] at hsome
    rw [unknownIssues, hnone]
    rfl
  have hresult : ∃ again, reviewPositions propagation stamps requireConnectivity config "ENU" uavs
      review.normalized = some again ∧ again.normalized = review.normalized ∧
      again.issues = (review.normalized.map fun _ p => ({
        issues := [], projected := false, position := some p } : Commanded ℝ)).values.flatMap
          Commanded.issues ++
        separationIssues limits.minSeparation
          (complete.entries.insertionSort fun a b => a.1 ≤ b.1) ++ lowBattery ++
        if requireConnectivity && !connected then [connectivityIssue review.linkPreview] else [] := by
    simp only [reviewPositions, bind, pure, hparts.limits_eq, hcommands, hnormalized,
      hparts.complete_eq, hparts.reserve_eq, hparts.lowBattery_eq, hparts.preview_eq, hunknown,
      Option.bind_some, List.nil_append]
    exact ⟨_, rfl, rfl, rfl⟩
  obtain ⟨again, hagain, hsame, hissues⟩ := hresult
  refine ⟨again, hagain, hsame, ?_⟩
  have hnothing : (review.normalized.map fun _ p => ({
      issues := [], projected := false, position := some p } : Commanded ℝ)).values.flatMap
        Commanded.issues = [] := by
    simp only [List.flatMap_eq_nil_iff, Dict.values, Dict.map, List.map_map, List.mem_map]
    rintro _ ⟨e, -, rfl⟩
    rfl
  rw [hparts.issues_eq] at hfree
  rw [hissues, hnothing, List.nil_append, List.any_eq_false]
  intro issue hissue
  rw [Bool.not_eq_true]
  apply hfree
  simp only [List.mem_append] at hissue ⊢
  tauto

/-! ## The same positions again -/

/-- The commanded UAVs of an action that starts in the region are in it. -/
theorem StartsInRegion.inRegion {action : AlgorithmAction ℝ}
    {snapshot config : Dict String (Json ℝ)} {uavs : Dict String (Dict String (Json ℝ))}
    {desired : Dict String (Vec3 ℝ)} (h : StartsInRegion action snapshot config)
    (hfleet : uavMap snapshot = some uavs)
    (hdesired : normalizeVec3Map "desired_positions"
      (action.payload.getD "desired_positions" .null) = some (.ok desired))
    (limits : ShieldLimits ℝ) (id : String) (item : Dict String (Json ℝ)) (current : Vec3 ℝ)
    (hlimits : shieldLimits config = some limits) (hid : id ∈ desired.keys)
    (hitem : uavs.get? id = some item) (hcurrent : currentPosition item = some current) :
    limits.InRegion current := by
  obtain ⟨commanded, hcommanded, hkeys, -⟩ := get?_of_normalizeVec3Map hdesired
  rw [← hkeys] at hid
  exact h limits uavs commanded id item current hlimits hfleet hcommanded hid hitem hcurrent

/-- The action that an accepted review returns: in ENU, with the reviewed positions, and as valid as
the one that was asked for. -/
theorem concludeReview_valid {config : Dict String (Json ℝ)} {action : AlgorithmAction ℝ}
    {review : ShieldReview ℝ} {decision : ShieldDecision ℝ} {now : ℝ}
    (h : concludeReview config action review = some decision) (haccepted : decision.accepted = true)
    (hkey : "desired_positions" ∈ action.payload.keys) (hvalid : action.validate now = []) :
    ∃ shielded, decision.action = some shielded ∧ shielded.coordinateFrame = "ENU" ∧
      shielded.payload.get? "desired_positions" = some (positionsJson review.normalized) ∧
      shielded.validate now = [] := by
  obtain ⟨controller, -, h⟩ := Option.bind_eq_some_iff.mp h
  dsimp only at h
  split at h
  · obtain ⟨positions, -, h⟩ := Option.bind_eq_some_iff.mp h
    obtain rfl := Option.some.inj h
    simp at haccepted
  · obtain rfl := Option.some.inj h
    refine ⟨_, rfl, rfl, Dict.get?_set_self .., ?_⟩
    have henu : "ENU" ∈ actionFrames := by decide
    simp only [AlgorithmAction.validate, List.append_eq_nil_iff, errorIf_eq_nil,
      AlgorithmAction.unknownFields, AlgorithmAction.isStale, Dict.keys_set_of_mem _ hkey]
      at hvalid ⊢
    obtain ⟨⟨⟨⟨⟨⟨⟨hid, hrevision⟩, -⟩, hrest⟩, hstale⟩, hfields⟩, hconfidence⟩, hresiduals⟩ := hvalid
    exact ⟨⟨⟨⟨⟨⟨⟨hid, hrevision⟩, by simpa using henu⟩, hrest⟩, hstale⟩, hfields⟩, hconfidence⟩,
      hresiduals⟩

/-- An action that asks for positions that were sent out, and is not refused for anything else. -/
structure AsksAgain (config : Dict String (Json ℝ)) (output : Dict String (Vec3 ℝ)) (now' : ℝ)
    (stamps stamps' : ℕ → LinkStamp ℝ) (again : AlgorithmAction ℝ) : Prop where
  valid : again.validate now' = []
  frame : again.coordinateFrame = "ENU"
  positions : again.payload.get? "desired_positions" = some (positionsJson output)
  /-- The metrics of the links are as fresh as they were. -/
  readings : SameReadings config again now' now' stamps stamps'

/-- In exact arithmetic an accepted decision does not move a target in the region and within reach.
What it sends out is accepted as it is when it is asked for again, by the returned action or by any
other, provided that the commanded UAVs are in the region. -/
theorem applySafetyShield_again {propagation : Propagation ℝ} {now : ℝ} {stamps : ℕ → LinkStamp ℝ}
    {requireConnectivity : Bool} {action : AlgorithmAction ℝ}
    {snapshot config : Dict String (Json ℝ)} {decision : ShieldDecision ℝ}
    (h : applySafetyShield propagation now stamps requireConnectivity action snapshot config =
      some decision)
    (haccepted : decision.accepted = true)
    (hpositions : action.payload.getD "desired_positions" .null ≠ .null) :
    ∃ limits uavs desired output shielded,
      shieldLimits config = some limits ∧ uavMap snapshot = some uavs ∧
      normalizeVec3Map "desired_positions" (action.payload.getD "desired_positions" .null) =
        some (.ok desired) ∧
      decision.action = some shielded ∧
      shielded.payload.get? "desired_positions" = some (positionsJson output) ∧
      -- a target that is admissible is not changed
      (∀ id target q item current, desired.get? id = some target →
        enu target action.coordinateFrame = .ok q → uavs.get? id = some item →
        currentPosition item = some current → Reachable limits current q →
        output.get? id = some q) ∧
      -- and what comes out is accepted again
      (StartsInRegion action snapshot config →
        AsksAgain config output now stamps stamps shielded ∧
        ∀ again now' stamps', AsksAgain config output now' stamps stamps' again →
          ∃ decision' shielded',
            applySafetyShield propagation now' stamps' requireConnectivity again snapshot config =
              some decision' ∧ decision'.accepted = true ∧ decision'.action = some shielded' ∧
            shielded'.payload.get? "desired_positions" = some (positionsJson output)) := by
  cases decidedBy_of_applySafetyShield h with
  | refused issues _ hrefusal => simp [(refuseEarly_spec hrefusal).1] at haccepted
  | untouched _ habsent _ => exact absurd habsent hpositions
  | reviewed uavs desired review hadmissible hfleet hdesired hresult hconclusion =>
      rcases concludeReview_spec hconclusion with ⟨-, hrejected, -⟩ | ⟨hharmless, -⟩
      · simp [hrejected] at haccepted
      have hfree : ∀ issue ∈ review.issues, issue.isError = false := by simpa using hharmless
      have hkey : "desired_positions" ∈ action.payload.keys := by
        rw [Dict.mem_keys_iff, ← Option.isSome_iff_exists, ← Option.ne_none_iff_isSome]
        intro hnone
        rw [Dict.getD, hnone] at hpositions
        exact hpositions rfl
      obtain ⟨shielded, hshielded, hframe, hpayload, hvalid⟩ :=
        concludeReview_valid hconclusion haccepted hkey hadmissible.1
      obtain ⟨limits, commands, complete, reserve, lowBattery, connected, hparts⟩ :=
        reviewPositions_spec hresult
      refine ⟨limits, uavs, desired, review.normalized, shielded, hparts.limits_eq, hfleet, hdesired,
        hshielded, hpayload, ?_, fun hinside => ⟨⟨hvalid, hframe, hpayload, rfl, fun _ _ _ _ _ _ =>
          rfl⟩, ?_⟩⟩
      · intro id target q item current htarget hq hitem hcurrent hreach
        obtain ⟨item', hitem', hoperational⟩ := operational_of_review hresult hfree htarget
        obtain rfl := Option.some.inj (hitem.symm.trans hitem')
        exact command_of_reachable hparts htarget hq hitem hoperational hcurrent hreach
      · intro again now' stamps' hagain
        obtain ⟨review', hreview', hsame, hnoError⟩ :=
          reviewPositions_again hresult (hinside.inRegion hfleet hdesired) hfree
        obtain ⟨controller, hcontroller, -⟩ := Option.bind_eq_some_iff.mp hconclusion
        obtain ⟨decision', shielded', hdecision', haccepted', hshielded', hpayload'⟩ :=
          @concludeReview_of_free _ _ _ again _ hcontroller hnoError
        rw [hsame] at hpayload'
        -- at the readings of the first time
        have hread : normalizeVec3Map "desired_positions"
            (again.payload.getD "desired_positions" .null) = some (.ok review.normalized) := by
          rw [Dict.getD, hagain.positions]
          exact normalizeVec3Map_positionsJson _ fun _ _ _ => ⟨rfl, rfl, rfl⟩
        have hfirst : applySafetyShield propagation now' stamps requireConnectivity again snapshot
            config = some decision' := by
          rw [applySafetyShield, hagain.valid]
          simp only [hfleet, Option.bind_eq_bind, Option.bind_some]
          rw [shieldPositions_of_wellFormed hread, hagain.frame, hreview', Option.bind_some,
            hdecision']
        -- and at those of the second
        have hsecond : (applySafetyShield propagation now' stamps requireConnectivity again snapshot
              config).map ShieldDecision.outcome =
            (applySafetyShield propagation now' stamps' requireConnectivity again snapshot
              config).map ShieldDecision.outcome := applySafetyShield_outcome hagain.readings
        rw [hfirst, Option.map_some] at hsecond
        obtain ⟨decision'', hdecision'', houtcome⟩ := Option.map_eq_some_iff.mp hsecond.symm
        have haccepted'' : decision''.accepted = true :=
          (congrArg ShieldOutcome.accepted houtcome).trans haccepted'
        have hpayload'' : decision''.action.map AlgorithmAction.payload = some shielded'.payload := by
          rw [← Option.map_some, ← hshielded']
          exact congrArg ShieldOutcome.payload houtcome
        obtain ⟨shielded'', hshielded'', heq⟩ := Option.map_eq_some_iff.mp hpayload''
        exact ⟨decision'', shielded'', hdecision'', haccepted'', hshielded'', by rw [heq, hpayload']⟩

end

section

attribute [local instance] PyText.exact

/-- The target of the second UAV is not changed, and the positions that both UAVs are sent to are
accepted again. -/
theorem applySafetyShield_again_pair :
    ∃ decision shielded decision' shielded',
      applySafetyShield noShadowing 0 stoppedClock true farAction pairFleet fencedConfig =
        some decision ∧ decision.action = some shielded ∧
      shielded.payload.get? "desired_positions" = some (positionsJson steppedPair) ∧
      steppedPair.get? "drone_2" = some ⟨1, 30.0, 10.0⟩ ∧
      applySafetyShield noShadowing 0 stoppedClock true shielded pairFleet fencedConfig =
        some decision' ∧ decision'.accepted = true ∧ decision'.action = some shielded' ∧
      shielded'.payload.get? "desired_positions" = some (positionsJson steppedPair) := by
  obtain ⟨decision, shielded, hdecision, haccepted, hshielded, hpayload⟩ := applySafetyShield_far
  obtain ⟨limits, uavs, desired, output, again, hlimits, huavs, hdesired, hagain, hpayload',
    hidentity, hresubmission⟩ :=
    applySafetyShield_again hdecision haccepted (fun hnull => by cases hnull)
  obtain rfl := Option.some.inj (shieldLimits_fenced.symm.trans hlimits)
  obtain rfl := Option.some.inj (uavMap_pairFleet.symm.trans huavs)
  obtain rfl := Except.ok.inj (Option.some.inj (normalizeVec3Map_farTargets.symm.trans hdesired))
  obtain rfl := Option.some.inj (hshielded.symm.trans hagain)
  obtain rfl := positionsJson_injective (Option.some.inj (hpayload.symm.trans hpayload'))
  obtain ⟨hasks, hall⟩ := hresubmission startsInRegion_far
  obtain ⟨decision', shielded', hdecision', haccepted', hshielded', hpayload''⟩ :=
    hall shielded 0 stoppedClock hasks
  exact ⟨decision, shielded, decision', shielded', hdecision, hshielded, hpayload,
    hidentity "drone_2" ⟨1, 30.0, 10.0⟩ ⟨1, 30.0, 10.0⟩ (hovering "drone_2" 1 30.0)
      ⟨1, 30.0, 10.0⟩ rfl rfl rfl rfl reachable_held, hdecision', haccepted', hshielded',
    hpayload''⟩

end

end Netlab
