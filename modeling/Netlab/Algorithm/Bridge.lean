import Netlab.Algorithm.ShieldFallback
import Netlab.Prelude.JsonText
import Netlab.Relay.Runs

/-!
# The algorithm bridge

`_observation_cb` of `algorithm_bridge.py`: the result of an algorithm becomes an action, the safety
shield decides about it, and an action is published to the relay chain. What is published is the
action of the shield, unless that one is empty; then it is the action as the algorithm gave it.

The relay chain only writes positions of a published action. They are what the shield let through or
its fallback exactly if the shield did not refuse the action before its review, or the refused
action calls itself a fallback and plans no position that a relay chain would read
(`bridgeSafe_iff`).
-/

namespace Netlab

variable {F : Type}

/-- An action as the bridge publishes it. -/
structure BridgeMessage (F : Type) where
  algorithmId : String
  algorithmVersion : String
  sourceRevisionId : String
  coordinateFrame : String
  validityHorizonS : F
  computationDurationS : F
  objectiveValue : F
  terminationReason : String
  fallback : Bool
  payload : Dict String (Json F)
  constraintResiduals : Dict String F

/-- What the relay chain receives of it. -/
def BridgeMessage.toActionMessage (message : BridgeMessage F) : ActionMessage F where
  algorithmId := message.algorithmId
  sourceRevisionId := message.sourceRevisionId
  payload := some (.ofDict message.payload)

/-- What the bridge reads from outside in one callback. -/
structure BridgeInput (F : Type) where
  /-- the selected algorithm -/
  algorithmId : String
  manifest : AlgorithmManifest F
  /-- the revision that the observation message names -/
  revisionId : String
  observation : Dict String (Json F)
  /-- what the algorithm returned, and how long it took -/
  result : Json F
  durationS : F
  config : Dict String (Json F)
  /-- the clock when the action is made and when it is validated -/
  madeAt : F
  validatedAt : F
  stamps : ℕ → LinkStamp F

namespace BridgeInput

section

variable [PyText F] [PyFloat F]

/-- The result as an object. -/
def raw (input : BridgeInput F) : Dict String (Json F) :=
  match input.result.dict? with
  | some raw => raw
  | none => .ofList [("metrics", .obj [("result", input.result)])]

/-- The revision that an action is based on unless it names another one. -/
def observedRevision (input : BridgeInput F) : String :=
  if input.revisionId = "" then input.observation.getText "revision_id" "runtime-current"
  else input.revisionId

/-- The action that the algorithm proposes. -/
def action (input : BridgeInput F) : Option (AlgorithmAction F) :=
  AlgorithmAction.fromMapping input.manifest input.observedRevision input.durationS input.madeAt
    input.raw

/-- Whether the configuration asks for connectivity. -/
def requireConnectivity (input : BridgeInput F) : Option Bool := do
  let swarm ← Experiment.section? input.config "swarm"
  let controller ← Experiment.section? swarm "controller"
  return controller.getBool "connectivity_preservation" true

/-- The message that carries an action. It is not published when a number in it is not finite. -/
def message (input : BridgeInput F) (outgoing : AlgorithmAction F) : Option (BridgeMessage F) :=
  -- the payload has to be rendered, and no other than a finite number can be
  if JsonText.finite outgoing.toDict then
    some {
      algorithmId := input.algorithmId
      algorithmVersion := input.manifest.version
      sourceRevisionId := outgoing.sourceRevisionId
      coordinateFrame := outgoing.coordinateFrame
      validityHorizonS := outgoing.validityHorizonS
      computationDurationS := outgoing.computationDurationS
      objectiveValue := outgoing.objectiveValue.getD 0.0
      terminationReason := outgoing.terminationReason
      fallback := outgoing.fallback
      payload := outgoing.payload
      constraintResiduals := outgoing.constraintResiduals }
  else none

end

variable [PyText F] [PyMotion F]

/-- What the shield decides about the action. -/
def decision (propagation : Propagation F) (input : BridgeInput F) (action : AlgorithmAction F) :
    Option (ShieldDecision F) := do
  applySafetyShield propagation input.validatedAt input.stamps (← input.requireConnectivity) action
    input.observation input.config

/-- `_observation_cb` from the algorithm's result on: the decision of the shield and the message
that is published. Without a selected algorithm nothing is. -/
def publish (propagation : Propagation F) (input : BridgeInput F) :
    Option (ShieldDecision F × BridgeMessage F) :=
  if input.algorithmId = "" then none
  else do
    let action ← input.action
    let decision ← input.decision propagation action
    let message ← input.message (decision.action.getD action)
    return (decision, message)

end BridgeInput

/-! ## What the relay chain may write -/

section

variable [PyText F] [PyFloat F]

/-- The drone that a key of the desired positions names. -/
def namedDrone (e : String × Json F) : Option ℤ := Fleet.namedIndex (F := F) (.str e.1)

/-- The payload of an action plans no position that a relay chain would read: its desired positions
are no object, or each of them that is three finite numbers for a drone comes after one for the same
drone at which the chain stops reading. -/
def PlansNothing (payload : Dict String (Json F)) : Prop :=
  ∀ plan, (payload.getD "desired_positions" (.obj [])).dict? = some plan →
    ∀ before e after idx, plan.entries = before ++ e :: after → namedDrone e = some idx →
      1 ≤ idx → (Fleet.readPosition? e.2).isSome = true →
      ∃ x ∈ before, namedDrone x = some idx ∧ Fleet.endsLoop x.2 = true

/-- A published message keeps to the decision of the shield. -/
structure BridgeSafe (snapshot : Dict String (Json F)) (decision : ShieldDecision F)
    (message : BridgeMessage F) : Prop where
  /-- Positions are only written if they are those of the shield's action, which was accepted or
  holds the fleet where it is. -/
  written : ∀ (c : Controller F) (idx : ℤ) (p : Vec3 F),
    (idx, p) ∈ c.acceptedCommands message.toActionMessage →
      ∃ shielded, decision.action = some shielded ∧ message.payload = shielded.payload ∧
        (decision.accepted = true ∨ HoldsFleet snapshot shielded)
  /-- A message about a rejected action says that it is a fallback. -/
  marked : decision.accepted = false → message.fallback = true

omit [PyText F] in
theorem BridgeInput.message_spec {input : BridgeInput F} {outgoing : AlgorithmAction F}
    {message : BridgeMessage F} (h : input.message outgoing = some message) :
    message.payload = outgoing.payload ∧ message.fallback = outgoing.fallback ∧
      message.algorithmId = input.algorithmId := by
  rw [BridgeInput.message] at h
  split at h
  · obtain rfl := Option.some.inj h
    exact ⟨rfl, rfl, rfl⟩
  · simp at h

/-- A relay chain that runs an algorithm on one relay. -/
def soleRelay (algorithmId : String) (idx : ℤ) : Controller F :=
  have : Inhabited F := ⟨0.0⟩
  let relay : Drone F :=
    { role := "relay"
      integrated := true
      failed := false
      droneId := droneNode idx
      initialPosition := default
      currentPosition := default
      desiredPosition := default
      batteryPct := 100.0
      antennaGain := 4.0
      antennaName := "omni"
      posed := false }
  { fleet :=
      { droneCount := idx
        relayCount := 1
        standbyCount := idx - 1
        branchCount := 1
        transmissionMode := "chain"
        manualBranches := []
        forwardingPolicy := "fifo_round_robin"
        queueModel := "priority_mg1_preview"
        drones := .ofList [(idx, relay)]
        failedIndices := [] }
    settings := default
    revision := { revisionId := "", parentRevisionId := "", hashes := .empty, commandId := "" }
    pendingFailure := none
    homePositions := .empty
    stream := .fresh 0
    currentBranchIndex := 0
    packetCount := 0
    flows := []
    connectivityPaused := false
    operatorPaused := false
    missionMode := .running
    strategyId := some algorithmId
    pendingRevisionId := "" }

omit [PyText F] in
/-- Its only relay is in service. -/
theorem activeChain_soleRelay (algorithmId : String) {idx : ℤ} (hlow : 1 ≤ idx) :
    (soleRelay algorithmId idx : Controller F).fleet.activeChain = [idx] := by
  have hkeys : (soleRelay algorithmId idx : Controller F).fleet.chain.sortedIndices = [idx] := rfl
  have hrelay : (soleRelay algorithmId idx : Controller F).fleet.chain.isRelay idx = true := by
    simp [RelayChain.isRelay, Fleet.chain, Fleet.runtime, soleRelay, Dict.ofList]
  have havailable :
      (soleRelay algorithmId idx : Controller F).fleet.chain.available idx = true := by
    simp [RelayChain.available, Fleet.chain, soleRelay, hlow]
  rw [Fleet.activeChain, RelayChain.activeChain, hkeys]
  simp [hrelay, havailable]

/-- It takes commands for that relay and for no other. -/
theorem commandedRelay_soleRelay (algorithmId : String) {idx i : ℤ} (hlow : 1 ≤ idx)
    (key : Json F) :
    (soleRelay algorithmId idx : Controller F).fleet.commandedRelay key = some i ↔
      Fleet.namedIndex key = some idx ∧ i = idx := by
  rw [Fleet.commandedRelay_eq_some_iff, activeChain_soleRelay algorithmId hlow, List.mem_singleton]
  constructor
  · rintro ⟨hnamed, -, rfl, -⟩
    exact ⟨hnamed, rfl⟩
  · rintro ⟨hnamed, rfl⟩
    exact ⟨hnamed, by simp [Fleet.known, soleRelay, Dict.ofList], rfl, List.not_mem_nil⟩

/-- The entries of a plan as the relay chain goes through them. -/
def planEntries (plan : Dict String (Json F)) : List (Json F × Json F) :=
  plan.entries.map fun e => (.str e.1, e.2)

/-- A command that a relay chain takes from a message is one in the plan of its payload. -/
theorem mem_acceptedCommands {c : Controller F} {message : BridgeMessage F} {idx : ℤ} {p : Vec3 F}
    (h : (idx, p) ∈ c.acceptedCommands message.toActionMessage) :
    ∃ plan, (message.payload.getD "desired_positions" (.obj [])).dict? = some plan ∧
      (idx, p) ∈ c.fleet.actionCommands (planEntries plan) := by
  rw [Controller.acceptedCommands] at h
  split at h
  · cases h
  split at h
  · cases h
  rw [BridgeMessage.toActionMessage, Option.bind_some, Json.dict?_ofDict] at h
  dsimp only at h
  split at h
  · cases h
  · rename_i plan hplan
    exact ⟨plan, hplan, h⟩

/-- A chain that runs the algorithm of a message goes through the plan of its payload. -/
theorem acceptedCommands_soleRelay {message : BridgeMessage F} (hid : message.algorithmId ≠ "")
    {plan : Dict String (Json F)}
    (hplan : (message.payload.getD "desired_positions" (.obj [])).dict? = some plan) (idx : ℤ) :
    (soleRelay message.algorithmId idx).acceptedCommands message.toActionMessage =
      (soleRelay message.algorithmId idx).fleet.actionCommands (planEntries plan) := by
  simp [Controller.acceptedCommands, soleRelay, BridgeMessage.toActionMessage, hid, hplan,
    planEntries]

/-- No relay chain writes a position of a message exactly if its payload plans none. -/
theorem acceptedCommands_eq_nil_iff {message : BridgeMessage F} (hid : message.algorithmId ≠ "") :
    (∀ c : Controller F, c.acceptedCommands message.toActionMessage = []) ↔
      PlansNothing message.payload := by
  constructor
  · intro h plan hplan before e after idx hentries hnamed hlow hread
    by_contra hnone
    push Not at hnone
    obtain ⟨p, hp⟩ := Option.isSome_iff_exists.mp hread
    -- a chain with this relay alone would write the position
    have hmem : (idx, p) ∈
        (soleRelay message.algorithmId idx).acceptedCommands message.toActionMessage := by
      rw [acceptedCommands_soleRelay hid hplan]
      refine Fleet.mem_actionCommands.mpr ⟨before.map fun e => (.str e.1, e.2), (.str e.1, e.2),
        after.map fun e => (.str e.1, e.2), ?_, ⟨?_, hp⟩, fun x hmem hsome => ?_⟩
      · rw [planEntries, hentries, List.map_append, List.map_cons]
      · exact (commandedRelay_soleRelay _ hlow _).mpr ⟨hnamed, rfl⟩
      · obtain ⟨x, hx, rfl⟩ := List.mem_map.mp hmem
        obtain ⟨i, hi⟩ := Option.isSome_iff_exists.mp hsome
        exact Bool.eq_false_of_not_eq_true
          (hnone x hx ((commandedRelay_soleRelay _ hlow _).mp hi).1)
    rw [h] at hmem
    cases hmem
  · intro h c
    refine List.eq_nil_iff_forall_not_mem.mpr fun ⟨idx, p⟩ hmem => ?_
    obtain ⟨plan, hplan, hmem⟩ := mem_acceptedCommands hmem
    obtain ⟨_, _, _, hsplit, ⟨hkey, hread⟩, hbefore⟩ := Fleet.mem_actionCommands.mp hmem
    obtain ⟨before, rest, hentries, rfl, hrest⟩ := List.map_eq_append_iff.mp hsplit
    obtain ⟨e, after, rfl, rfl, rfl⟩ := List.map_eq_cons_iff.mp hrest
    obtain ⟨hnamed, hservice⟩ := Fleet.commandedRelay_eq_some_iff.mp hkey
    have hlow : 1 ≤ idx := by
      have havailable := (List.mem_filter.mp hservice.2.1).2
      rw [Bool.and_eq_true] at havailable
      exact (of_decide_eq_true havailable.1).1
    -- whatever ends the loop for this drone ends it for every chain in which it is in service
    obtain ⟨x, hx, hnamed', hends⟩ := h plan hplan before e after idx hentries hnamed hlow
      (Option.isSome_iff_exists.mpr ⟨p, hread⟩)
    have hgoes := hbefore (.str x.1, x.2) (List.mem_map_of_mem hx) (Option.isSome_iff_exists.mpr
      ⟨idx, Fleet.commandedRelay_eq_some_iff.mpr ⟨hnamed', hservice⟩⟩)
    cases hends.symm.trans hgoes

end

variable [PyText F] [PyMotion F]

/-- A published message keeps to the decision of the shield exactly if the shield did not refuse the
action before its review, or the refused action calls itself a fallback and plans no position. -/
theorem bridgeSafe_iff {propagation : Propagation F} {input : BridgeInput F}
    {action : AlgorithmAction F} {decision : ShieldDecision F} {message : BridgeMessage F}
    (haction : input.action = some action)
    (h : input.publish propagation = some (decision, message)) :
    BridgeSafe input.observation decision message ↔
      action.Admissible input.validatedAt ∨
        (action.fallback = true ∧ PlansNothing action.payload) := by
  rw [BridgeInput.publish] at h
  split at h
  · cases h
  rename_i hid
  obtain ⟨action', haction', h⟩ := Option.bind_eq_some_iff.mp h
  obtain rfl := Option.some.inj (haction.symm.trans haction')
  obtain ⟨decision', hdecision, h⟩ := Option.bind_eq_some_iff.mp h
  obtain ⟨message', hmessage, h⟩ := Option.bind_eq_some_iff.mp h
  obtain ⟨rfl, rfl⟩ := Prod.mk.injEq .. ▸ Option.some.inj h
  obtain ⟨hpayload, hfallback, hsame⟩ := BridgeInput.message_spec hmessage
  obtain ⟨required, -, hdecision⟩ := Option.bind_eq_some_iff.mp hdecision
  obtain ⟨-, huniform⟩ := uniformFallback_iff hdecision
  by_cases hadmissible : action.Admissible input.validatedAt
  · -- an admissible action is shielded, or the fleet holds its positions
    refine iff_of_true ?_ (Or.inl hadmissible)
    have hshielded : ∃ shielded, decision'.action = some shielded ∧
        (decision'.accepted = true ∨ HoldsFleet input.observation shielded) := by
      cases haccepted : decision'.accepted with
      | true =>
          cases decidedBy_of_applySafetyShield hdecision with
          | refused _ hinadmissible _ => exact absurd hadmissible hinadmissible
          | untouched _ _ hdecided => exact ⟨action, by rw [hdecided], Or.inl rfl⟩
          | reviewed _ _ _ _ _ _ _ hconclusion =>
              rcases concludeReview_spec hconclusion with
                ⟨-, hrejected, -⟩ | ⟨-, -, -, shielded, hshielded, -⟩
              · simp [hrejected] at haccepted
              · exact ⟨shielded, hshielded, Or.inl rfl⟩
      | false =>
          obtain ⟨held, hheld, hholds⟩ := huniform.mpr hadmissible haccepted
          exact ⟨held, hheld, Or.inr hholds⟩
    obtain ⟨shielded, hshielded, hsafe⟩ := hshielded
    rw [hshielded, Option.getD_some] at hpayload hfallback
    refine ⟨fun _ _ _ _ => ⟨shielded, hshielded, hpayload, hsafe⟩, fun hrejected => ?_⟩
    rcases hsafe with haccepted | hholds
    · simp [haccepted] at hrejected
    · rw [hfallback, hholds.fallback]
  · cases decidedBy_of_applySafetyShield hdecision with
    | untouched hadmissible' _ _ => exact absurd hadmissible' hadmissible
    | reviewed _ _ _ hadmissible' _ _ _ _ => exact absurd hadmissible' hadmissible
    -- a refusal has no action, so nothing is written but what the message holds anyway
    | refused issues _ hrefusal =>
        obtain ⟨hrejected, hnone, -⟩ := refuseEarly_spec hrefusal
        rw [hnone, Option.getD_none] at hpayload hfallback
        rw [or_iff_right hadmissible, ← hpayload, ← acceptedCommands_eq_nil_iff (hsame ▸ hid)]
        constructor
        · intro hsafe
          refine ⟨by rw [← hfallback, hsafe.marked hrejected], fun c => ?_⟩
          refine List.eq_nil_iff_forall_not_mem.mpr fun command hcommand => ?_
          obtain ⟨shielded, hshielded, -⟩ := hsafe.written c command.1 command.2 hcommand
          simp [hnone] at hshielded
        · rintro ⟨hmarked, hnothing⟩
          refine ⟨fun c idx p hcommand => ?_, fun _ => by rw [hfallback, hmarked]⟩
          simp [hnothing c] at hcommand

/-! ## An overconfident algorithm -/

/-- A call in which the algorithm sends the UAV far away, with a confidence. -/
def farCall (confidence : ℚ) : BridgeInput ℚ where
  algorithmId := "line_policy"
  manifest := { algorithmId := "line_policy", version := "1.0.0", timeoutS := 1 / 4 }
  revisionId := "rev-1"
  observation := oneUav
  result := .obj [("desired_positions", .obj [("drone_1", .arr [.float 500, .float 0, .float 10])]),
    ("confidence", .float confidence)]
  durationS := 0
  config := .empty
  madeAt := 0
  validatedAt := 0
  stamps := stillStamps

/-- With full confidence the position is projected and the message is safe. -/
theorem bridgeSafe_iff_confident :
    ∃ action decision message, (farCall 1).action = some action ∧
      (farCall 1).publish noLinks = some (decision, message) ∧
      (BridgeSafe oneUav decision message ↔
        action.Admissible 0 ∨ (action.fallback = true ∧ PlansNothing action.payload)) := by
  have haction : ((farCall 1).action).isSome = true := by decide +kernel
  have hpublish : ((farCall 1).publish noLinks).isSome = true := by decide +kernel
  obtain ⟨action, haction⟩ := Option.isSome_iff_exists.mp haction
  obtain ⟨⟨decision, message⟩, hpublish⟩ := Option.isSome_iff_exists.mp hpublish
  exact ⟨action, decision, message, haction, hpublish, bridgeSafe_iff haction hpublish⟩

/-- With a confidence above one the shield refuses the action, and it is published as the algorithm
gave it, not as a fallback. -/
theorem not_bridgeSafe_overconfident :
    ¬∀ (propagation : Propagation ℚ) (input : BridgeInput ℚ) (decision : ShieldDecision ℚ)
      (message : BridgeMessage ℚ), input.publish propagation = some (decision, message) →
      BridgeSafe input.observation decision message := by
  intro hclaim
  have hpublish : ((farCall 1.5).publish noLinks).any (fun published =>
      !published.1.accepted && !published.2.fallback) = true := by
    decide +kernel
  obtain ⟨⟨decision, message⟩, hpublish, hraw⟩ := (Option.any_eq_true _ _).mp hpublish
  rw [Bool.and_eq_true, Bool.not_eq_true', Bool.not_eq_true'] at hraw
  have hmarked := (hclaim noLinks (farCall 1.5) decision message hpublish).marked hraw.1
  exact absurd (hraw.2.symm.trans hmarked) (by decide)

end Netlab
