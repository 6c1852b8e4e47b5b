import Netlab.Algorithm.Marl
import Netlab.Algorithm.ShieldPayload

/-!
# Agents that cannot move

The observation of an agent tells by its action mask whether it can move. One would expect a step to
propose positions only for the agents that can, so that the others do not matter to them
(`Isolated`). But a step proposes a position for every agent it lists, and the shield refuses an
action as a whole when one of its targets is not operational. So the agents that can move are left
alone exactly in the steps in which all the others can move too (`isolated_iff`).
-/

namespace Netlab.ParallelEnv

variable {F : Type}

section

variable [PyText F] [PyFloat F]

/-! ## The action mask -/

/-- Whether an agent can move. -/
def movable (env : ParallelEnv F) (agent : String) : Bool :=
  (itemsById env.observation).any fun uavs => isOperational ((uavs.get? agent).getD .empty)

/-- This is what the action mask says. -/
theorem actionMask_eq_movable {env : ParallelEnv F} {agent : String} {shown : AgentObservation F}
    (h : env.agentObservation agent = some shown) : shown.actionMask = env.movable agent := by
  obtain ⟨uavs, huavs, h⟩ := Option.bind_eq_some_iff.mp h
  obtain ⟨neighbors, -, h⟩ := Option.bind_eq_some_iff.mp h
  obtain ⟨links, -, h⟩ := Option.bind_eq_some_iff.mp h
  obtain rfl := Option.some.inj h
  rw [movable, huavs, Option.any_some]

/-- The environment with the agents that can move only. -/
def masked (env : ParallelEnv F) : ParallelEnv F :=
  { env with agents := env.agents.filter env.movable }

omit [PyFloat F] in
/-- If all agents can move, none is left out. -/
theorem masked_eq_self {env : ParallelEnv F} (h : ∀ agent ∈ env.agents, env.movable agent = true) :
    env.masked = env := by
  unfold masked
  rw [List.filter_eq_self.mpr h]

/-! ## What is proposed -/

/-- The UAVs for which the agents propose positions to the shield. -/
def Intent.targets (intent : Intent F) : List String :=
  ((intent.action.payload.getD "desired_positions" .null).dict?.getD .empty).keys

/-- The positions that an action of the environment asks for. -/
theorem desiredPositions_fromMapping {madeAt : F} {revisionId : String} {desired stamp : Json F}
    {action : AlgorithmAction F}
    (h : AlgorithmAction.fromMapping policyManifest revisionId 0.0 madeAt (.ofList [
      ("desired_positions", desired), ("coordinate_frame", .str "ENU"), ("timestamp_s", stamp)]) =
        some action) : action.payload.getD "desired_positions" .null = desired := by
  have hpayload : action.payload = AlgorithmAction.payloadOf (.ofList [
      ("desired_positions", desired), ("coordinate_frame", .str "ENU"),
      ("timestamp_s", stamp)]) := by
    simp only [AlgorithmAction.fromMapping, bind, pure, Option.bind_eq_some_iff,
      Option.some.injEq] at h
    obtain ⟨_, -, _, -, _, -, _, -, _, -, _, -, _, -, rfl⟩ := h
    rfl
  rw [hpayload]
  rfl

/-- A position is proposed for every agent that the environment lists, whatever its mask says. -/
theorem mem_targets_iff {env : ParallelEnv F} {madeAt : F} {actions : Dict String (Json F)}
    {intent : Intent F} (h : env.intent madeAt actions = some intent) {agent : String} :
    agent ∈ intent.targets ↔ agent ∈ env.agents := by
  simp only [ParallelEnv.intent, bind, pure, Option.bind_eq_some_iff, Option.some.injEq] at h
  obtain ⟨uavs, -, dt, -, swarm, -, maxSpeed, -, commands, hcommands, desired, hdesired, action,
    haction, timestampS, -, rfl⟩ := h
  -- the commands are those of the listed agents, and so are the positions
  have hagents : commands.map Prod.fst = env.agents := by
    refine (List.map_eq_of_mapM (g := id) hcommands ?_).trans (List.map_id _)
    intro agent command hcommand
    obtain ⟨v, -, hcommand⟩ := Option.bind_eq_some_iff.mp hcommand
    exact (congrArg Prod.fst (Option.some.inj hcommand)).symm
  have hkeys : desired.map Prod.fst = commands.map Prod.fst := by
    apply List.map_eq_of_mapM hdesired
    rintro ⟨agent, v⟩ target htarget
    obtain ⟨item, -, htarget⟩ := Option.bind_eq_some_iff.mp htarget
    obtain ⟨p, -, htarget⟩ := Option.bind_eq_some_iff.mp htarget
    exact (congrArg Prod.fst (Option.some.inj htarget)).symm
  rw [Intent.targets, desiredPositions_fromMapping haction, dict?_positionsJson, Option.getD_some,
    Dict.keys_map, Dict.mem_keys_ofList, hkeys, hagents]

end

section

variable [PyText F] [PyMotion F]

/-! ## Isolation -/

/-- What the shield decides about the positions that the agents propose. -/
def decision (propagation : Propagation F) (env : ParallelEnv F) (clock : StepClock F)
    (actions : Dict String (Json F)) : Option (ShieldDecision F) := do
  let intent ← env.intent clock.madeAt actions
  applySafetyShield propagation clock.validatedAt clock.stamps true intent.action env.observation
    env.config

/-- The verdict in a step. -/
def verdict (propagation : Propagation F) (env : ParallelEnv F) (clock : StepClock F)
    (actions : Dict String (Json F)) : Option Bool :=
  (env.decision propagation clock actions).map ShieldDecision.accepted

/-- Where an agent is after a step. -/
def positionAfter (propagation : Propagation F) (env : ParallelEnv F) (clock : StepClock F)
    (actions : Dict String (Json F)) (agent : String) : Option (Json F) := do
  let stepped ← env.step propagation clock actions
  let item ← (← itemsById stepped.1.observation).get? agent
  return measuredPosition item

/-- A step comes to a decision and draws the consequences. -/
theorem step_eq (propagation : Propagation F) (env : ParallelEnv F) (clock : StepClock F)
    (actions : Dict String (Json F)) :
    env.step propagation clock actions = (env.intent clock.madeAt actions).bind fun intent =>
      (env.decision propagation clock actions).bind fun decision =>
        { env with stepCount := env.stepCount + 1 }.finish intent.commands decision.outcome := by
  unfold step decision
  simp only [intent_stepCount, Option.bind_eq_bind]
  cases env.intent clock.madeAt actions with
  | none => rfl
  | some intent => rfl

/-- In a step, the agents that cannot move do not matter to the others: positions are proposed only
for those that can, and the verdict and where these are afterwards is what it would be if the others
were not listed. -/
structure Isolated (propagation : Propagation F) (env : ParallelEnv F) (clock : StepClock F)
    (actions : Dict String (Json F)) : Prop where
  proposed : ∀ intent, env.intent clock.madeAt actions = some intent →
    ∀ agent ∈ intent.targets, env.movable agent = true
  verdict : env.verdict propagation clock actions = env.masked.verdict propagation clock actions
  positions : ∀ agent, env.movable agent = true →
    env.positionAfter propagation clock actions agent =
      env.masked.positionAfter propagation clock actions agent

/-- Isolation holds in the steps in which all agents can move, and in no other step that gets as far
as proposing positions. -/
theorem isolated_iff {propagation : Propagation F} {env : ParallelEnv F} {clock : StepClock F}
    {actions : Dict String (Json F)} {intent : Intent F}
    (h : env.intent clock.madeAt actions = some intent) :
    env.Isolated propagation clock actions ↔ ∀ agent ∈ env.agents, env.movable agent = true := by
  constructor
  · intro hisolated agent hagent
    exact hisolated.proposed intent h agent ((mem_targets_iff h).mpr hagent)
  · intro hmovable
    have hself : env.masked = env := masked_eq_self hmovable
    constructor
    · intro intent' hintent' agent hagent
      apply hmovable
      exact (mem_targets_iff hintent').mp hagent
    · rw [hself]
    · intro agent _
      rw [hself]

/-- One agent that the shield does not know as operational is enough for a refusal, whatever the
others want. -/
theorem refused_of_down {propagation : Propagation F} {env : ParallelEnv F} {clock : StepClock F}
    {actions : Dict String (Json F)} {decision : ShieldDecision F}
    (h : env.decision propagation clock actions = some decision) {agent : String}
    (hagent : agent ∈ env.agents)
    (hdown : ∀ uavs item, uavMap env.observation = some uavs → uavs.get? agent = some item →
      isOperational item = false) : decision.accepted = false := by
  obtain ⟨intent, hintent, hdecision⟩ := Option.bind_eq_some_iff.mp h
  have htarget : agent ∈ intent.targets := (mem_targets_iff hintent).mpr hagent
  by_contra haccepted
  rw [Bool.not_eq_false] at haccepted
  obtain ⟨uavs, huavs⟩ := exists_uavMap_of_accepted hdecision haccepted
  -- the target is in a value of the payload, which has to be legitimate
  obtain ⟨value, hvalue, items, hitems, hkey⟩ : ∃ value,
      intent.action.payload.get? "desired_positions" = some value ∧
        ∃ items, value.dict? = some items ∧ agent ∈ items.keys := by
    unfold Intent.targets Dict.getD at htarget
    cases hvalue : intent.action.payload.get? "desired_positions" with
    | none => simp [hvalue, Json.dict?, Dict.keys, Dict.empty] at htarget
    | some value =>
        rw [hvalue, Option.getD_some] at htarget
        cases hitems : value.dict? with
        | none => simp [hitems, Dict.keys, Dict.empty] at htarget
        | some items => exact ⟨value, rfl, items, hitems, by rwa [hitems] at htarget⟩
  obtain ⟨item, hitem, hoperational⟩ := (legitimateField_positions hdecision haccepted huavs
    hvalue).operational items hitems agent hkey
  exact Bool.false_ne_true ((hdown uavs item huavs hitem).symm.trans hoperational)

end

/-! ## A UAV that works beside one that does not -/

/-- A snapshot of two UAVs, the second of which has failed. -/
def mixedFleet : Dict String (Json ℚ) :=
  .ofList [("uavs", .arr [
    .obj [("id", .str "drone_1"), ("position", .arr [.float 0, .float 0, .float 10])],
    .obj [("id", .str "drone_2"), ("position", .arr [.float 100, .float 0, .float 10]),
      ("failed", .bool true)]])]

/-- The environment of an episode with them. -/
def mixedAgents : ParallelEnv ℚ where
  config := .empty
  initialObservation := mixedFleet
  maxSteps := 1000
  weights := .default
  possibleAgents := ["drone_1", "drone_2"]
  agents := ["drone_1", "drone_2"]
  stepCount := 0
  observation := mixedFleet
  lastRewards := .empty

/-- An episode starts with these agents: the failed UAV is active. -/
example : ((new .empty mixedFleet 1000 .default).bind fun env => env.reset none).any
    (fun started => started.1.agents = mixedAgents.agents) = true := by
  decide +kernel

/-- In a step with them, the failed agent is proposed a position. -/
theorem isolated_iff_mixed :
    ∃ intent, mixedAgents.intent 0 .empty = some intent ∧
      (mixedAgents.Isolated noLinks (stepAt 0) .empty ↔
        ∀ agent ∈ ["drone_1", "drone_2"], mixedAgents.movable agent = true) := by
  have hsome : (mixedAgents.intent 0 .empty).isSome = true := by decide +kernel
  obtain ⟨intent, hintent⟩ := Option.isSome_iff_exists.mp hsome
  exact ⟨intent, hintent, @isolated_iff ℚ _ _ noLinks mixedAgents (stepAt 0) .empty intent hintent⟩

/-- Because of it the action is refused, which would be accepted without it. -/
theorem not_isolated :
    ¬∀ (propagation : Propagation ℚ) (env : ParallelEnv ℚ) (clock : StepClock ℚ)
      (actions : Dict String (Json ℚ)), env.Isolated propagation clock actions := by
  intro hclaim
  have hverdict := (hclaim noLinks mixedAgents (stepAt 0) .empty).verdict
  have hrefused : mixedAgents.verdict noLinks (stepAt 0) .empty = some false := by decide +kernel
  have haccepted : mixedAgents.masked.verdict noLinks (stepAt 0) .empty = some true := by
    decide +kernel
  rw [hrefused, haccepted] at hverdict
  exact absurd hverdict (by decide)

end Netlab.ParallelEnv
