import Netlab.Algorithm.ShieldClock
import Netlab.Algorithm.ShieldFallback
import Netlab.Prelude.Run

/-!
# The parallel environment

`NetlabParallelEnv` of `netlab/marl.py`: agents command normalized velocities, the safety shield
looks at the positions that they lead to, and the UAVs move to what it lets through. An exception is
`none`. The random generator that `reset` seeds is never drawn from and is left out, as are the
descriptions of the spaces.

An episode reads the wall clock only through the shield. So two episodes with the same agent actions
go the same way as long as the shield does not tell the times apart (`episodes_agree`).
-/

namespace Netlab

variable {F : Type}

/-- The weights of the reward. -/
structure RewardWeights (F : Type) where
  formation : F
  connectivity : F
  serviceContinuity : F
  packetDelivery : F
  safety : F
  energy : F
  controlEffort : F
  ageOfInformation : F

/-- The default weights. -/
def RewardWeights.default [OfScientific F] : RewardWeights F where
  formation := 1.0
  connectivity := 2.0
  serviceContinuity := 2.0
  packetDelivery := 1.5
  safety := 4.0
  energy := 0.25
  controlEffort := 0.2
  ageOfInformation := 0.5

/-- An environment. -/
structure ParallelEnv (F : Type) where
  config : Dict String (Json F)
  initialObservation : Dict String (Json F)
  maxSteps : ℤ
  weights : RewardWeights F
  possibleAgents : List String
  agents : List String
  stepCount : ℤ
  observation : Dict String (Json F)
  lastRewards : Dict String (List (String × F))

/-- What an agent is shown. -/
structure AgentObservation (F : Type) where
  ownState : Dict String (Json F)
  neighbors : List (Json F)
  localLinks : List (Json F)
  energy : Json F
  service : Json F
  failures : Json F
  revision : Json F
  actionMask : Bool

/-- What a step tells the agents. -/
structure StepResult (F : Type) where
  observations : Dict String (AgentObservation F)
  rewards : Dict String F
  terminations : Dict String Bool
  truncations : Dict String Bool
  rewardTerms : Dict String (List (String × F))

/-- The wall clock during a step: when the action is made, when it is validated, and what is read
for each edge of the preview. -/
structure StepClock (F : Type) where
  madeAt : F
  validatedAt : F
  stamps : ℕ → LinkStamp F

namespace ParallelEnv

section

variable [PyText F] [PyFloat F]

/-- The entities of an observation by identifier. -/
def itemsById (observation : Dict String (Json F)) :
    Option (Dict String (Dict String (Json F))) := do
  let items ← (observation.getD "uavs" (.arr [])).elements?
  return .ofList (items.filterMap fun item => do
    let item ← item.dict?
    return ((item.getD "id" .null).toText, item))

/-- The position of an entity. -/
def measuredPosition (item : Dict String (Json F)) : Json F :=
  item.getD "measured_position" (item.getD "position" (.arr [.int 0, .int 0, .int 0]))

/-- `float(value[i])` for the first three indices. -/
def coordinates (value : Json F) : Option (Vec3 F) := do
  return ⟨← (← value.item? 0).toFloat?, ← (← value.item? 1).toFloat?,
    ← (← value.item? 2).toFloat?⟩

/-- What an agent is shown of another UAV. -/
def neighborView (own : Dict String (Json F)) (otherId : String) (other : Dict String (Json F)) :
    Option (Json F) := do
  let q ← coordinates (measuredPosition other)
  let p ← coordinates (measuredPosition own)
  return .obj [("id", .str otherId),
    ("relative_position", .arr [.float (q.x - p.x), .float (q.y - p.y), .float (q.z - p.z)]),
    ("active", .bool (other.getBool "active" true)),
    ("failed", .bool (other.getBool "failed" false))]

/-- The links of an agent. An item that is no object raises. -/
def localLinks (observation : Dict String (Json F)) (agent : String) : Option (List (Json F)) := do
  let items ← (observation.getD "links" (.arr [])).elements?
  let own ← items.mapM fun item => do
    let link ← item.dict?
    return if (link.getD "src" .null).isStr agent || (link.getD "dst" .null).isStr agent then
      [item] else []
  return own.flatten

/-- `_agent_observation`. -/
def agentObservation (env : ParallelEnv F) (agent : String) : Option (AgentObservation F) := do
  let uavs ← itemsById env.observation
  -- an agent that the snapshot does not have observes an empty state
  let own := (uavs.get? agent).getD .empty
  let neighbors ← (uavs.entries.filter fun e => e.1 ≠ agent).mapM fun e => neighborView own e.1 e.2
  return {
    ownState := own
    neighbors
    localLinks := ← localLinks env.observation agent
    energy := .obj [("battery_soc_pct", own.getD "battery_soc_pct" (.float 100.0))]
    service := env.observation.getD "service_requirements" (.obj [])
    failures := env.observation.getD "failures" (.arr [])
    revision := env.observation.getD "revision_id" (.str "")
    actionMask := isOperational own }

/-- What each agent is shown. -/
def observations (env : ParallelEnv F) : Option (Dict String (AgentObservation F)) := do
  let shown ← env.agents.mapM fun agent => do return (agent, ← env.agentObservation agent)
  return .ofList shown

/-- The agents of an environment (`possible_agents`). -/
def agentsOf (observation : Dict String (Json F)) : Option (List String) := do
  let items ← (observation.getD "uavs" (.arr [])).elements?
  return items.filterMap fun item => do
    let item ← item.dict?
    if (item.getD "id" .null).truthy && item.getBool "active" true then
      some (item.getD "id" .null).toText
    else none

/-- `__init__`. -/
def new (config initialObservation : Dict String (Json F)) (maxSteps : ℤ)
    (weights : RewardWeights F) : Option (ParallelEnv F) := do
  let agents ← agentsOf initialObservation
  return {
    config, initialObservation, maxSteps := max 1 maxSteps, weights
    possibleAgents := agents, agents, stepCount := 0, observation := initialObservation
    lastRewards := .empty }

/-- `reset`, with the observation of the options if there is one. -/
def reset (env : ParallelEnv F) (observation : Option (Dict String (Json F))) :
    Option (ParallelEnv F × Dict String (AgentObservation F)) := do
  let env := { env with
    stepCount := 0, observation := observation.getD env.initialObservation }
  let active ← env.possibleAgents.mapM fun agent => do
    let shown ← env.agentObservation agent
    return if shown.ownState.getBool "active" true then [agent] else []
  let env := { env with agents := active.flatten }
  return (env, ← env.observations)

/-! ## Commands -/

/-- The velocity that an agent commands, each component between minus one and one. -/
def velocity (actions : Dict String (Json F)) (agent : String) : Option (Vec3 F) := do
  let raw := actions.getD agent (.arr [.float 0.0, .float 0.0, .float 0.0])
  -- a command may be a mapping with its velocity under either key
  let raw :=
    match raw.dict? with
    | some command =>
        command.getD "velocity" (command.getD "action" (.arr [.int 0, .int 0, .int 0]))
    | none => raw
  let v ← coordinates raw
  let limit (x : F) : F := PyFloat.max (-1.0) (PyFloat.min 1.0 x)
  return ⟨limit v.x, limit v.y, limit v.z⟩

/-- What the agents of a step want: the velocities that they command, and the action that asks for
the positions that these lead to. -/
structure Intent (F : Type) where
  commands : List (String × Vec3 F)
  action : AlgorithmAction F

/-- The manifest under which the environment acts. -/
def policyManifest : AlgorithmManifest F where
  algorithmId := "pettingzoo_policy"
  version := "1.0.0"
  timeoutS := 0.25

/-- Read the commands and make the action. -/
def intent (env : ParallelEnv F) (madeAt : F) (actions : Dict String (Json F)) :
    Option (Intent F) := do
  let uavs ← itemsById env.observation
  let dt ← env.observation.getFloat "step_s" 0.1
  let maxSpeed ← (← Experiment.section? env.config "swarm").getFloat
    "max_horizontal_speed_mps" 12.0
  let commands ← env.agents.mapM fun agent => do return (agent, ← velocity actions agent)
  let desired ← commands.mapM fun (agent, v) => do
    -- velocities are fractions of the maximal speed
    let p ← coordinates (measuredPosition (← uavs.get? agent))
    return (agent, (⟨p.x + v.x * maxSpeed * dt, p.y + v.y * maxSpeed * dt,
      p.z + v.z * maxSpeed * dt⟩ : Vec3 F))
  let action ← AlgorithmAction.fromMapping policyManifest
    (env.observation.getText "revision_id" "offline") 0.0 madeAt (.ofList [
      ("desired_positions", positionsJson (.ofList desired)), ("coordinate_frame", .str "ENU"),
      ("timestamp_s", env.observation.getD "wall_time_s" (.float 0.0))])
  let timestampS ← env.observation.getFloat "wall_time_s" action.timestampS
  return { commands, action := { action with timestampS } }

/-! ## Consequences -/

/-- Move a UAV to the position that was let through for it. An item that is no object raises. -/
def moveItem (positions : Dict String (Json F)) (item : Json F) : Option (Json F) := do
  let record ← item.dict?
  match positions.get? (record.getD "id" .null).toText with
  | some position => return .ofDict (((record.set "commanded_position" position).set
      "simulated_position" position).set "measured_position" position)
  | none => return item

/-- The observation after the UAVs have moved. -/
def moveUavs (observation positions : Dict String (Json F)) : Option (Dict String (Json F)) := do
  match observation.get? "uavs" with
  | some uavs =>
      let moved ← (← uavs.elements?).mapM (moveItem positions)
      match uavs with
      | .arr _ => return observation.set "uavs" (.arr moved)
      | _ => return observation
  | none => return observation

/-- The positions that were let through. -/
def letThrough (outcome : ShieldOutcome F) : Option (Dict String (Json F)) :=
  match outcome.payload with
  | some payload => (payload.getD "desired_positions" (.obj [])).dict?
  | none => some .empty

end

section

variable [PyText F] [PyMotion F]

/-- `_reward`: the terms of the reward of an agent. -/
def rewardTerms (env : ParallelEnv F) (agent : String) (command : Vec3 F)
    (outcome : ShieldOutcome F) : Option (List (String × F)) := do
  let own := (← env.agentObservation agent).ownState
  let formationError ← own.getFloat "formation_error_m" 0.0
  let controlEffort := PyMotion.sqrt (PyFloat.sum
    [command.x * command.x, command.y * command.y, command.z * command.z])
  let battery ← own.getFloat "battery_soc_pct" 100.0
  let connectivity ← PyFloat.div (PyFloat.ofCount (outcome.feasible.count true))
    (PyFloat.ofCount (max 1 outcome.feasible.length))
  let packets ← Experiment.section? env.observation "packets"
  -- each figure stands in for the one below it that is missing
  let continuity ← packets.getFloat "service_continuity" connectivity
  let packetDelivery ← packets.getFloat "packet_delivery_ratio" continuity
  let aoi ← packets.getFloat "mean_aoi_s" 0.0
  let safetyPenalty : F := if outcome.accepted then 0.0 else 1.0
  let energyPenalty := PyFloat.max 0.0 (← PyFloat.div (100.0 - battery) 100.0)
  let w := env.weights
  return [
    ("formation", -w.formation * formationError),
    ("connectivity", w.connectivity * connectivity),
    ("service_continuity", w.serviceContinuity * continuity),
    ("packet_delivery", w.packetDelivery * packetDelivery),
    ("safety", -w.safety * safetyPenalty),
    ("energy", -w.energy * energyPenalty),
    ("control_effort", -w.controlEffort * controlEffort),
    ("age_of_information", -w.ageOfInformation * aoi)]

/-- The rest of a step, after the shield has come to its outcome. -/
def finish (env : ParallelEnv F) (commands : List (String × Vec3 F)) (outcome : ShieldOutcome F) :
    Option (ParallelEnv F × StepResult F) := do
  let env := { env with observation := ← moveUavs env.observation (← letThrough outcome) }
  let terms ← commands.mapM fun (agent, command) => do
    return (agent, ← env.rewardTerms agent command outcome)
  let terminated := decide (env.maxSteps ≤ env.stepCount)
  let observations ← env.observations
  return ({ env with
      lastRewards := .ofList terms
      agents := if terminated then [] else env.agents }, {
    observations
    rewards := .ofList (terms.map fun e => (e.1, PyFloat.sum (e.2.map Prod.snd)))
    -- an episode is cut off, and never ends by itself
    terminations := .ofList (env.agents.map fun agent => (agent, false))
    truncations := .ofList (env.agents.map fun agent => (agent, terminated))
    rewardTerms := .ofList terms })

/-- `step`. Of what it returns, the text of the shield's decision is left out. -/
def step (propagation : Propagation F) (env : ParallelEnv F) (clock : StepClock F)
    (actions : Dict String (Json F)) : Option (ParallelEnv F × StepResult F) := do
  let env := { env with stepCount := env.stepCount + 1 }
  let intent ← env.intent clock.madeAt actions
  let decision ← applySafetyShield propagation clock.validatedAt clock.stamps true intent.action
    env.observation env.config
  env.finish intent.commands decision.outcome

/-! ## Episodes -/

/-- What a caller does with an environment. -/
inductive EnvOp (F : Type)
  | reset (observation : Option (Dict String (Json F)))
  | step (actions : Dict String (Json F))

/-- What it is told. -/
inductive EnvReply (F : Type)
  | started (observations : Dict String (AgentObservation F))
  | stepped (result : StepResult F)

/-- One call, at a time. -/
def call (propagation : Propagation F) (env : ParallelEnv F) (clock : StepClock F) :
    EnvOp F → Option (ParallelEnv F × EnvReply F)
  | .reset observation => (env.reset observation).map fun r => (r.1, .started r.2)
  | .step actions => (env.step propagation clock actions).map fun r => (r.1, .stepped r.2)

/-- The environment after a call, unless one has raised. -/
def advance (propagation : Propagation F) (s : Option (ParallelEnv F))
    (op : EnvOp F × StepClock F) : Option (ParallelEnv F) := do
  let env ← s
  return (← env.call propagation op.2 op.1).1

/-- What a call tells. -/
def reply (propagation : Propagation F) (s : Option (ParallelEnv F))
    (op : EnvOp F × StepClock F) : Option (EnvReply F) := do
  let env ← s
  return (← env.call propagation op.2 op.1).2

/-- The calls of one of two episodes, which make the same calls at times of their own. -/
def firstEpisode (ops : List (EnvOp F × StepClock F × StepClock F)) :
    List (EnvOp F × StepClock F) := ops.map fun op => (op.1, op.2.1)

/-- The calls of the other episode. -/
def secondEpisode (ops : List (EnvOp F × StepClock F × StepClock F)) :
    List (EnvOp F × StepClock F) := ops.map fun op => (op.1, op.2.2)

/-- The shield does not tell the times of a step in two episodes apart. -/
def SameTimes (s : Option (ParallelEnv F)) (op : EnvOp F × StepClock F × StepClock F) : Prop :=
  ∀ env actions intent, s = some env → op.1 = .step actions →
    env.intent op.2.1.madeAt actions = some intent →
    SameReadings env.config intent.action op.2.1.validatedAt op.2.2.validatedAt op.2.1.stamps
      op.2.2.stamps

omit [PyMotion F] in
/-- An action with a time stamp of its own does not depend on when it is made. -/
theorem fromMapping_now [PyFloat F] {manifest : AlgorithmManifest F} {revisionId : String}
    {durationS now now' : F} {value : Dict String (Json F)} {t : Json F}
    (h : value.get? "timestamp_s" = some t) :
    AlgorithmAction.fromMapping manifest revisionId durationS now value =
      AlgorithmAction.fromMapping manifest revisionId durationS now' value := by
  have hstamp : ∀ now : F, value.getFloat "timestamp_s" now = t.toFloat? := by
    intro now
    rw [Dict.getFloat, Dict.getD, h, Option.getD_some]
  rw [AlgorithmAction.fromMapping, AlgorithmAction.fromMapping, hstamp, hstamp]

/-- What the agents want does not depend on the clock. -/
theorem intent_madeAt (env : ParallelEnv F) (madeAt madeAt' : F) (actions : Dict String (Json F)) :
    env.intent madeAt actions = env.intent madeAt' actions := by
  have hmade : ∀ (revisionId : String) (desired : Json F) (t : Json F),
      AlgorithmAction.fromMapping policyManifest revisionId 0.0 madeAt (.ofList [
          ("desired_positions", desired), ("coordinate_frame", .str "ENU"), ("timestamp_s", t)]) =
        AlgorithmAction.fromMapping policyManifest revisionId 0.0 madeAt' (.ofList [
          ("desired_positions", desired), ("coordinate_frame", .str "ENU"), ("timestamp_s", t)]) :=
    fun _ _ t => fromMapping_now (Dict.get?_ofList_of_mem (v := t) (by simp) (by simp))
  simp only [intent, hmade]

/-- What the agents want does not depend on the steps made so far. -/
theorem intent_stepCount (env : ParallelEnv F) (n : ℤ) (madeAt : F)
    (actions : Dict String (Json F)) :
    { env with stepCount := n }.intent madeAt actions = env.intent madeAt actions := by
  simp only [intent]

/-- A step goes the same way at times that the shield does not tell apart. -/
theorem step_clock {propagation : Propagation F} {env : ParallelEnv F} {clock clock' : StepClock F}
    {actions : Dict String (Json F)}
    (h : ∀ intent, env.intent clock.madeAt actions = some intent →
      SameReadings env.config intent.action clock.validatedAt clock'.validatedAt clock.stamps
        clock'.stamps) :
    env.step propagation clock actions = env.step propagation clock' actions := by
  simp only [step, intent_stepCount, intent_madeAt env clock'.madeAt clock.madeAt,
    Option.bind_eq_bind]
  cases hintent : env.intent clock.madeAt actions with
  | none => simp only [Option.bind_none]
  | some intent =>
      simp only [Option.bind_some]
      have houtcome : (applySafetyShield propagation clock.validatedAt clock.stamps true intent.action
          env.observation env.config).map ShieldDecision.outcome =
        (applySafetyShield propagation clock'.validatedAt clock'.stamps true intent.action
          env.observation env.config).map ShieldDecision.outcome :=
        applySafetyShield_outcome (h intent hintent)
      obtain ⟨hleft, hright⟩ | ⟨left, right, hleft, hright, heq⟩ := Option.cases_of_map_eq houtcome
      · simp only [hleft, hright, Option.bind_none]
      · simp only [hleft, hright, Option.bind_some, heq]

/-- A call goes the same way at times that the shield does not tell apart. -/
theorem call_clock {propagation : Propagation F} {env : ParallelEnv F}
    {op : EnvOp F × StepClock F × StepClock F} (h : SameTimes (some env) op) :
    env.call propagation op.2.1 op.1 = env.call propagation op.2.2 op.1 := by
  cases hkind : op.1 with
  | reset observation => simp only [call]
  | step actions =>
      simp only [call]
      rw [step_clock fun intent hintent => h env actions intent rfl hkind hintent]

/-- So does the environment after it. -/
theorem advance_clock {propagation : Propagation F} {s : Option (ParallelEnv F)}
    {op : EnvOp F × StepClock F × StepClock F} (h : SameTimes s op) :
    advance propagation s (op.1, op.2.1) = advance propagation s (op.1, op.2.2) := by
  cases s with
  | none => simp only [advance, Option.bind_eq_bind, Option.bind_none]
  | some env => simp only [advance, Option.bind_eq_bind, Option.bind_some, call_clock h]

/-- So does what it tells. -/
theorem reply_clock {propagation : Propagation F} {s : Option (ParallelEnv F)}
    {op : EnvOp F × StepClock F × StepClock F} (h : SameTimes s op) :
    reply propagation s (op.1, op.2.1) = reply propagation s (op.1, op.2.2) := by
  cases s with
  | none => simp only [reply, Option.bind_eq_bind, Option.bind_none]
  | some env => simp only [reply, Option.bind_eq_bind, Option.bind_some, call_clock h]

/-- The runs of two episodes whose times the shield does not tell apart. -/
theorem runs_agree {propagation : Propagation F} {s : Option (ParallelEnv F)}
    {ops : List (EnvOp F × StepClock F × StepClock F)}
    (h : Run.AllSteps (fun s op => advance propagation s (op.1, op.2.1)) SameTimes s ops) :
    Run.run (advance propagation) s (firstEpisode ops) =
        Run.run (advance propagation) s (secondEpisode ops) ∧
      Run.replies (advance propagation) (reply propagation) s (firstEpisode ops) =
        Run.replies (advance propagation) (reply propagation) s (secondEpisode ops) := by
  induction ops generalizing s with
  | nil => exact ⟨rfl, rfl⟩
  | cons op ops ih =>
      obtain ⟨hop, hrest⟩ := (Run.allSteps_cons ..).mp h
      obtain ⟨hstate, hreplies⟩ := ih hrest
      simp only [firstEpisode, secondEpisode] at hstate hreplies
      simp only [firstEpisode, secondEpisode, List.map_cons, Run.run_cons, Run.replies_cons,
        ← advance_clock hop, ← reply_clock hop, hstate, hreplies]
      trivial

/-- Two episodes with the same agent actions go the same way, in every position, reward and
termination, if at each step the shield does not tell their times apart. -/
theorem episodes_agree {propagation : Propagation F} {env : ParallelEnv F}
    {ops : List (EnvOp F × StepClock F × StepClock F)}
    (h : Run.AllSteps (fun s op => advance propagation s (op.1, op.2.1)) SameTimes (some env) ops) :
    Run.run (advance propagation) (some env) (firstEpisode ops) =
        Run.run (advance propagation) (some env) (secondEpisode ops) ∧
      Run.replies (advance propagation) (reply propagation) (some env) (firstEpisode ops) =
        Run.replies (advance propagation) (reply propagation) (some env) (secondEpisode ops) :=
  runs_agree h

end

/-! ## A single UAV -/

/-- An environment with one UAV. -/
def oneAgent : ParallelEnv ℚ where
  config := .empty
  initialObservation := oneUav
  maxSteps := 1000
  weights := .default
  possibleAgents := ["drone_1"]
  agents := ["drone_1"]
  stepCount := 0
  observation := oneUav
  lastRewards := .empty

/-- A step at a time. -/
def stepAt (time : ℚ) : StepClock ℚ where
  madeAt := time
  validatedAt := time
  stamps := stillStamps

/-- Reset the environment, and go full speed ahead at a time in each of the two episodes. -/
def aheadOps (time time' : ℚ) : List (EnvOp ℚ × StepClock ℚ × StepClock ℚ) :=
  [(.reset none, stepAt 0, stepAt 0),
    (.step (.ofList [("drone_1", .arr [.float 1, .float 0, .float 0])]), stepAt time,
      stepAt time')]

/-- The rewards of an episode. -/
def rewardsOf (replies : List (EnvReply ℚ)) : List (List (String × ℚ)) :=
  replies.map fun
    | .started _ => []
    | .stepped result => result.rewards.entries

/-- Half a second after the snapshot, the action is as good as when it was taken. -/
theorem episodes_agree_halfSecond :
    Run.run (advance noLinks) (some oneAgent) (firstEpisode (aheadOps 0 (1 / 2))) =
        Run.run (advance noLinks) (some oneAgent) (secondEpisode (aheadOps 0 (1 / 2))) ∧
      Run.replies (advance noLinks) (reply noLinks) (some oneAgent)
          (firstEpisode (aheadOps 0 (1 / 2))) =
        Run.replies (advance noLinks) (reply noLinks) (some oneAgent)
          (secondEpisode (aheadOps 0 (1 / 2))) := by
  refine episodes_agree ⟨?_, ?_, trivial⟩
  · intro env actions intent _ hop
    exact absurd hop (by simp)
  · intro env actions intent henv hop hintent
    have hstale : (advance noLinks (some oneAgent) (.reset none, stepAt 0)).all (fun env =>
        (env.intent 0 (.ofList [("drone_1", .arr [.float 1, .float 0, .float 0])])).all
          fun intent => intent.action.isStale 0 = intent.action.isStale (1 / 2)) = true := by
      decide +kernel
    simp only [EnvOp.step.injEq] at hop
    subst hop
    have hreset : advance noLinks (some oneAgent) (.reset none, stepAt 0) = some env := henv
    have hahead : env.intent 0 (.ofList [("drone_1", .arr [.float 1, .float 0, .float 0])]) =
        some intent := hintent
    rw [hreset, Option.all_some, hahead, Option.all_some, decide_eq_true_eq] at hstale
    exact ⟨hstale, fun _ _ _ _ _ _ => rfl⟩

/-- Ten seconds after it, the action is stale: the UAV stays where it is and the agent is
punished. -/
theorem not_episodes_agree :
    ¬∀ (propagation : Propagation ℚ) (env : ParallelEnv ℚ)
      (ops : List (EnvOp ℚ × StepClock ℚ × StepClock ℚ)),
      Run.run (advance propagation) (some env) (firstEpisode ops) =
          Run.run (advance propagation) (some env) (secondEpisode ops) ∧
        Run.replies (advance propagation) (reply propagation) (some env) (firstEpisode ops) =
          Run.replies (advance propagation) (reply propagation) (some env) (secondEpisode ops) := by
  intro hclaim
  have hsame := congrArg rewardsOf (hclaim noLinks oneAgent (aheadOps 0 10)).2
  have hdiffer : rewardsOf (Run.replies (advance noLinks) (reply noLinks) (some oneAgent)
        (firstEpisode (aheadOps 0 10))) ≠
      rewardsOf (Run.replies (advance noLinks) (reply noLinks) (some oneAgent)
        (secondEpisode (aheadOps 0 10))) := by
    decide +kernel
  exact hdiffer hsame

end ParallelEnv

end Netlab
