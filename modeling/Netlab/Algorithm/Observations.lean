import Netlab.Relay.Runs

/-!
# Observations and the actions computed from them

The relay chain publishes observations (`_publish_typed_algorithm_observation`), the algorithm
bridge answers them with actions, and the relay chain writes the positions of an action that it
accepts (`_algorithm_action_cb`). Nothing waits for anything: an answer can arrive after other
observations were published and other revisions applied.

An action names the revision of its observation, and only this is looked at when it arrives. So the
relay chain acts on its newest observation only as long as no answer is under way that names the
revision that is pending when another observation is published or another revision applied
(`deliveries_fresh`).
-/

namespace Netlab

variable {F : Type}

namespace Controller

/-- The revision that an observation names (`applied_revision_id or "runtime-current"`). -/
def observedRevision (c : Controller F) : String :=
  if c.revision.revisionId = "" then "runtime-current" else c.revision.revisionId

theorem observedRevision_ne_empty (c : Controller F) : c.observedRevision ≠ "" := by
  rw [observedRevision]
  split
  · decide
  · assumption

/-- Whether an action names the revision that is pending, or the one that always matches. -/
def Names (c : Controller F) (message : ActionMessage F) : Prop :=
  message.sourceRevisionId = c.pendingRevisionId ∨ message.sourceRevisionId = "runtime-current"

instance (c : Controller F) (message : ActionMessage F) : Decidable (c.Names message) :=
  inferInstanceAs (Decidable (_ ∨ _))

/-- Whether an action is from the loaded strategy and passes the look at its revision. -/
def Accepts (c : Controller F) (message : ActionMessage F) : Prop :=
  c.strategyId = some message.algorithmId ∧ message.algorithmId ≠ "" ∧
    (c.pendingRevisionId = "" ∨ c.Names message)

instance (c : Controller F) (message : ActionMessage F) : Decidable (c.Accepts message) :=
  inferInstanceAs (Decidable (_ ∧ _ ∧ _))

section

variable [PyText F] [PyFloat F]

end

/-- Whether a callback that leads from `c` to `c'` can have published so many observations: the
revision that is pending is that of the last one. -/
def CanPublish (c c' : Controller F) (observations : ℕ) : Prop :=
  if observations = 0 then c'.pendingRevisionId = c.pendingRevisionId
  else c'.pendingRevisionId = c'.observedRevision

instance (c c' : Controller F) (observations : ℕ) : Decidable (CanPublish c c' observations) := by
  unfold CanPublish
  infer_instance

end Controller

/-! ## The link between the relay chain and the bridge -/

/-- An action on its way to the relay chain. -/
structure Answer (F : Type) where
  /-- the number of the observation that it was computed from -/
  observation : ℕ
  message : ActionMessage F

/-- The relay chain and what is under way between it and the algorithm bridge. -/
structure AlgorithmLink (F : Type) where
  relay : Controller F
  /-- the revisions that the observations name, in the order in which they were published -/
  published : List String
  /-- the numbers of the observations that the bridge has not answered -/
  waiting : List ℕ
  answers : List (Answer F)

/-- What can happen. -/
inductive LinkOp (F : Type)
  /-- a callback of the relay chain, with the number of observations that it publishes -/
  | callback (op : Controller.Op F) (observations : ℕ)
  /-- the bridge answers an observation -/
  | answer (observation : ℕ) (message : ActionMessage F)
  /-- an answer arrives -/
  | deliver (i : ℕ)
  /-- an answer gets lost -/
  | lose (i : ℕ)

namespace AlgorithmLink

/-- A relay chain that may have published an observation when it started. -/
def start (c : Controller F) : AlgorithmLink F :=
  let published := if c.pendingRevisionId = "" then [] else [c.pendingRevisionId]
  { relay := c, published, waiting := List.range published.length, answers := [] }

/-- An observation is the newest one under the applied revision. -/
def Fresh (s : AlgorithmLink F) (observation : ℕ) : Prop :=
  s.published[observation]? = some s.relay.observedRevision ∧
    ∀ later, observation < later → s.published[later]? ≠ some s.relay.observedRevision

/-- The state after a callback that leads to `c` and publishes observations. -/
def observe (s : AlgorithmLink F) (c : Controller F) (observations : ℕ) : AlgorithmLink F :=
  { s with
    relay := c
    published := s.published ++ List.replicate observations c.pendingRevisionId
    waiting := s.waiting ++ List.range' s.published.length observations }

/-- An action that is accepted when it arrives was computed from the newest observation under the
applied revision. -/
def FreshDelivery (s : AlgorithmLink F) (op : LinkOp F) : Prop :=
  ∀ i answer, op = .deliver i → s.answers[i]? = some answer → s.relay.Accepts answer.message →
    s.Fresh answer.observation

/-- What orderly steps keep. -/
structure Settled (s : AlgorithmLink F) : Prop where
  started : s.relay.pendingRevisionId = "" → s.published = []
  waiting : ∀ i ∈ s.waiting, i < s.published.length
  answers : ∀ answer ∈ s.answers, answer.observation < s.published.length
  /-- An answer that does not belong to the newest observation names another revision. -/
  stale : ∀ answer ∈ s.answers, s.Fresh answer.observation ∨ ¬s.relay.Names answer.message

theorem settled_start (c : Controller F) : (start c).Settled where
  started h := if_pos h
  waiting i hi := List.mem_range.mp hi
  answers answer h := by simp [start] at h
  stale answer h := by simp [start] at h

/-- Orderly callbacks keep the link settled. -/
theorem Settled.observe {s : AlgorithmLink F} (h : s.Settled) {c : Controller F} {n : ℕ}
    (hfit : s.relay.CanPublish c n)
    (horderly : (n = 0 ∧ c.observedRevision = s.relay.observedRevision) ∨
      ∀ answer ∈ s.answers, ¬c.Names answer.message) : (s.observe c n).Settled := by
  refine ⟨fun hpending => ?_, fun i hi => ?_, fun answer hanswer => ?_, fun answer hanswer => ?_⟩
  · -- without a report nothing is new, and with one there is a revision
    rcases Nat.eq_zero_or_pos n with rfl | hn
    · rw [Controller.CanPublish, if_pos rfl] at hfit
      simpa [AlgorithmLink.observe] using h.started (hfit ▸ hpending)
    · rw [Controller.CanPublish, if_neg hn.ne'] at hfit
      exact absurd (hfit.symm.trans hpending) c.observedRevision_ne_empty
  · rw [AlgorithmLink.observe, List.length_append, List.length_replicate]
    rcases List.mem_append.mp hi with hi | hi
    · exact (h.waiting i hi).trans_le (Nat.le_add_right _ _)
    · rw [List.mem_range'_1] at hi
      omega
  · rw [AlgorithmLink.observe, List.length_append]
    exact (h.answers answer hanswer).trans_le (Nat.le_add_right _ _)
  · -- an answer stays what it was, unless it names the new revision
    rcases horderly with ⟨rfl, hrevision⟩ | hothers
    · rw [Controller.CanPublish, if_pos rfl] at hfit
      rcases h.stale answer hanswer with hfresh | hother
      · left
        simpa [Fresh, AlgorithmLink.observe, hrevision] using hfresh
      · right
        simpa [Controller.Names, AlgorithmLink.observe, hfit] using hother
    · exact Or.inr (hothers answer hanswer)

/-- Fewer answers under way keep the link settled, whatever else the relay chain does that leaves
its revisions alone. -/
theorem Settled.of_sublist {s : AlgorithmLink F} (h : s.Settled) {relay : Controller F}
    {answers : List (Answer F)} (hsub : answers.Sublist s.answers)
    (hrevision : relay.revision = s.relay.revision)
    (hpending : relay.pendingRevisionId = s.relay.pendingRevisionId) :
    Settled { s with relay, answers } := by
  have hobserved : relay.observedRevision = s.relay.observedRevision := by
    rw [Controller.observedRevision, Controller.observedRevision, hrevision]
  refine ⟨fun hempty => h.started (hpending ▸ hempty), h.waiting,
    fun answer hanswer => h.answers answer (hsub.subset hanswer), fun answer hanswer => ?_⟩
  have hstale := h.stale answer (hsub.subset hanswer)
  simpa [Fresh, Controller.Names, hobserved, hpending] using hstale

/-- On a settled link only actions for the newest observation are accepted. -/
theorem Settled.freshDelivery {s : AlgorithmLink F} (h : s.Settled) (op : LinkOp F) :
    s.FreshDelivery op := by
  intro i answer _ hanswer ⟨_, _, haccepted⟩
  have hmem := List.mem_of_getElem? hanswer
  rcases h.stale answer hmem with hfresh | hother
  · exact hfresh
  · rcases haccepted with hempty | hnames
    · have hbound := h.answers answer hmem
      rw [h.started hempty] at hbound
      simp at hbound
    · exact absurd hnames hother

/-! ## Runs -/

variable [PyText F] [PyTrig F]

/-- The controller after a callback other than the arrival of an action, if it can have published so
many observations. -/
def afterCallback (c : Controller F) (op : Controller.Op F) (observations : ℕ) :
    Option (Controller F) :=
  match op with
  | .action _ => none
  | op => (c.perform op).filter fun c' => c.CanPublish c' observations

/-- The state after something happened. What cannot happen changes nothing. -/
def step (s : AlgorithmLink F) : LinkOp F → AlgorithmLink F
  | .callback op observations =>
      match afterCallback s.relay op observations with
      | some c => s.observe c observations
      | none => s
  | .answer observation message =>
      if observation ∈ s.waiting then
        { s with
          waiting := s.waiting.erase observation
          answers := s.answers ++ [{ observation, message }] }
      else s
  | .deliver i =>
      match s.answers[i]? with
      | some answer =>
          { s with
            relay := s.relay.algorithmAction answer.message
            answers := s.answers.eraseIdx i }
      | none => s
  | .lose i => { s with answers := s.answers.eraseIdx i }

/-- No answer is under way that will be taken for one to a newer observation: a callback that
publishes observations or applies another revision finds no answer under way that names the revision
that is pending then, and an observation that is not the newest is not answered with it. -/
def Orderly (s : AlgorithmLink F) : LinkOp F → Prop
  | .callback op observations =>
      ∀ c, afterCallback s.relay op observations = some c →
        (observations = 0 ∧ c.observedRevision = s.relay.observedRevision) ∨
          ∀ answer ∈ s.answers, ¬c.Names answer.message
  | .answer observation message => s.Fresh observation ∨ ¬s.relay.Names message
  | .deliver _ => True
  | .lose _ => True

/-- Orderly steps keep the link settled. -/
theorem Settled.step {s : AlgorithmLink F} (h : s.Settled) {op : LinkOp F} (hop : s.Orderly op) :
    (s.step op).Settled := by
  cases op with
  | callback op n =>
      rw [AlgorithmLink.step]
      cases hafter : afterCallback s.relay op n with
      | none => exact h
      | some c =>
          -- a callback that was run has seen what it publishes
          have hfit : s.relay.CanPublish c n := by
            rw [afterCallback.eq_def] at hafter
            split at hafter
            · simp at hafter
            · simpa using (Option.filter_eq_some_iff.mp hafter).2
          exact h.observe hfit (hop c hafter)
  | answer observation message =>
      rw [AlgorithmLink.step]
      split
      · rename_i hwaiting
        refine ⟨h.started, fun i hi => h.waiting i (List.mem_of_mem_erase hi),
          fun answer hanswer => ?_, fun answer hanswer => ?_⟩
        · rcases List.mem_append.mp hanswer with hold | hnew
          · exact h.answers answer hold
          · obtain rfl := List.mem_singleton.mp hnew
            exact h.waiting observation hwaiting
        · rcases List.mem_append.mp hanswer with hold | hnew
          · exact h.stale answer hold
          · obtain rfl := List.mem_singleton.mp hnew
            exact hop
      · exact h
  | deliver i =>
      rw [AlgorithmLink.step]
      cases hanswer : s.answers[i]? with
      | none => exact h
      | some answer => exact h.of_sublist (List.eraseIdx_sublist _ _) rfl rfl
  -- a lost answer is one that is not waited for any more
  | lose i => exact h.of_sublist (List.eraseIdx_sublist _ _) rfl rfl

/-- In a run whose steps are all orderly, every action that the relay chain accepts was computed
from the observation that it most recently published under the revision that is applied. -/
theorem deliveries_fresh {c : Controller F} {ops : List (LinkOp F)}
    (h : Run.AllSteps step Orderly (start c) ops) :
    Run.AllSteps step FreshDelivery (start c) ops :=
  Run.allSteps_of_invariant Settled (fun _ op hs _ => hs.freshDelivery op)
    (fun _ _ hs hop => hs.step hop) (settled_start c) h

/-! ## An answer that comes too late -/

/-- A chain of three relays with a strategy. -/
def policyChain : Controller ℚ :=
  { Controller.sampleChain with strategyId := some "line_policy" }

/-- An action of the strategy under the first revision. -/
def lineAction : ActionMessage ℚ where
  algorithmId := "line_policy"
  sourceRevisionId := "rev-1"
  payload := some (.obj [("desired_positions",
    .obj [("drone_1", .arr [.float 1, .float 0, .float 10])])])

/-- The chain is reset, which publishes an observation, and the answer arrives. -/
def promptRun : List (LinkOp ℚ) :=
  [.callback (.reset (some .observation)) 1, .answer 0 lineAction, .deliver 0]

theorem deliveries_fresh_prompt :
    Run.AllSteps step FreshDelivery (start policyChain) promptRun := by
  have hcallback : Orderly (start policyChain) (.callback (.reset (some .observation)) 1) :=
    fun _ _ => Or.inr fun answer hanswer => by simp [start] at hanswer
  have hpublished : (step (start policyChain)
      (.callback (.reset (some .observation)) 1)).published = ["rev-1"] := by
    decide +kernel
  have hfresh : Fresh (step (start policyChain) (.callback (.reset (some .observation)) 1)) 0 := by
    refine ⟨by decide +kernel, fun later hlater => ?_⟩
    rw [hpublished, List.getElem?_eq_none hlater]
    simp
  exact @deliveries_fresh ℚ _ _ policyChain promptRun ⟨hcallback, Or.inl hfresh, trivial, trivial⟩

/-- The chain is reset twice, and then the answer to the first observation arrives. -/
def lateRun : List (LinkOp ℚ) :=
  [.callback (.reset (some .observation)) 1, .answer 0 lineAction,
    .callback (.reset (some .observation)) 1, .deliver 0]

/-- It is accepted, since it names the revision that is pending again. -/
theorem not_deliveries_fresh :
    ¬∀ (c : Controller ℚ) (ops : List (LinkOp ℚ)),
      Run.AllSteps step FreshDelivery (start c) ops := by
  intro hclaim
  obtain ⟨-, -, -, hdelivery, -⟩ := hclaim policyChain lateRun
  have hlate : (Run.run step (start policyChain) (lateRun.take 3)).answers[0]?.any (fun answer =>
      answer.observation = 0 ∧
        (Run.run step (start policyChain) (lateRun.take 3)).relay.Accepts answer.message) = true := by
    decide +kernel
  obtain ⟨answer, hanswer, haccepted⟩ := (Option.any_eq_true _ _).mp hlate
  rw [decide_eq_true_eq] at haccepted
  have hfresh := hdelivery 0 answer rfl hanswer haccepted.2
  refine hfresh.2 1 (by rw [haccepted.1]; exact Nat.one_pos) ?_
  decide +kernel

end AlgorithmLink

end Netlab
