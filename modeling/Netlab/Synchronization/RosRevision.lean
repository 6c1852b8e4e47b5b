import Netlab.Prelude.Run

/-!
# How `ros` applies a revision

Three processes share a request file, two acknowledgement files and a topic. `_apply_ros` of the
synchronizer writes the request and reads the acknowledgement files until one names its revision.
The revision agent (`netlab_revision_agent.py`) turns the request into a message, publishes it until
the packet controller has acknowledged it, and copies that acknowledgement. The packet controller
(`_update_config_cb` of `snaas_relay_chain.py`) applies each message and acknowledges the ones that
carry a revision.

The copy still names a revision when the controller has applied a later one, and a call for the
earlier revision that reads it then is told that its revision is applied (`acknowledged_applied`).

The agent and the calls are interleaved file access by file access. The revision of a message is a
tag on it; command ids, parents, time stamps and the heartbeat are left out, and what the controller
does with a configuration is the subject of the relay chain.
-/

namespace Netlab.RosRevision

variable {P : Type}

/-- The records of the revisions, as far as requests are made of them. -/
structure Records (P : Type) where
  hashes : String → List (String × String)
  /-- `emit_legacy_config` of the candidate; `none` when `_prepare` raises -/
  projected : String → Option P

/-- The `_netlab_revision` of a message. -/
structure RevisionMeta where
  revisionId : String
  hashes : List (String × String)

/-- A message on `/swarm/control/update_config`. -/
structure Message (P : Type) where
  payload : P
  revisionMeta : Option RevisionMeta

/-- What an acknowledgement file holds. The acknowledgements of the controller say `ready` and not
`accepted`. -/
structure Ack where
  revisionId : String
  appliedHashes : List (String × String)
  accepted : Option Bool

/-- Whether `_mark_from_ack` and `apply` take an acknowledgement for a positive one. -/
def Ack.isAccepted (ack : Ack) : Bool := ack.accepted.getD true

/-- The acknowledgement that the agent makes of the controller's. -/
def Ack.canonical (ack : Ack) : Ack := { ack with accepted := some !ack.appliedHashes.isEmpty }

/-- Where the agent is in a tick. -/
inductive Stage
  | request
  | publish
  | observe
  | writeAck (canonical : Ack)
  | writeCopy (canonical : Ack)

/-- The files that `_apply_ros` reads. -/
inductive AckPath
  /-- `revision_ros_ack.json`, which the controller and the agent write -/
  | ack
  /-- `snaas_ros_revision_ack.json`, which the agent writes -/
  | copy
  deriving DecidableEq

/-- The files, the topic and what each process remembers. -/
structure State (P : Type) where
  /-- the revision in `revision_ros_request.json`, or the empty text -/
  request : String
  ack : Option Ack
  copy : Option Ack
  stage : Stage
  /-- `pending_revision` and `pending_payload`, which are set and cleared together -/
  pending : Option (Message P)
  lastAcknowledged : String
  topic : List (Message P)
  /-- the message that the controller applied last -/
  applied : Option (Message P)
  /-- the revisions that calls of `_apply_ros` wait for -/
  calls : List String

/-- Nothing was requested yet. -/
def State.initial : State P where
  request := ""
  ack := none
  copy := none
  stage := .request
  pending := none
  lastAcknowledged := ""
  topic := []
  applied := none
  calls := []

/-- The revision that a message carries. -/
def Message.revisionId (message : Message P) : Option String :=
  message.revisionMeta.map (·.revisionId)

/-- `pending_revision`. -/
def State.pendingRevision (s : State P) : String := (s.pending.bind Message.revisionId).getD ""

/-- What a file holds. -/
def State.file (s : State P) : AckPath → Option Ack
  | .ack => s.ack
  | .copy => s.copy

/-- What a call for a revision returns when it reads a file now. -/
def State.returned (s : State P) (revisionId : String) (path : AckPath) : Option Ack :=
  if revisionId ∈ s.calls then (s.file path).filter (·.revisionId = revisionId) else none

/-- One access of a process to what is shared. -/
inductive Step (P : Type)
  /-- `_apply_ros` begins -/
  | request (revisionId : String)
  /-- `_wait_ack` reads a file -/
  | read (revisionId : String) (path : AckPath)
  /-- the deadline of a call passes -/
  | giveUp (revisionId : String)
  /-- the agent goes on; `due` tells whether the last message is old enough to be published again -/
  | agent (due : Bool)
  /-- an exception ends the tick of the agent -/
  | agentError
  /-- mission control publishes a configuration without a revision -/
  | publish (payload : P)
  /-- the topic loses a message -/
  | lose (i : ℕ)
  /-- the controller applies the next message; `saved` tells whether the acknowledgement
  is written -/
  | callback (saved : Bool)

/-- `_prepare` of the agent. -/
def prepare (records : Records P) (s : State P) : State P :=
  match records.projected s.request with
  | none => s
  | some payload =>
      { s with
        stage := .publish
        pending := some {
          payload
          revisionMeta := some { revisionId := s.request, hashes := records.hashes s.request } } }

/-- The next access of `_tick` of the agent. -/
def agentStep (records : Records P) (s : State P) (due : Bool) : State P :=
  match s.stage with
  | .request =>
      -- a request that is pending or acknowledged is not prepared again
      if s.request ≠ "" ∧ s.request ≠ s.pendingRevision ∧ s.request ≠ s.lastAcknowledged then
        prepare records s
      else { s with stage := .publish }
  | .publish =>
      { s with
        stage := .observe
        topic := if due then s.topic ++ s.pending.toList else s.topic }
  | .observe =>
      match s.ack with
      | none => { s with stage := .request }
      | some ack =>
          -- an acknowledgement of another revision is left alone
          if s.pending.isSome ∧ ack.revisionId = s.pendingRevision then
            { s with stage := .writeAck ack.canonical }
          else { s with stage := .request }
  | .writeAck canonical => { s with stage := .writeCopy canonical, ack := some canonical }
  | .writeCopy canonical =>
      { s with
        stage := .request
        copy := some canonical
        lastAcknowledged := canonical.revisionId
        pending := none }

/-- The acknowledgement that the controller writes for a message. -/
def RevisionMeta.ack (revisionMeta : RevisionMeta) : Ack where
  revisionId := revisionMeta.revisionId
  appliedHashes := revisionMeta.hashes.filter fun e => "_hash".toList <:+ e.1.toList
  accepted := none

/-- `_update_config_cb` on the next message. -/
def callback (s : State P) (saved : Bool) : State P :=
  match s.topic with
  | [] => s
  | message :: topic =>
      { s with
        topic
        applied := some message
        ack :=
          match message.revisionMeta with
          | some revisionMeta => if saved then some revisionMeta.ack else s.ack
          | none => s.ack }

/-- The state after a step. -/
def step (records : Records P) (s : State P) : Step P → State P
  | .request revisionId => { s with request := revisionId, calls := revisionId :: s.calls }
  | .read revisionId path =>
      if (s.returned revisionId path).isSome then { s with calls := s.calls.erase revisionId } else s
  | .giveUp revisionId => { s with calls := s.calls.erase revisionId }
  | .agent due => agentStep records s due
  | .agentError => { s with stage := .request }
  | .publish payload => { s with topic := s.topic ++ [{ payload, revisionMeta := none }] }
  | .lose i => { s with topic := s.topic.eraseIdx i }
  | .callback saved => callback s saved

/-! ## What an answer says -/

/-- The controller applied the configuration of a revision last. -/
def Applies (records : Records P) (s : State P) (revisionId : String) : Prop :=
  ∃ message, s.applied = some message ∧ message.revisionId = some revisionId ∧
    records.projected revisionId = some message.payload

/-- A call that returns a positive acknowledgement is right about what is applied. -/
def Truthful (records : Records P) (s : State P) : Step P → Prop
  | .read revisionId path => ∀ ack, s.returned revisionId path = some ack →
      ack.isAccepted = true → Applies records s revisionId
  | _ => True

/-- A call that is answered by the copy of an acknowledgement finds the revision in the controller's
own file as well. -/
def CopyCurrent (s : State P) : Step P → Prop
  | .read revisionId .copy => (s.returned revisionId .copy).all (fun ack =>
      !ack.isAccepted || s.ack.any fun own => own.revisionId = revisionId) = true
  | _ => True

/-- The acknowledgement that the agent is about to write back. -/
def State.writesBack (s : State P) : Option Ack :=
  match s.stage with
  | .writeAck canonical => some canonical
  | _ => none

/-- The controller acknowledges what it applies, and the agent overwrites no
later acknowledgement. -/
def Undisturbed (s : State P) : Step P → Prop
  | .callback saved => s.topic.head?.all (fun message =>
      saved && message.revisionMeta.isSome) = true
  | .agent _ => s.writesBack.all (fun canonical =>
      s.ack.any fun own => own.revisionId = canonical.revisionId) = true
  | _ => True

instance (s : State P) (op : Step P) : Decidable (CopyCurrent s op) :=
  match op with
  | .read _ .copy => inferInstanceAs (Decidable (_ = true))
  | .read _ .ack | .request _ | .giveUp _ | .agent _ | .agentError | .publish _ | .lose _
  | .callback _ => isTrue trivial

instance (s : State P) (op : Step P) : Decidable (Undisturbed s op) :=
  match op with
  | .callback _ | .agent _ => inferInstanceAs (Decidable (_ = true))
  | .read _ _ | .request _ | .giveUp _ | .agentError | .publish _ | .lose _ => isTrue trivial

/-- A message holds the configuration of the revision that it carries. -/
def Projected (records : Records P) (message : Message P) : Prop :=
  ∀ revisionId, message.revisionId = some revisionId →
    records.projected revisionId = some message.payload

/-- The controller's file names what is applied, and messages hold what they say. -/
structure Invariant (records : Records P) (s : State P) : Prop where
  named : s.ack.map (·.revisionId) = s.applied.bind Message.revisionId
  topic : ∀ message ∈ s.topic, Projected records message
  pending : ∀ message, s.pending = some message → Projected records message
  applied : ∀ message, s.applied = some message → Projected records message

/-- The controller's file names a revision exactly when its configuration is applied. -/
theorem Invariant.applies_iff {records : Records P} {s : State P} (h : Invariant records s)
    (revisionId : String) :
    Applies records s revisionId ↔ s.ack.map (·.revisionId) = some revisionId := by
  rw [h.named, Option.bind_eq_some_iff]
  constructor
  · rintro ⟨message, happlied, hid, -⟩
    exact ⟨message, happlied, hid⟩
  · rintro ⟨message, happlied, hid⟩
    exact ⟨message, happlied, hid, h.applied message happlied revisionId hid⟩

/-- An answer is right exactly when the copy is not the only one to give it. -/
theorem Invariant.answers_iff {records : Records P} {s : State P} (h : Invariant records s)
    (op : Step P) : Truthful records s op ↔ CopyCurrent s op := by
  cases op with
  | read revisionId path =>
      simp only [Truthful, h.applies_iff]
      cases path with
      | copy => cases hreturned : s.returned revisionId .copy <;>
          simp [CopyCurrent, hreturned, or_iff_not_imp_left, Option.any_eq_true]
      | ack =>
          refine iff_of_true (fun ack hreturned _ => ?_) trivial
          rw [State.returned] at hreturned
          split at hreturned
          · obtain ⟨hack, hid⟩ := Option.filter_eq_some_iff.mp hreturned
            rw [State.file] at hack
            rw [hack]
            simpa using hid
          · cases hreturned
  | _ => rfl

/-- The agent keeps the invariant. -/
theorem Invariant.agentStep {records : Records P} {s : State P} (h : Invariant records s)
    (due : Bool) (hop : Undisturbed s (.agent due)) :
    Invariant records (agentStep records s due) := by
  rw [RosRevision.agentStep]
  cases hstage : s.stage with
  | request =>
      dsimp only
      split
      · rw [prepare]
        split
        · exact h
        · rename_i payload hprojected
          refine ⟨h.named, h.topic, ?_, h.applied⟩
          rintro message heq revisionId hid
          obtain rfl := Option.some.inj heq
          obtain rfl := Option.some.inj hid
          exact hprojected
      · exact ⟨h.named, h.topic, h.pending, h.applied⟩
  | publish =>
      refine ⟨h.named, ?_, h.pending, h.applied⟩
      intro message hmem
      dsimp only at hmem
      split at hmem
      · rcases List.mem_append.mp hmem with hmem | hmem
        · exact h.topic message hmem
        · exact h.pending message (Option.mem_toList.mp hmem)
      · exact h.topic message hmem
  | observe =>
      dsimp only
      split
      · exact ⟨h.named, h.topic, h.pending, h.applied⟩
      · split
        · exact ⟨h.named, h.topic, h.pending, h.applied⟩
        · exact ⟨h.named, h.topic, h.pending, h.applied⟩
  | writeAck canonical =>
      refine ⟨?_, h.topic, h.pending, h.applied⟩
      -- the agent writes back an acknowledgement that is still in the file
      have hown : s.ack.map (·.revisionId) = some canonical.revisionId := by
        simpa [Undisturbed, State.writesBack, hstage, Option.any_eq_true] using hop
      exact hown.symm.trans h.named
  | writeCopy canonical => exact ⟨h.named, h.topic, by rintro _ ⟨⟩, h.applied⟩

/-- A step that is not disturbed keeps the invariant. -/
theorem Invariant.step {records : Records P} {s : State P} (h : Invariant records s) {op : Step P}
    (hop : Undisturbed s op) : Invariant records (step records s op) := by
  cases op with
  | request revisionId => exact ⟨h.named, h.topic, h.pending, h.applied⟩
  | read revisionId path =>
      rw [RosRevision.step]
      split
      · exact ⟨h.named, h.topic, h.pending, h.applied⟩
      · exact h
  | giveUp revisionId => exact ⟨h.named, h.topic, h.pending, h.applied⟩
  | agent due => exact h.agentStep due hop
  | agentError => exact ⟨h.named, h.topic, h.pending, h.applied⟩
  | publish payload =>
      refine ⟨h.named, ?_, h.pending, h.applied⟩
      intro message hmem
      rcases List.mem_append.mp hmem with hmem | hmem
      · exact h.topic message hmem
      · obtain rfl := List.mem_singleton.mp hmem
        -- a configuration of mission control carries no revision
        rintro revisionId ⟨⟩
  | lose i =>
      exact ⟨h.named, fun message hmem => h.topic message (List.mem_of_mem_eraseIdx hmem),
        h.pending, h.applied⟩
  | callback saved =>
      rw [RosRevision.step, callback]
      cases htopic : s.topic with
      | nil => exact h
      | cons message topic =>
          -- the message was saved and came with a revision
          obtain ⟨rfl, hmeta⟩ : saved = true ∧ message.revisionMeta.isSome = true := by
            simpa [Undisturbed, htopic] using hop
          obtain ⟨revisionMeta, hrevision⟩ := Option.isSome_iff_exists.mp hmeta
          refine ⟨?_, fun m hm => h.topic m (by simp [htopic, hm]), h.pending, ?_⟩
          · simp [hrevision, Message.revisionId, RevisionMeta.ack]
          · rintro m heq
            obtain rfl := Option.some.inj heq
            exact h.topic message (by simp [htopic])

/-- In a run from the beginning in which the controller acknowledges what it applies and the agent
overwrites no later acknowledgement, every call that returns a positive acknowledgement of its
revision finds the configuration of that revision applied, exactly when no call is answered by a
copy that the controller's own file does not bear out. -/
theorem acknowledged_applied (records : Records P) (steps : List (Step P))
    (h : Run.AllSteps (step records) Undisturbed .initial steps) :
    Run.AllSteps (step records) (Truthful records) .initial steps ↔
      Run.AllSteps (step records) CopyCurrent .initial steps := by
  have hinitial : Invariant records (.initial : State P) :=
    ⟨rfl, by simp [State.initial], by rintro _ ⟨⟩, by rintro _ ⟨⟩⟩
  have hiff : Run.AllSteps (step records)
        (fun s op => Undisturbed s op ∧ Truthful records s op) .initial steps ↔
      Run.AllSteps (step records) (fun s op => Undisturbed s op ∧ CopyCurrent s op) .initial steps :=
    Run.allSteps_iff_of_invariant (Invariant records)
    (fun s op h => and_congr_right fun _ => h.answers_iff op) (fun s op h hop => h.step hop.1)
    hinitial
  rw [Run.allSteps_and, Run.allSteps_and, and_iff_right h, and_iff_right h] at hiff
  exact hiff

/-! ## Two revisions -/

/-- Every revision has one hash, and its name is its configuration. -/
def sampleRecords : Records String where
  hashes _ := [("config_hash", "h")]
  projected revisionId := some revisionId

/-- A revision is requested, published, applied and acknowledged, up to the copy. -/
def requested (revisionId : String) : List (Step String) :=
  [.request revisionId, .agent true, .agent true, .agent true, .callback true]

/-- The agent copies the acknowledgement. -/
def copied : List (Step String) := List.replicate 5 (.agent false)

/-- The call for a revision that was just applied is told so rightly. -/
theorem acknowledged_applied_first :
    Run.AllSteps (step sampleRecords) (Truthful sampleRecords) .initial
      (requested "a" ++ copied ++ [.read "a" .copy]) :=
  (acknowledged_applied sampleRecords _ (by decide)).mpr (by decide)

/-- While the agent has not copied the acknowledgement of the second revision, a new call for the
first one is answered by the old copy. -/
theorem stale_copy_accepted :
    ¬ ∀ steps : List (Step String),
      Run.AllSteps (step sampleRecords) (Truthful sampleRecords) .initial steps := by
  intro hall
  have hsteps := hall (requested "a" ++ copied ++ requested "b" ++
    [.request "a"] ++ [.read "a" .copy])
  rw [Run.allSteps_append] at hsteps
  obtain ⟨message, happlied, hid, -⟩ := hsteps.2.1 _ rfl rfl
  have hlast : ((Run.run (step sampleRecords) .initial
      (requested "a" ++ copied ++ requested "b" ++ [.request "a"])).applied.bind
        Message.revisionId) = some "b" := rfl
  rw [happlied, Option.bind_some, hid] at hlast
  simp at hlast

end Netlab.RosRevision
