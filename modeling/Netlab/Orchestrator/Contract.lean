import Netlab.Orchestrator.Steps
import Netlab.Synchronization.Finality

/-!
# What a start leaves behind

A start that returns has logged its command as accepted and then, once, as completed or as failed. A
start that completes has written every phase in its order, and the revision that it drafted is
committed and is the one that the state names. A start that fails has written a prefix of these
phases and then `FAILED`. No start is idempotent: `system_diagnose` never sets `synchronized`, which
the readiness asks for, so the branch for a stack that already runs is not taken.
-/

open JsonText SharedFiles Program

namespace Netlab.Orchestrator

variable {F : Type}

/-! ## The order of the phases -/

/-- The phases in which the services are brought up. -/
def servicePhases : List String :=
  ["STARTING_SIONNA", "WAITING_FOR_SIONNA", "STARTING_ROS", "WAITING_FOR_ROS_CONTAINER",
    "WAITING_FOR_ROS_GRAPH", "WAITING_FOR_PACKET_RUNTIME", "STARTING_ISAAC",
    "WAITING_FOR_ISAAC_PROCESS", "WAITING_FOR_ISAAC_SCENE"]

/-- The phases before the revision. -/
def preparePhases (build : Bool) : List String :=
  "PREFLIGHT" :: "STARTING_EXPERIMENT" :: ((if build then ["BUILDING"] else []) ++ servicePhases)

/-- The phases of a start. -/
def startPhases (build : Bool) : List String :=
  preparePhases build ++ ["SYNCHRONIZING", "SMOKE_TESTING", "READY"]

section Advances

variable [PyText F] [PyBuiltins F] [FloatNumeral F] {env : Environment F} {host : Host F}
  {start : World F} {commandId : String}

theorem advances_startServices (id : String) :
    Advances start commandId (startServices env host id) servicePhases := by
  refine .phase fun _ => .silent fun _ => .phase fun _ => .silent fun _ => ?_
  refine .phase fun _ => .silent fun _ => .phase fun _ => .silent fun _ => ?_
  refine .phase fun _ => .silent fun _ => .phase fun _ => .silent fun _ => ?_
  refine .phase fun _ => .silent fun _ => .phase fun _ => .silent fun _ => ?_
  exact .phase fun _ => .silent fun _ => .pure _

theorem advances_buildImages (id : String) :
    Advances start commandId (buildImages env host id) ["BUILDING"] :=
  .phase fun _ => .silent fun _ => .silent fun _ => .silent fun _ => .pure _

theorem advances_startRun (config : Dict String (Json F)) :
    Advances start commandId (startRun env host config) ["STARTING_EXPERIMENT"] := by
  refine .silent fun runId => ?_
  have hphase : (State.runPatch host.digest (.ofDict config) runId).get? "phase" =
      (some "STARTING_EXPERIMENT").map Json.str := rfl
  exact (advances_update hphase _ _).bind fun _ => .pure ()

theorem advances_prepareStack (build : Bool) (id : String) :
    Advances start commandId (prepareStack env host build id) (preparePhases build) := by
  have hservices (config buildResults : Dict String (Json F)) : Advances start commandId
      (startServices env host id >>= fun services => (pure (config, buildResults, services) :
        Prog host (Dict String (Json F) × Dict String (Json F) × Dict String (Json F))))
      servicePhases :=
    (advances_startServices id).bind fun _ => .pure _
  refine .phase fun _ => .silent fun _ => .silent fun _ => .silent fun _ => ?_
  refine .silent fun _ => .silent fun _ => .silent fun config => ?_
  refine (advances_startRun config).bind fun _ => ?_
  cases build with
  | false => exact hservices config .empty
  | true => exact (advances_buildImages id).bind fun _ => hservices config _

end Advances

/-! ## The revision of a start -/

/-- The record was drafted on top of some revisions: it has the next id, the committed revision for
its parent, and all three participants. -/
structure DraftedOn (host : Host F) (revisions : Revisions.Store F) (record : Revisions.Record F) :
    Prop where
  revisionId : record.revisionId = host.revisionIds.id revisions.draws
  parent : record.parentRevisionId = revisions.committedId
  participants : record.requiredParticipants = participantNames

/-- A draft is there, and the committed revision is the one from before. -/
structure Drafted (host : Host F) (revisions store : Revisions.Store F) : Prop where
  committed : store.committed = revisions.committed
  record : ∃ record, store.read (host.revisionIds.id revisions.draws) = some record ∧
    DraftedOn host revisions record

/-- The draft was acknowledged by its participants and is committed. -/
structure Promoted (host : Host F) (revisions : Revisions.Store F) (record : Revisions.Record F)
    (store : Revisions.Store F) : Prop where
  committed : store.committed = some record
  desired : store.desired = some record
  acknowledged : Revisions.CommittedRecord record
  drafted : DraftedOn host revisions record

/-- The committed revision is the one from before, or the draft. -/
def Kept (host : Host F) (revisions store : Revisions.Store F) : Prop :=
  store.committed = revisions.committed ∨ ∃ record, Promoted host revisions record store

/-- What `create` returns is a draft. -/
theorem draftedOn_create {host : Host F} {revisions store : Revisions.Store F} {candidate : Json F}
    {record : Revisions.Record F}
    (h : revisions.create host.revisionIds host.sha256Value candidate participantNames =
      some (record, store)) : DraftedOn host revisions record := by
  obtain ⟨hid, hparent, -⟩ := Revisions.Store.create_draft h
  obtain ⟨hashes, -, h⟩ := Option.bind_eq_some_iff.mp h
  obtain ⟨rfl, -⟩ := Prod.mk.inj (Option.some.inj h)
  exact ⟨hid, hparent, rfl⟩

theorem DraftedOn.marked {host : Host F} {revisions : Revisions.Store F}
    {record : Revisions.Record F} (h : DraftedOn host revisions record) (participant : String)
    (entry : Revisions.Participant F) :
    DraftedOn host revisions (record.marked participant entry) := by
  obtain ⟨hid, hparent⟩ := record.marked_identity participant entry
  refine ⟨hid.trans h.revisionId, hparent.trans h.parent, ?_⟩
  rw [← h.participants]
  cases hstate : entry.state <;> simp [Revisions.Record.marked, hstate,
    Revisions.Record.withParticipant]

/-- A report of a participant leaves the draft. -/
theorem Drafted.report {host : Host F} {revisions store : Revisions.Store F}
    (h : Drafted host revisions store) {op : Revisions.Op F} (hop : Synchronization.IsReport op) :
    Drafted host revisions (store.perform host.revisionIds host.sha256Value op) := by
  obtain ⟨hcommitted, record, hread, hdrafted⟩ := h
  cases op with
  | mark revisionId participant entry =>
      by_cases hknown : participant ∈ Revisions.requiredParticipants
      · have hkept : (store.perform host.revisionIds host.sha256Value
            (.mark revisionId participant entry)).committed = store.committed := by
          have hperformed := store.performed host.revisionIds host.sha256Value
            (.mark revisionId participant entry)
          rcases hperformed.committed_cases with heq | ⟨id, committed, hop, -⟩
          · exact heq
          · cases hop
        refine ⟨hkept.trans hcommitted, ?_⟩
        rw [Synchronization.read_mark store hknown, hread]
        split
        · exact ⟨_, rfl, hdrafted.marked participant entry⟩
        · exact ⟨record, rfl, hdrafted⟩
      · have hsame : store.perform host.revisionIds host.sha256Value
            (.mark revisionId participant entry) = store := by
          simp [Revisions.Store.perform, Revisions.Store.markParticipant, hknown]
        rw [hsame]
        exact ⟨hcommitted, record, hread, hdrafted⟩
  | ackFile file content => exact ⟨hcommitted, record, hread, hdrafted⟩
  | _ => exact hop.elim

theorem Drafted.reports {host : Host F} {revisions store : Revisions.Store F}
    (h : Drafted host revisions store) {ops : List (Revisions.Op F)}
    (hops : ∀ op ∈ ops, Synchronization.IsReport op) :
    Drafted host revisions
      (Run.run (Revisions.Store.perform host.revisionIds host.sha256Value) store ops) := by
  induction ops generalizing store with
  | nil => exact h
  | cons op ops ih =>
      exact ih (h.report (hops op List.mem_cons_self)) fun op' h' =>
        hops op' (List.mem_cons_of_mem _ h')

/-- Committing the draft. -/
theorem Drafted.commit {host : Host F} {revisions store store' : Revisions.Store F}
    (h : Drafted host revisions store) {record : Revisions.Record F}
    (hcommit : store.commit (host.revisionIds.id revisions.draws) = some (record, store')) :
    Promoted host revisions record store' := by
  obtain ⟨-, draft, hread, hdrafted⟩ := h
  by_cases hready : draft.allRequiredAcknowledged = true
  · obtain ⟨rfl, rfl⟩ := by simpa [Revisions.Store.commit, hread, hready] using hcommit
    exact ⟨rfl, rfl, .of_ready hready, hdrafted.revisionId, hdrafted.parent, hdrafted.participants⟩
  · simp [Revisions.Store.commit, hread, hready] at hcommit

section Revision

variable [PyText F] [PyBuiltins F] {env : Environment F} {host : Host F} {start world : World F}
  {commandId : String} {log done : List String} {revisions : Revisions.Store F}

/-- Revisions are changed, and no phase and no command is written. -/
theorem At.revised {P P' : Revisions.Store F → Prop} {world' : World F}
    (h : At start commandId log done P world)
    (hphases : phases world'.history = phases world.history)
    (hcommands : commands world'.history = commands world.history)
    (hfiles : world'.files = world.files) (hP : P' world'.revisions) :
    At start commandId log done P' world' := by
  refine ⟨⟨hphases.trans h.phases, hcommands.trans h.commands, _, _, hP, rfl⟩, ?_⟩
  rw [Sequenced, hfiles]
  exact h.sequenced

theorem ends_createRevision (config : Dict String (Json F))
    (h : At start commandId log done (· = revisions) world) :
    (createRevision env host config).Ends
      (fun record world' => record.revisionId = host.revisionIds.id revisions.draws ∧
        At start commandId log done (Drafted host revisions) world')
      (fun _ => At start commandId log done (· = revisions)) world := by
  refine Guarded.ends_step (fun record world' hstep => ?_) fun _ _ => h
  obtain ⟨⟨_, store⟩, hcreate, heq⟩ := Option.map_eq_some_iff.mp (result_eq_ok.mp hstep)
  obtain ⟨rfl, rfl⟩ := Prod.mk.inj heq
  obtain ⟨revisions, acks, rfl, hrevisions⟩ := h.revisions
  rw [hrevisions] at hcreate
  obtain ⟨-, -, hrecords, -, hcommitted⟩ := Revisions.Store.create_spec hcreate
  obtain ⟨hid, hparent, hparticipants⟩ := draftedOn_create hcreate
  refine ⟨hid, h.revised rfl rfl rfl ⟨hcommitted, _, ?_, hid, hparent, hparticipants⟩⟩
  rw [Revisions.Store.read, hrecords, Dict.get?_set, if_pos hid.symm]

theorem ends_applyRevision (record : Revisions.Record F) (offlineIsPending : Bool)
    (h : At start commandId log done (Drafted host revisions) world) :
    (applyRevision env host record offlineIsPending).Ends
      (fun _ => At start commandId log done (Drafted host revisions))
      (fun _ => At start commandId log done (Drafted host revisions)) world := by
  refine silent_bind (fun _ _ hquiet => h.quiet hquiet) fun participants world₁ hquiet => ?_
  have hattempt : (attempt host record participants offlineIsPending).Ends
      (fun _ => At start commandId log done (Drafted host revisions))
      (fun _ => At start commandId log done (Drafted host revisions)) world₁ := by
    refine Guarded.ends_step (fun transaction world₂ hstep => ?_) fun e hstep => by cases hstep
    obtain ⟨-, rfl⟩ := Prod.mk.inj (Except.ok.inj hstep)
    have hdrafted : Drafted host revisions world₁.revisions := by
      obtain ⟨_, _, hP, hrevisions⟩ := (h.quiet hquiet).revisions
      rw [hrevisions]
      exact ⟨hP.committed, hP.record⟩
    exact (h.quiet hquiet).revised rfl rfl rfl
      (hdrafted.reports fun op hop => Synchronization.isReport_of_mem_applyOps hop)
  refine hattempt.bind (fun transaction world₂ hat => ?_) fun _ _ hat => hat
  exact ((Guarded.ends_keeps _ world₂).weaken fun _ _ h => h.reached host).mono
    (fun _ _ hquiet => hat.quiet hquiet) fun _ _ hquiet => hat.quiet hquiet

theorem ends_commitRevision (h : At start commandId log done (Drafted host revisions) world) :
    (commitRevision env host (host.revisionIds.id revisions.draws)).Ends
      (fun record => At start commandId log done (Promoted host revisions record))
      (fun _ => At start commandId log done (Drafted host revisions)) world := by
  refine Guarded.ends_step (fun record world' hstep => ?_) fun _ _ => h
  obtain ⟨⟨_, store⟩, hcommit, heq⟩ := Option.map_eq_some_iff.mp (result_eq_ok.mp hstep)
  obtain ⟨rfl, rfl⟩ := Prod.mk.inj heq
  have hdrafted : Drafted host revisions world.revisions := by
    obtain ⟨_, _, hP, hrevisions⟩ := h.revisions
    rw [hrevisions]
    exact ⟨hP.committed, hP.record⟩
  refine h.revised ?_ ?_ rfl (hdrafted.commit hcommit)
  · rw [phases_concat]
    exact List.append_nil _
  · rw [commands_concat]
    exact List.append_nil _

variable [FloatNumeral F]

/-- The revision of a start is committed with the acknowledgements of all participants, or the
committed one is kept. -/
theorem ends_applyStartupRevision (config : Dict String (Json F)) (id : String)
    (h : At start commandId log done (· = revisions) world) :
    (applyStartupRevision env host config id).Ends
      (fun record => At start commandId log done (Promoted host revisions record))
      (fun _ => At start commandId log done (Kept host revisions)) world := by
  have hdraft {store : Revisions.Store F} (h : Drafted host revisions store) :
      Kept host revisions store := Or.inl h.committed
  refine (ends_createRevision config h).bind ?_ fun _ _ hat => hat.mono fun _ heq =>
    Or.inl (congrArg _ heq)
  rintro record world₁ ⟨hid, hat₁⟩
  have hpatch : (Dict.ofList [("desired_revision_id", Json.str record.revisionId),
      ("synchronization_state", (.str "PENDING_RUNTIME_APPLY" : Json F))]).get? "phase" =
      (none : Option String).map Json.str := rfl
  refine (advances_update hpatch _ _ _ _ _ _ hat₁).bind (fun _ world₂ hat₂ => ?_)
    fun _ _ hwithin => ?_
  · -- up to the commit the draft is there, and what raises leaves the committed revision
    rw [Option.toList_none, List.append_nil] at hat₂
    refine silent_bind (fun _ _ hquiet => (hat₂.quiet hquiet).mono fun _ => hdraft)
      fun _ world₃ hquiet₃ => ?_
    refine (ends_applyRevision record false (hat₂.quiet hquiet₃)).bind
      (fun transaction world₄ hat₄ => ?_) fun _ _ hat => hat.mono fun _ => hdraft
    refine silent_bind (fun _ _ hquiet => (hat₄.quiet hquiet).mono fun _ => hdraft)
      fun _ world₅ hquiet₅ => ?_
    refine silent_bind (fun _ _ hquiet => ((hat₄.quiet hquiet₅).quiet hquiet).mono fun _ => hdraft)
      fun _ world₆ hquiet₆ => ?_
    rw [hid]
    refine (ends_commitRevision ((hat₄.quiet hquiet₅).quiet hquiet₆)).bind
      (fun committed world₇ hat₇ => ?_) fun _ _ hat => hat.mono fun _ => hdraft
    -- from the commit on, what raises leaves the draft committed
    have hkept {world' : World F} (hat : At start commandId log done
        (Promoted host revisions committed) world') :
        At start commandId log done (Kept host revisions) world' :=
      hat.mono fun _ hpromoted => Or.inr ⟨committed, hpromoted⟩
    refine silent_bind (fun _ _ hquiet => hkept (hat₇.quiet hquiet)) fun _ world₈ hquiet₈ => ?_
    refine silent_bind (fun _ _ hquiet => hkept ((hat₇.quiet hquiet₈).quiet hquiet))
      fun _ world₉ hquiet₉ => ?_
    exact Guarded.ends_pure ((hat₇.quiet hquiet₈).quiet hquiet₉)
  · -- the patch has no phase, so an update that raises has written none
    obtain ⟨part, hpart, hat⟩ := hwithin
    rw [List.prefix_nil.mp hpart, List.append_nil] at hat
    exact hat.mono fun _ => hdraft

end Revision

/-! ## The command and the state on disk -/

section Command

variable [PyText F] [PyBuiltins F] {env : Environment F} {host : Host F} {start world : World F}
  {commandId : String} {log done : List String} {P : Revisions.Store F → Prop}

theorem Quiet.entry {world' : World F} (h : Quiet world world') (key : String) :
    world'.entry key = world.entry key :=
  congrArg (fun state => (Dict.get? state key).map sortKeys) (State.read_eq_of_eq h.state _)

/-- What was written since tells the entries of the state. -/
theorem Reached.entry {world' : World F} (h : Reached host world world') {effects : List (Effect F)}
    (hhistory : world'.history = world.history ++ effects) {key : String} (hkey : key ≠ "sequence")
    (hkey' : key ≠ "updated_at") : world'.entry key = written key effects (world.entry key) := by
  obtain ⟨effects', hhistory', hentry⟩ := h.journal
  rw [hhistory'] at hhistory
  rw [hentry key hkey hkey', List.append_cancel_left hhistory]

variable [FloatNumeral F]

theorem ends_update_entry (patch : Dict String (Json F)) (eventType component : String) :
    (update env host patch eventType component).Ends
      (fun _ world' => ∀ key, key ≠ "sequence" → key ≠ "updated_at" →
        world'.entry key = ((patch.get? key).map sortKeys).or (world.entry key))
      (fun _ _ => True) world := by
  refine ((ends_update patch eventType component world).and (Guarded.ends_keeps _ world)).mono ?_
    fun _ _ _ => trivial
  rintro - world' ⟨⟨hwrote, -⟩, hreached⟩ key hkey hkey'
  exact hreached.entry hwrote.history hkey hkey'

omit [FloatNumeral F] in
/-- Acknowledging a command logs the status and leaves the state. -/
theorem At.acknowledge (hclock : ∀ n, PyFloat.isFinite (env.clock n) = true)
    (h : At start commandId log done P world) {command : Dict String (Json F)}
    (hcommand : command.getText "command_id" "" = commandId) (status : String)
    (acknowledgement error : Json F) :
    (acknowledgeCommand env host command status acknowledgement error).Ends
      (fun _ world' => At start commandId (log ++ [status]) done P world' ∧
        ∀ key, key ≠ "sequence" → key ≠ "updated_at" → world'.entry key = world.entry key)
      (fun _ => At start commandId log done P) world := by
  refine ((ends_acknowledgeCommand hclock command status acknowledgement error h.sequenced).and
    (Guarded.ends_keeps _ world)).mono ?_ fun _ _ hquiet => h.quiet hquiet.1
  rintro - world' ⟨⟨now, hwrote, hsequenced⟩, hreached⟩
  have hstatus : (Effect.commandLogged
      (State.acknowledged command status acknowledgement error now)).command? =
        some (commandId, status) := by rw [command?_acknowledged, hcommand]
  exact ⟨⟨h.toWritten.logged hwrote hstatus, hsequenced⟩, fun key hkey hkey' =>
    hreached.entry hwrote.history hkey hkey'⟩

omit [PyText F] [PyBuiltins F] [FloatNumeral F] in
theorem ends_ask {α : Type} (answer : Environment F → ℕ → α) :
    (ask env answer).Ends (fun a world' => a = answer env world.asked ∧ Quiet world world')
      (fun _ _ => False) world :=
  ⟨rfl, rfl, rfl, _, rfl⟩

/-- A new command is logged as accepted. What raises leaves at most that. -/
theorem ends_createCommand (name : String) (payload : Dict String (Json F)) (component : String) :
    (createCommand env host name payload component).Ends
      (fun command world' => command.getText "command_id" "" = env.uuid world.asked ∧
        At world (env.uuid world.asked) ["ACCEPTED"] [] (· = world.revisions) world')
      (fun _ world' => ∃ log, log <+: ["ACCEPTED"] ∧
        Written world (env.uuid world.asked) log [] (· = world.revisions) world') world := by
  have hbegin : Written world (env.uuid world.asked) [] [] (· = world.revisions) world :=
    ⟨(List.append_nil _).symm, (List.append_nil _).symm, _, _, rfl, rfl⟩
  refine ((ends_ask (·.uuid)).weaken fun _ _ h => h.reached host).bind ?_ fun _ _ h => h.elim
  rintro commandId world₁ ⟨rfl, hquiet₁⟩
  have hwritten₁ := hbegin.quiet hquiet₁
  refine silent_bind (fun _ _ h => ⟨[], List.nil_prefix, hwritten₁.quiet h⟩)
    fun now world₂ hquiet₂ => ?_
  have hwritten₂ := hwritten₁.quiet hquiet₂
  refine (ends_logCommand _ world₂).bind ?_ fun _ _ h => ⟨[], List.nil_prefix, hwritten₂.quiet h⟩
  rintro - world₃ ⟨hwrote₃, -, -⟩
  have hwritten₃ := hwritten₂.logged hwrote₃ (command?_created _ _ _ _ _)
  have hpatch : (Dict.ofList [("last_command_id", (.str (env.uuid world.asked) : Json F))]).get?
      "phase" = (none : Option String).map Json.str := rfl
  refine (ends_update _ _ _ world₃).bind ?_ fun _ _ h => ⟨_, List.prefix_rfl, hwritten₃.quiet h⟩
  rintro - world₄ ⟨hwrote₄, hsequenced⟩
  exact Guarded.ends_pure ⟨getText_created _ _ _ _ _, hwritten₃.patched hwrote₄ hpatch, hsequenced⟩

end Command

/-! ## The end of a start -/

section Start

variable [PyText F] [PyBuiltins F] {env : Environment F} {host : Host F} {start world : World F}
  {commandId : String} {log done : List String} {P : Revisions.Store F → Prop}

/-- The state on disk says that the stack is ready and in sync with a revision. -/
structure ReadyState (record : Revisions.Record F) (world : World F) : Prop where
  phase : world.entry "phase" = some (.str "READY")
  desired : world.entry "desired_revision_id" = some (.str record.revisionId)
  committed : world.entry "committed_revision_id" = some (.str record.revisionId)
  synchronization : world.entry "synchronization_state" = some (.str "IN_SYNC")

/-- The state on disk says that a start has failed. -/
structure FailedState (error : Dict String (Json F)) (world : World F) : Prop where
  phase : world.entry "phase" = some (.str "FAILED")
  lastError : world.entry "last_error" = some (sortKeys (.ofDict error))

/-- What the patch at the end of a start declares. -/
theorem readyPatch_spec (host : Host F) (config services : Dict String (Json F))
    (record : Revisions.Record F) (source : String) (evidence : Bool) :
    let patch := readyPatch host config services record source evidence
    patch.get? "phase" = some (.str "READY") ∧
      patch.get? "desired_revision_id" = some (.str record.revisionId) ∧
      patch.get? "committed_revision_id" = some (.str record.revisionId) ∧
      patch.get? "synchronization_state" = some (.str "IN_SYNC") := by
  refine ⟨?_, ?_, ?_, ?_⟩ <;> refine Dict.get?_ofList_of_mem ?_ (by simp)
  all_goals
    show List.Nodup [_, _, _, _, _, _, _, _]
    simp

/-- No diagnosis finds the stack ready: `synchronized` is never set. -/
theorem Observations.not_ready (seen : Observations) (inSync : Bool) (source : String) :
    (seen.readiness inSync source).ready = false := by
  simp [ReadinessState.ready, Observations.readiness]

theorem ends_systemDiagnose :
    (systemDiagnose env).Ends (fun observed world' => observed.settled = false ∧ Quiet world world')
      (fun _ world' => Quiet world world') world := by
  refine ((Guarded.ends_keeps (systemDiagnose env) world).and (?_ : (systemDiagnose env).Ends
    (fun observed _ => observed.settled = false) (fun _ _ => True) world)).mono
    (fun _ _ h => ⟨h.2, h.1⟩) fun _ _ h => h.1
  refine (Guarded.ends_keeps _ world).bind (fun seen world₁ _ => ?_) fun _ _ _ => trivial
  refine (Guarded.ends_keeps _ world₁).bind (fun revision world₂ _ => ?_) fun _ _ _ => trivial
  refine (Guarded.ends_keeps _ world₂).bind (fun now world₃ _ => ?_) fun _ _ _ => trivial
  refine (Guarded.ends_keeps _ world₃).bind (fun found world₄ _ => ?_) fun _ _ _ => trivial
  refine Guarded.ends_pure ?_
  rw [Diagnosis.settled, Observations.not_ready, Bool.false_and, Bool.false_and]

variable [FloatNumeral F] (hclock : ∀ n, PyFloat.isFinite (env.clock n) = true)

include hclock in
theorem ends_declareReady {record : Revisions.Record F} {command : Dict String (Json F)}
    (h : At start commandId log done P world)
    (hcommand : command.getText "command_id" "" = commandId)
    (config buildResults services : Dict String (Json F)) :
    (declareReady env host config buildResults services command record).Ends
      (fun outcome world' => outcome = { ok := true } ∧
        At start commandId (log ++ ["COMPLETED"]) (done ++ ["SMOKE_TESTING", "READY"]) P world' ∧
        ReadyState record world')
      (fun _ => Within start commandId log done ["SMOKE_TESTING", "READY"] P) world := by
  have hsmoke {world' : World F}
      (hat : At start commandId log (done ++ ["SMOKE_TESTING"]) P world') :
      Within start commandId log done ["SMOKE_TESTING", "READY"] P world' :=
    ⟨["SMOKE_TESTING"], List.prefix_append _ _, hat⟩
  refine (advances_setPhase _ _ _ _ _ h).bind (fun _ world₁ hat₁ => ?_)
    fun _ _ hwithin => hwithin.left
  refine silent_bind (fun _ _ hquiet => hsmoke (hat₁.quiet hquiet))
    fun telemetry world₂ hquiet₂ => ?_
  have hat₂ := hat₁.quiet hquiet₂
  refine silent_bind (fun _ _ hquiet => hsmoke (hat₂.quiet hquiet))
    fun snapshot world₃ hquiet₃ => ?_
  have hat₃ := hat₂.quiet hquiet₃
  refine silent_bind (fun _ _ hquiet => hsmoke (hat₃.quiet hquiet))
    fun evidence world₄ hquiet₄ => ?_
  have hat₄ := hat₃.quiet hquiet₄
  obtain ⟨hphase, hdesired, hcommitted, hsynchronization⟩ :=
    readyPatch_spec host config services record snapshot.source evidence
  have hpatch : (readyPatch host config services record snapshot.source evidence).get? "phase" =
      (some "READY").map Json.str := hphase
  refine ((advances_update hpatch _ _ _ _ _ _ hat₄).and (ends_update_entry _ _ _)).bind
    (fun final world₅ hat₅ => ?_) fun _ _ hwithin => Within.append hwithin.1
  obtain ⟨hat₅, hentry⟩ := hat₅
  rw [List.append_assoc] at hat₅
  have hready : ReadyState record world₅ := by
    refine ⟨?_, ?_, ?_, ?_⟩ <;> rw [hentry _ (by decide) (by decide)]
    · rw [hphase]
      rfl
    · rw [hdesired]
      rfl
    · rw [hcommitted]
      rfl
    · rw [hsynchronization]
      rfl
  refine silent_bind (fun _ _ hquiet => ⟨_, List.prefix_rfl, hat₅.quiet hquiet⟩)
    fun manifest world₆ hquiet₆ => ?_
  refine ((hat₅.quiet hquiet₆).acknowledge hclock hcommand _ _ _).bind ?_
    fun _ _ hat => ⟨_, List.prefix_rfl, hat⟩
  rintro - world₇ ⟨hat₇, hsame⟩
  -- the manifest and the acknowledgement leave what the patch declared
  refine Guarded.ends_pure ⟨rfl, hat₇, ?_⟩
  refine ⟨?_, ?_, ?_, ?_⟩ <;> rw [hsame _ (by decide) (by decide), hquiet₆.entry]
  · exact hready.phase
  · exact hready.desired
  · exact hready.committed
  · exact hready.synchronization

/-- A start that completed. -/
def Completed (host : Host F) (build : Bool) (start : World F) (commandId : String)
    (world : World F) : Prop :=
  ∃ record, Written start commandId ["ACCEPTED", "COMPLETED"] (startPhases build)
      (Promoted host start.revisions record) world ∧
    ReadyState record world

/-- A start that failed with an error. -/
def Failed (host : Host F) (build : Bool) (start : World F) (commandId : String)
    (error : Dict String (Json F)) (world : World F) : Prop :=
  FailedState error world ∧ ∃ part, part <+: startPhases build ∧
    Written start commandId ["ACCEPTED", "FAILED"] (part ++ ["FAILED"]) (Kept host start.revisions)
      world

/-- A start that raised, at the latest after it has failed. -/
def Interrupted (host : Host F) (build : Bool) (start : World F) (commandId : String)
    (world : World F) : Prop :=
  ∃ part failed log, part <+: startPhases build ∧ failed <+: ["FAILED"] ∧
    log <+: ["ACCEPTED", "FAILED"] ∧ ("FAILED" ∈ log → failed = ["FAILED"]) ∧
    Written start commandId log (part ++ failed) (Kept host start.revisions) world

/-- What a start returns, and what it leaves. -/
def Started (host : Host F) (build : Bool) (start : World F) (commandId : String)
    (outcome : Outcome F) (world : World F) : Prop :=
  outcome.idempotent = false ∧
    ((outcome.ok = true ∧ outcome.error = none ∧ Completed host build start commandId world) ∨
      ∃ error, outcome.ok = false ∧ outcome.error = some error ∧
        Failed host build start commandId error world)

include hclock in
/-- The phase is written, and the failure is acknowledged. -/
theorem ends_failed {build : Bool} {command error : Dict String (Json F)} {part : List String}
    (hcommand : command.getText "command_id" "" = commandId) (hpart : part <+: startPhases build)
    (h : At start commandId ["ACCEPTED"] part (Kept host start.revisions) world)
    {f : Unit → Prog host (Outcome F)}
    (hf : ∀ world', Failed host build start commandId error world' →
      (f ()).Ends (Started host build start commandId)
        (fun _ => Interrupted host build start commandId) world') :
    (writePhase env host "FAILED" (some error) >>= fun _ =>
        acknowledgeCommand env host command "FAILED" .null (.ofDict error) >>= f).Ends
      (Started host build start commandId) (fun _ => Interrupted host build start commandId)
      world := by
  have hwrite : (writePhase env host "FAILED" (some error)).Ends
      (fun _ world' => At start commandId ["ACCEPTED"] (part ++ ["FAILED"])
        (Kept host start.revisions) world' ∧ FailedState error world')
      (fun _ world' => Within start commandId ["ACCEPTED"] part ["FAILED"]
        (Kept host start.revisions) world') world := by
    have hphase := get?_phasePatch "FAILED" (some error)
    have hpatch : (State.phasePatch "FAILED" (some error)).get? "phase" =
        (some "FAILED").map Json.str := hphase
    refine ((advances_update hpatch _ _ _ _ _ _ h).and (ends_update_entry _ _ _)).bind ?_
      fun _ _ hwithin => hwithin.1
    rintro - world₁ ⟨hat, hentry⟩
    refine Guarded.ends_pure ⟨hat, ?_, ?_⟩ <;> rw [hentry _ (by decide) (by decide)]
    · rw [hphase]
      rfl
    · rfl
  -- the handler itself can raise: before the phase is written, or before the acknowledgement
  refine hwrite.bind ?_ ?_
  · rintro - world₁ ⟨hat, hstate⟩
    refine (hat.acknowledge hclock hcommand "FAILED" .null (.ofDict error)).bind ?_ fun _ _ hat =>
      ⟨part, ["FAILED"], ["ACCEPTED"], hpart, List.prefix_rfl, List.prefix_append _ _,
        fun _ => rfl, hat.toWritten⟩
    rintro - world₂ ⟨hat₂, hsame⟩
    refine hf world₂ ⟨⟨?_, ?_⟩, part, hpart, hat₂.toWritten⟩ <;>
      rw [hsame _ (by decide) (by decide)]
    · exact hstate.phase
    · exact hstate.lastError
  · rintro - world₁ ⟨failed, hfailed, hat⟩
    exact ⟨part, failed, ["ACCEPTED"], hpart, hfailed, List.prefix_append _ _,
      fun hmem => by simp at hmem, hat.toWritten⟩

omit [FloatNumeral F] in
/-- A start that has failed may still raise. -/
theorem Failed.interrupted {build : Bool} {error : Dict String (Json F)} {world' : World F}
    (h : Failed host build start commandId error world) (hquiet : Quiet world world') :
    Interrupted host build start commandId world' := by
  obtain ⟨-, part, hpart, hwritten⟩ := h
  exact ⟨part, ["FAILED"], ["ACCEPTED", "FAILED"], hpart, List.prefix_rfl, List.prefix_rfl,
    fun _ => rfl, hwritten.quiet hquiet⟩

omit [FloatNumeral F] in
theorem Failed.quiet {build : Bool} {error : Dict String (Json F)} {world' : World F}
    (h : Failed host build start commandId error world) (hquiet : Quiet world world') :
    Failed host build start commandId error world' := by
  obtain ⟨⟨hphase, herror⟩, part, hpart, hwritten⟩ := h
  exact ⟨⟨(hquiet.entry _).trans hphase, (hquiet.entry _).trans herror⟩, part, hpart,
    hwritten.quiet hquiet⟩

include hclock in
theorem ends_failStart {build : Bool} {command : Dict String (Json F)}
    (hcommand : command.getText "command_id" "" = commandId)
    (h : Within start commandId ["ACCEPTED"] [] (startPhases build) (Kept host start.revisions)
      world) (failure : Failure F) :
    (failStart env host command commandId failure).Ends (Started host build start commandId)
      (fun _ => Interrupted host build start commandId) world := by
  obtain ⟨part, hpart, hat⟩ := h
  have hreturn {error : Dict String (Json F)} {world' : World F}
      (hfailed : Failed host build start commandId error world') :
      (pure { ok := false, error := some error } : Prog host (Outcome F)).Ends
        (Started host build start commandId)
        (fun _ => Interrupted host build start commandId) world' :=
    Guarded.ends_pure ⟨rfl, Or.inr ⟨error, rfl, rfl, hfailed⟩⟩
  cases failure with
  | netlab error =>
      refine ends_failed hclock hcommand hpart hat fun world₁ hfailed => ?_
      refine silent_bind (fun _ _ => hfailed.interrupted) fun _ world₂ hquiet₂ => ?_
      refine silent_bind (fun _ _ => (hfailed.quiet hquiet₂).interrupted) fun _ world₃ hquiet₃ => ?_
      exact hreturn ((hfailed.quiet hquiet₂).quiet hquiet₃)
  | raised message =>
      refine ends_failed hclock hcommand hpart hat fun world₁ hfailed => ?_
      refine silent_bind (fun _ _ => hfailed.interrupted) fun _ world₂ hquiet₂ => ?_
      exact hreturn (hfailed.quiet hquiet₂)

include hclock in
theorem ends_startAnew {build : Bool} {command : Dict String (Json F)} (id : String)
    (hcommand : command.getText "command_id" "" = commandId)
    (h : At start commandId ["ACCEPTED"] [] (· = start.revisions) world) :
    (startAnew env host build command id).Ends (Started host build start commandId)
      (fun _ => Within start commandId ["ACCEPTED"] [] (startPhases build)
        (Kept host start.revisions)) world := by
  have hsame {store : Revisions.Store F} (h : store = start.revisions) :
      Kept host start.revisions store := Or.inl (congrArg _ h)
  have hprefix : preparePhases build ++ ["SYNCHRONIZING"] <+: startPhases build := by
    rw [startPhases, List.prefix_append_right_inj]
    exact List.prefix_append ["SYNCHRONIZING"] ["SMOKE_TESTING", "READY"]
  refine (advances_prepareStack build id _ _ _ _ h).bind ?_ fun _ _ hwithin =>
    (hwithin.mono fun _ => hsame).left
  rintro ⟨config, buildResults, services⟩ world₁ hat₁
  rw [List.nil_append] at hat₁
  refine (advances_setPhase "SYNCHRONIZING" _ _ _ _ hat₁).bind (fun _ world₂ hat₂ => ?_)
    fun _ _ hwithin => ?_
  · refine (ends_applyStartupRevision config id hat₂).bind (fun record world₃ hat₃ => ?_)
      fun _ _ hat => ⟨_, hprefix, hat⟩
    refine (ends_declareReady hclock hat₃ hcommand config buildResults services).mono ?_
      fun _ _ hwithin => ?_
    · rintro _ world₄ ⟨rfl, hat₄, hready⟩
      rw [List.append_assoc] at hat₄
      exact ⟨rfl, Or.inl ⟨rfl, rfl, record, hat₄.toWritten, hready⟩⟩
    · -- the revision is committed by then, whatever raises
      obtain ⟨part, hpart, hat⟩ := hwithin
      refine ⟨preparePhases build ++ ["SYNCHRONIZING"] ++ part, ?_,
        hat.mono fun _ hpromoted => Or.inr ⟨record, hpromoted⟩⟩
      rw [startPhases, List.append_assoc, List.prefix_append_right_inj]
      exact List.prefix_append_right_inj ["SYNCHRONIZING"] |>.mpr hpart
  · obtain ⟨part, hpart, hat⟩ := hwithin
    refine ⟨preparePhases build ++ part, List.IsPrefix.trans ?_ hprefix, hat.mono fun _ => hsame⟩
    exact List.prefix_append_right_inj _ |>.mpr hpart

/-- Whatever the outside answers, a start that returns has logged its command as accepted and then
as completed or failed, as its outcome says, and it is not idempotent. Completed, it has written all
phases in their order, and the revision that it drafted is committed with the acknowledgements of
its three participants and named by the state on disk. Failed, it has written a prefix of these
phases and then `FAILED` with the error that it returns, and the committed revision is the one from
before or the acknowledged draft. -/
theorem startStack_contract (hclock : ∀ n, PyFloat.isFinite (env.clock n) = true)
    (build : Option Bool) (start : World F) :
    let build' := build.getD host.settings.buildOnStart
    let commandId := env.uuid start.asked
    (startStack env host build).Ends (Started host build' start commandId)
      (fun _ => Interrupted host build' start commandId) start := by
  intro build' commandId
  refine (ends_createCommand _ _ _).bind ?_ ?_
  · rintro command world₁ ⟨hcommand, hat₁⟩
    have hbody : (startBody env host build' command (command.getText "command_id" "")).Ends
        (Started host build' start commandId)
        (fun _ => Within start commandId ["ACCEPTED"] [] (startPhases build')
          (Kept host start.revisions)) world₁ := by
      have hkept {world : World F} (hquiet : Quiet world₁ world) :
          Within start commandId ["ACCEPTED"] [] (startPhases build') (Kept host start.revisions)
            world :=
        ((hat₁.quiet hquiet).mono fun _ heq => Or.inl (congrArg _ heq)).within
      have hdiagnose : (systemDiagnose env).Ends
          (fun observed world' => observed.settled = false ∧ Quiet world₁ world')
          (fun _ world' => Quiet world₁ world') world₁ := ends_systemDiagnose
      refine (hdiagnose.weaken fun _ _ h => h.reached host).bind ?_ fun _ _ => hkept
      -- a diagnosis never finds the stack ready, so the start goes on
      rintro observed world₂ ⟨hsettled, hquiet⟩
      rw [if_neg (by rw [hsettled]; exact Bool.false_ne_true)]
      exact ends_startAnew hclock _ hcommand (hat₁.quiet hquiet)
    refine hbody.tryCatch fun failure world₂ hwithin => ?_
    rw [show command.getText "command_id" "" = commandId from hcommand]
    exact ends_failStart hclock hcommand hwithin failure
  · -- the command is created before the handler is in place, so this raises
    rintro failure world₁ ⟨log, hlog, hwritten⟩
    obtain ⟨revisions, acks, rfl, hrevisions⟩ := hwritten.revisions
    refine ⟨[], [], log, List.nil_prefix, List.nil_prefix, hlog.trans (List.prefix_append _ _),
      fun hmem => ?_, hwritten.phases, hwritten.commands, _, acks, Or.inl rfl, hrevisions⟩
    have := hlog.subset hmem
    simp at this

end Start

/-! ## A host where everything answers -/

/-- Exact fractions as floats, for evaluations on concrete values. Every logarithm is cut off to
zero. -/
def Decimals : Type := ℚ

instance : PyText Decimals := PyText.fraction

instance : PyBuiltins Decimals :=
  show PyBuiltins ℚ from { (inferInstance : PyBuiltins ℚ) with log10 := fun _ => some 0 }

instance : FloatNumeral Decimals where
  isFloat_text _ := PyText.fraction.floatNumeral.isFloat_text rfl
  ofText_text _ := PyText.fraction.floatNumeral.ofText_text rfl

/-- A host that builds the images and waits for nothing. -/
def sampleHost : Host Decimals where
  settings :=
    { buildOnStart := true, sionnaTimeout := 0.0, rosContainerTimeout := 0.0, rosGraphTimeout := 0.0
      packetTimeout := 0.0, isaacProcessTimeout := 0.0, isaacSceneTimeout := 0.0
      telemetryTimeout := 0.0 }
  revisionIds := .unary
  sha256Value _ := some "h"
  digest _ := "h"

/-- A service whose container runs. -/
def running (service : String) : ServiceHealth where
  service
  exists? := true
  running := true
  status := some "running"
  health := "healthy"
  restartCount := 0

/-- A command that succeeds. -/
def succeeding (argv : List String) : CommandResult Decimals where
  argv
  returncode := 0
  stdout := ""
  stderr := ""
  duration := 0.0

/-- The acknowledgement of the first revision. -/
def firstAck : Json Decimals :=
  .obj [("revision_id", .str "x"), ("accepted", .bool true),
    ("observed_hashes", .obj (["config_hash", "topology_hash", "swarm_hash", "antennas_hash",
      "world_hash", "traffic_hash", "failure_hash", "antenna_hash"].map (·, .str "h")))]

/-- Every service is up, and every participant acknowledges the first revision. -/
def answering : Environment Decimals where
  clock _ := 0.0
  uuid n := n.repr
  exceptionText _ := "raised"
  seconds _ := "0"
  callback _ := .ok ()
  observations _ := .ok
    { dockerReachable := true, gpuAvailable := true, composeValid := true, isaac := running "isaac"
      ros := running "ros2-core", sionna := running "sionna-engine", packetFresh := true
      packetReady := true, algorithmFresh := true, algorithmReady := true, sionnaFresh := true
      sionnaApi := true, isaacFresh := true, isaacSceneReady := true, isaacAcknowledged := true
      resultsWritable := true }
  repaired _ := none
  preflight _ := .ok (.ofList [("ok", .bool true)])
  health _ := .ok (running "service")
  command _ argv := .ok (succeeding argv)
  failureDetails _ := .ok .empty
  unlinks _ := true
  http _ := { ok := true, data := .obj [], error := none }
  freshness _ := { exists? := true, fresh := true, age := none }
  heartbeat _ := .obj [("sequence", .int 1), ("ready", .bool true)]
  graph _ := .ok (succeeding [])
  snapshot _ := .ok { source := "LIVE", rows := 1 }
  rounds _ := 1
  participants _ :=
    { ros := [fun file => if file = .ros then [(.ros, some firstAck)] else []]
      sionna := .ok firstAck
      isaac := [fun _ => [(.isaac, some firstAck)]] }
  resultsExist _ := true
  manifest _ := .ok .empty
  supportBundle _ := .ok ()
  publish _ := .ok (.ofList [("ok", .bool true)])

/-- Nothing was written yet. -/
def World.fresh : World F where
  files _ := none
  revisions := .empty
  asked := 0
  history := []

/-- The contract holds of the first start of a host where everything answers. -/
theorem startStack_contract_answering :
    (startStack answering sampleHost none).Ends (Started sampleHost true .fresh "0")
      (fun _ => Interrupted sampleHost true .fresh "0") .fresh :=
  startStack_contract (fun _ => rfl) none .fresh

end Netlab.Orchestrator
