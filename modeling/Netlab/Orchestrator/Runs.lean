import Netlab.Orchestrator.Contract
import Netlab.Orchestrator.Operations

/-!
# What the state on disk says after any operations

The state has the patches that the history lists, so what it says can be told from the history
(`told`). A patch that declares `IN_SYNC` names a revision that was committed before, and a patch
that names another revision withdraws it; so a state that says `IN_SYNC` names one committed
revision, wherever an operation was interrupted (`state_sound`). No patch enters `RUNNING`.
-/

open JsonText SharedFiles Program

namespace Netlab.Orchestrator

variable {F : Type}

/-! ## Sound histories -/

/-- A revision was committed, with the acknowledgements of its participants. -/
def Listed (id : String) (history : List (Effect F)) : Prop :=
  ∃ record, .committed record ∈ history ∧ record.revisionId = id ∧ Revisions.CommittedRecord record

theorem Listed.append {id : String} {history : List (Effect F)} (h : Listed id history)
    (effects : List (Effect F)) : Listed id (history ++ effects) := by
  obtain ⟨record, hmem, hid, hcommitted⟩ := h
  exact ⟨record, List.mem_append_left _ hmem, hid, hcommitted⟩

variable [PyText F] [PyBuiltins F] {start : World F} {history : List (Effect F)}

/-- The entry of the state that a history leads to. -/
def told (start : World F) (key : String) (history : List (Effect F)) : Option (Json F) :=
  written key history (start.entry key)

theorem told_concat (key : String) (history : List (Effect F)) (effect : Effect F) :
    told start key (history ++ [effect]) = (effect.value key).or (told start key history) := by
  rw [told, written, List.foldl_append]
  rfl

/-- What a history tells: the phase is not `RUNNING`, it is `READY` only after a commit, and
`IN_SYNC` names a committed revision. -/
structure Sound (start : World F) (history : List (Effect F)) : Prop where
  running : told start "phase" history ≠ some (.str "RUNNING")
  ready : told start "phase" history = some (.str "READY") → ∃ id, Listed id history
  inSync : told start "synchronization_state" history = some (.str "IN_SYNC") →
    ∃ id, Listed id history ∧ told start "desired_revision_id" history = some (.str id) ∧
      told start "committed_revision_id" history = some (.str id)

/-- What a patch may say of the synchronization: nothing, that it is not in sync, or that it is in
sync with a committed revision. -/
inductive Claims (start : World F) (history : List (Effect F)) (patch : Dict String (Json F)) : Prop
  | nothing (state : patch.get? "synchronization_state" = none)
      (desired : patch.get? "desired_revision_id" = none)
      (committed : patch.get? "committed_revision_id" = none)
  | pending {state : String} (claim : patch.get? "synchronization_state" = some (.str state))
      (ne : state ≠ "IN_SYNC")
  | inSync {id : String} (listed : Listed id history)
      (desired : ((patch.get? "desired_revision_id").map sortKeys).or
        (told start "desired_revision_id" history) = some (.str id))
      (committed : ((patch.get? "committed_revision_id").map sortKeys).or
        (told start "committed_revision_id" history) = some (.str id))

/-- What a patch may say of the phase. -/
def PhaseClaim (history : List (Effect F)) (patch : Dict String (Json F)) : Prop :=
  ∀ value, patch.get? "phase" = some value → ∃ phase, value = .str phase ∧ phase ≠ "RUNNING" ∧
    (phase = "READY" → ∃ id, Listed id history)

theorem Sound.patched (h : Sound start history) {patch : Dict String (Json F)}
    (hphase : PhaseClaim history patch) (hclaims : Claims start history patch) :
    Sound start (history ++ [.patched patch]) := by
  have htold (key : String) : told start key (history ++ [.patched patch]) =
      ((patch.get? key).map sortKeys).or (told start key history) := told_concat key history _
  have hlisted {id : String} (hid : Listed id history) :
      Listed id (history ++ [.patched patch]) := hid.append _
  -- what the patch leaves out is told by the history before it
  refine ⟨?_, ?_, ?_⟩
  · rw [htold]
    cases hvalue : patch.get? "phase" with
    | none => exact h.running
    | some value =>
        obtain ⟨phase, rfl, hne, -⟩ := hphase value hvalue
        exact fun heq => hne (Json.str.inj (Option.some.inj heq))
  · rw [htold]
    cases hvalue : patch.get? "phase" with
    | none => exact fun heq => (h.ready heq).imp fun _ => hlisted
    | some value =>
        obtain ⟨phase, rfl, -, hready⟩ := hphase value hvalue
        exact fun heq => (hready (Json.str.inj (Option.some.inj heq))).imp fun _ => hlisted
  · rw [htold, htold, htold]
    cases hclaims with
    | nothing hstate hdesired hcommitted =>
        rw [hstate, hdesired, hcommitted]
        exact fun heq => (h.inSync heq).imp fun _ hid => ⟨hlisted hid.1, hid.2⟩
    | pending hstate hne =>
        rw [hstate]
        exact fun heq => absurd (Json.str.inj (Option.some.inj heq)) hne
    | inSync hid hdesired hcommitted => exact fun _ => ⟨_, hlisted hid, hdesired, hcommitted⟩

/-- What is no patch leaves a history sound. -/
theorem Sound.other (h : Sound start history) {effect : Effect F}
    (heffect : ∀ key, effect.value key = none) : Sound start (history ++ [effect]) := by
  have htold (key : String) : told start key (history ++ [effect]) = told start key history := by
    rw [told_concat, heffect]
    rfl
  refine ⟨?_, ?_, ?_⟩
  · rw [htold]
    exact h.running
  · rw [htold]
    exact fun heq => (h.ready heq).imp fun _ hid => hid.append _
  · rw [htold, htold, htold]
    exact fun heq => (h.inSync heq).imp fun _ hid => ⟨hid.1.append _, hid.2⟩

/-! ## Programs that keep a history sound -/

/-- From a sound history with `P` the program returns with a sound history and `Q`, or raises with a
sound history. -/
def Sustains (start : World F) {host : Host F} {α : Type} (P : List (Effect F) → Prop)
    (prog : Prog host α) (Q : α → List (Effect F) → Prop) : Prop :=
  ∀ world, Sound start world.history → P world.history →
    prog.Ends (fun a world' => Sound start world'.history ∧ Q a world'.history)
      (fun _ world' => Sound start world'.history) world

/-- The program keeps a history sound. -/
abbrev Safe (start : World F) {host : Host F} {α : Type} (prog : Prog host α) : Prop :=
  Sustains start (fun _ => True) prog fun _ _ => True

section Sustains

variable {host : Host F} {env : Environment F} {α β : Type} {P : List (Effect F) → Prop}

theorem Sustains.pure {Q : α → List (Effect F) → Prop} {a : α}
    (h : ∀ history, P history → Q a history) : Sustains start P (pure a : Prog host α) Q :=
  fun _ hsound hP => Guarded.ends_pure ⟨hsound, h _ hP⟩

theorem Sustains.bind {prog : Prog host α} {f : α → Prog host β} {R : α → List (Effect F) → Prop}
    {Q : β → List (Effect F) → Prop} (h : Sustains start P prog R)
    (hf : ∀ a, Sustains start (R a) (f a) Q) : Sustains start P (prog >>= f) Q :=
  fun world hsound hP => (h world hsound hP).bind (fun a _ hR => hf a _ hR.1 hR.2) fun _ _ h => h

theorem Sustains.tryCatch {prog : Prog host α} {handler : Failure F → Prog host α}
    {Q : α → List (Effect F) → Prop} (h : Sustains start P prog Q)
    (hhandler : ∀ e, Sustains start (fun _ => True) (handler e) Q) :
    Sustains start P (tryCatch prog handler) Q :=
  fun world hsound hP => (h world hsound hP).tryCatch fun e _ hsound' =>
    hhandler e _ hsound' trivial

/-- A program that adds nothing to the history. -/
theorem Sustains.frame {prog : Prog host α}
    (h : ∀ world, prog.Ends (fun _ world' => world'.history = world.history)
      (fun _ world' => world'.history = world.history) world) :
    Sustains start P prog fun _ => P :=
  fun world hsound hP => (h world).mono (fun _ _ heq => heq ▸ ⟨hsound, hP⟩) fun _ _ heq =>
    heq ▸ hsound

theorem Sustains.lift (prog : Silent F α) :
    Sustains start P (liftM prog : Prog host α) fun _ => P :=
  .frame fun world => ((Guarded.ends_keeps prog world).weaken fun _ _ h => h.reached host).mono
    (fun _ _ h => h.history) fun _ _ h => h.history

theorem Sustains.silent {prog : Silent F α} {f : α → Prog host β} {Q : β → List (Effect F) → Prop}
    (h : ∀ a, Sustains start P (f a) Q) : Sustains start P ((liftM prog : Prog host α) >>= f) Q :=
  (Sustains.lift prog).bind h

/-- What a program takes from a result is the result. -/
theorem Sustains.orRaise {x : Option α} {f : α → Prog host β} {Q : β → List (Effect F) → Prop}
    (h : ∀ a, x = some a → Sustains start P (f a) Q) :
    Sustains start P ((liftM (Orchestrator.orRaise env x) : Prog host α) >>= f) Q := by
  intro world hsound hP
  have hresult : (Orchestrator.orRaise env x).Ends (fun a world' => x = some a ∧ world' = world)
      (fun _ world' => world' = world) world := by
    refine Guarded.ends_step (fun a world' hstep => ?_) fun _ _ => rfl
    obtain ⟨_, hx, heq⟩ := Option.map_eq_some_iff.mp (result_eq_ok.mp hstep)
    obtain ⟨rfl, rfl⟩ := Prod.mk.inj heq
    exact ⟨hx, rfl⟩
  refine (hresult.weaken fun _ _ h => h.reached host).bind ?_ fun _ _ heq => heq ▸ hsound
  rintro a _ ⟨hx, rfl⟩
  exact h a hx _ hsound hP

theorem Sustains.look : Sustains start P (.look : Prog host (World F)) fun _ => P :=
  .frame fun _ => Guarded.ends_look rfl

theorem Sustains.onlyIf {condition : Bool} {prog : Prog host Unit}
    (h : Sustains start P prog fun _ => P) :
    Sustains start P (onlyIf condition prog) fun _ => P := by
  cases condition with
  | false => exact .pure fun _ h => h
  | true => exact h

theorem sustains_logCommand (record : Dict String (Json F)) :
    Sustains start P (logCommand env host record) fun _ _ => True := by
  intro world hsound _
  refine (ends_logCommand record world).mono (fun _ _ h => ⟨?_, trivial⟩) fun _ _ h => ?_
  · rw [h.1.history]
    exact hsound.other fun _ => rfl
  · rw [h.history]
    exact hsound

theorem sustains_acknowledgeCommand (command : Dict String (Json F)) (status : String)
    (acknowledgement error : Json F) :
    Sustains start P (acknowledgeCommand env host command status acknowledgement error)
      fun _ _ => True :=
  .silent fun _ => (sustains_logCommand _).bind fun _ => .lift _

theorem sustains_createRevision (config : Dict String (Json F)) :
    Sustains start P (createRevision env host config) fun _ => P := by
  refine .frame fun world => Guarded.ends_step (fun record world' h => ?_) fun _ _ => rfl
  obtain ⟨result, -, heq⟩ := Option.map_eq_some_iff.mp (result_eq_ok.mp h)
  obtain ⟨-, rfl⟩ := Prod.mk.inj heq
  rfl

theorem sustains_applyRevision (record : Revisions.Record F) (offlineIsPending : Bool) :
    Sustains start P (applyRevision env host record offlineIsPending) fun _ => P := by
  refine .silent fun participants => Sustains.bind (.frame fun world => ?_) fun _ => .lift _
  refine Guarded.ends_step (fun transaction world' h => ?_) fun e h => by cases h
  obtain ⟨-, rfl⟩ := Prod.mk.inj (Except.ok.inj h)
  rfl

theorem sustains_reconcileRevision (revisionId : String) :
    Sustains start P (reconcileRevision env host revisionId) fun _ => P := by
  refine Sustains.look.bind fun world => ?_
  dsimp only
  generalize (if revisionId = "" then _ else revisionId) = target
  split
  · exact .pure fun _ h => h
  · exact .silent fun record => (sustains_applyRevision record true).bind fun _ =>
      .pure fun _ h => h

/-- What a commit adds. What the history told it still tells. -/
theorem sustains_commitRevision (id : String)
    (hP : ∀ history record, P history → P (history ++ [.committed record])) :
    Sustains start P (commitRevision env host id) fun record history =>
      P history ∧ record.revisionId = id ∧ Listed id history := by
  intro world hsound h
  refine Guarded.ends_step (fun record world' hstep => ?_) fun _ _ => hsound
  obtain ⟨⟨_, store⟩, hcommit, heq⟩ := Option.map_eq_some_iff.mp (result_eq_ok.mp hstep)
  obtain ⟨rfl, rfl⟩ := Prod.mk.inj heq
  obtain ⟨found, hfound, hcommit⟩ := Option.bind_eq_some_iff.mp hcommit
  by_cases hready : found.allRequiredAcknowledged = true
  · obtain ⟨rfl, -⟩ := by simpa [guard, hready] using hcommit
    have hid : found.revisionId = id := world.revisions.keyed id found hfound
    exact ⟨hsound.other fun _ => rfl, hP _ _ h, hid, _,
      List.mem_append_right _ (List.mem_singleton_self _), hid, .of_ready hready⟩
  · simp [guard, hready] at hcommit

end Sustains

/-! ## Patches -/

section Patches

variable [FloatNumeral F] {host : Host F} {env : Environment F} {P : List (Effect F) → Prop}

theorem sustains_update {Q : List (Effect F) → Prop} {patch : Dict String (Json F)}
    (hphase : ∀ history, P history → PhaseClaim history patch)
    (hclaims : ∀ history, P history → Claims start history patch)
    (hQ : ∀ history, P history → Q (history ++ [.patched patch])) (eventType component : String) :
    Sustains start P (update env host patch eventType component) fun _ => Q := by
  intro world hsound hP
  refine (ends_update patch eventType component world).mono (fun _ _ h => ?_) fun _ _ h => ?_
  · rw [h.1.history]
    exact ⟨hsound.patched (hphase _ hP) (hclaims _ hP), hQ _ hP⟩
  · rw [h.history]
    exact hsound

theorem safe_update {patch : Dict String (Json F)} (hphase : ∀ history, PhaseClaim history patch)
    (hclaims : ∀ history, Claims start history patch) (eventType component : String) :
    Safe start (update env host patch eventType component) :=
  sustains_update (fun history _ => hphase history) (fun history _ => hclaims history)
    (fun _ _ => trivial) _ _

omit [PyText F] [PyBuiltins F] [FloatNumeral F] in
theorem get?_ofList_of_not_mem {entries : List (String × Json F)} {key : String}
    (h : key ∉ entries.map Prod.fst) : (Dict.ofList entries).get? key = none := by
  cases hvalue : (Dict.ofList entries).get? key with
  | none => rfl
  | some value => exact absurd (List.mem_map_of_mem (Dict.mem_of_get?_ofList hvalue)) h

omit [PyText F] [PyBuiltins F] [FloatNumeral F] in
/-- A patch without a phase. -/
theorem phaseClaim_of_none {patch : Dict String (Json F)} (h : patch.get? "phase" = none) :
    PhaseClaim history patch := fun value hvalue => by rw [h] at hvalue; cases hvalue

omit [PyText F] [PyBuiltins F] [FloatNumeral F] in
theorem phaseClaim_of_some {patch : Dict String (Json F)} {phase : String}
    (h : patch.get? "phase" = some (.str phase)) (hrunning : phase ≠ "RUNNING")
    (hready : phase = "READY" → ∃ id, Listed id history) : PhaseClaim history patch := by
  intro value hvalue
  exact ⟨phase, (Option.some.inj (h.symm.trans hvalue)).symm, hrunning, hready⟩

theorem sustains_writePhase {phase : String} (hrunning : phase ≠ "RUNNING")
    (hready : phase ≠ "READY") (error : Option (Dict String (Json F)))
    (hP : ∀ history patch, P history → P (history ++ [.patched patch])) :
    Sustains start P (writePhase env host phase error) fun _ => P := by
  have hclaims (history : List (Effect F)) :
      Claims start history (State.phasePatch phase error) := by
    cases error with
    | none => exact .nothing rfl rfl rfl
    | some error => exact .nothing rfl rfl rfl
  refine Sustains.bind (sustains_update (fun _ _ => ?_) (fun history _ => hclaims history)
    (fun history h => hP history _ h) _ _) fun _ => .pure fun _ h => h
  exact phaseClaim_of_some (get?_phasePatch phase error) hrunning fun h => absurd h hready

theorem sustains_setPhase {phase : String} (hrunning : phase ≠ "RUNNING") (hready : phase ≠ "READY")
    (hP : ∀ history patch, P history → P (history ++ [.patched patch])) :
    Sustains start P (setPhase env host phase) fun _ => P :=
  (sustains_writePhase hrunning hready none hP).bind fun _ => .lift _

/-- A phase of a start is written, and what follows keeps a history sound. -/
theorem Sustains.phase {β : Type} {phase : String} {f : Unit → Prog host β}
    (h : ∀ a, Safe start (f a)) (hrunning : phase ≠ "RUNNING" := by decide)
    (hready : phase ≠ "READY" := by decide) : Safe start (setPhase env host phase >>= f) :=
  (sustains_setPhase hrunning hready fun _ _ h => h).bind h

theorem safe_createCommand (name : String) (payload : Dict String (Json F)) (component : String) :
    Safe start (createCommand env host name payload component) := by
  refine .silent fun commandId => .silent fun now => (sustains_logCommand _).bind fun _ => ?_
  exact (safe_update (fun _ => phaseClaim_of_none rfl) (fun _ => .nothing rfl rfl rfl) _ _).bind
    fun _ => .pure fun _ _ => trivial

theorem safe_startRun (config : Dict String (Json F)) : Safe start (startRun env host config) := by
  refine .silent fun runId => ?_
  have hphase : (State.runPatch host.digest (.ofDict config) runId).get? "phase" =
      some (.str "STARTING_EXPERIMENT") := rfl
  refine Sustains.bind (safe_update (fun _ => phaseClaim_of_some hphase (by decide) fun h => ?_)
    (fun _ => .nothing ?_ ?_ ?_) _ _) fun _ => .pure fun _ _ => trivial
  · simp at h
  all_goals exact get?_ofList_of_not_mem (by simp)

end Patches

/-! ## The operations -/

section Operations

variable [FloatNumeral F] {host : Host F} {env : Environment F}

theorem safe_startServices (commandId : String) :
    Safe start (startServices env host commandId) := by
  refine .phase fun _ => .silent fun _ => .phase fun _ => .silent fun _ => ?_
  refine .phase fun _ => .silent fun _ => .phase fun _ => .silent fun _ => ?_
  refine .phase fun _ => .silent fun _ => .phase fun _ => .silent fun _ => ?_
  refine .phase fun _ => .silent fun _ => .phase fun _ => .silent fun _ => ?_
  exact .phase fun _ => .silent fun _ => .pure fun _ _ => trivial

theorem safe_buildImages (commandId : String) : Safe start (buildImages env host commandId) :=
  .phase fun _ => .silent fun _ => .silent fun _ => .silent fun _ => .pure fun _ _ => trivial

theorem safe_prepareStack (build : Bool) (commandId : String) :
    Safe start (prepareStack env host build commandId) := by
  have hservices (config buildResults : Dict String (Json F)) : Safe start
      (startServices env host commandId >>= fun services => (pure (config, buildResults, services) :
        Prog host (Dict String (Json F) × Dict String (Json F) × Dict String (Json F)))) :=
    (safe_startServices commandId).bind fun _ => .pure fun _ _ => trivial
  refine .phase fun _ => .silent fun _ => .silent fun _ => .silent fun _ => ?_
  refine .silent fun _ => .silent fun _ => .silent fun config => ?_
  refine (safe_startRun config).bind fun _ => ?_
  cases build with
  | false => exact hservices config .empty
  | true => exact (safe_buildImages commandId).bind fun _ => hservices config _

/-- A revision is committed before it is returned. -/
theorem sustains_applyStartupRevision (config : Dict String (Json F)) (commandId : String) :
    Sustains start (fun _ => True) (applyStartupRevision env host config commandId)
      fun record => Listed record.revisionId := by
  refine (sustains_createRevision config).bind fun record => ?_
  have hpending : Safe start (update env host (.ofList [("desired_revision_id",
      .str record.revisionId), ("synchronization_state", .str "PENDING_RUNTIME_APPLY")])
      "STARTUP_REVISION_CREATED" "orchestrator") :=
    safe_update (fun _ => phaseClaim_of_none rfl) (fun _ => .pending rfl (by decide)) _ _
  refine hpending.bind fun _ => .silent fun _ => ?_
  refine (sustains_applyRevision record false).bind fun transaction => .silent fun _ =>
    .silent fun _ => ?_
  refine (sustains_commitRevision record.revisionId fun _ _ h => h).bind fun committed => ?_
  refine .silent fun _ => .silent fun _ => .pure ?_
  rintro history ⟨-, hid, hlisted⟩
  exact hid ▸ hlisted

theorem sustains_declareReady (config buildResults services command : Dict String (Json F))
    (record : Revisions.Record F) :
    Sustains start (Listed record.revisionId)
      (declareReady env host config buildResults services command record) fun _ _ => True := by
  refine (sustains_setPhase (by decide) (by decide) fun _ _ h => h.append _).bind fun _ => ?_
  refine .silent fun telemetry => .silent fun snapshot => .silent fun evidence => ?_
  obtain ⟨hphase, hdesired, hcommitted, -⟩ :=
    readyPatch_spec host config services record snapshot.source evidence
  have hready : Sustains start (Listed record.revisionId)
      (update env host (readyPatch host config services record snapshot.source evidence)
        "STACK_READY" "orchestrator") fun _ _ => True := by
    refine sustains_update (fun _ hlisted => ?_) (fun _ hlisted => ?_) (fun _ _ => trivial) _ _
    · exact phaseClaim_of_some hphase (by decide) fun _ => ⟨_, hlisted⟩
    · refine .inSync hlisted ?_ ?_
      · rw [hdesired]
        rfl
      · rw [hcommitted]
        rfl
  exact hready.bind fun final => .silent fun manifest =>
    (sustains_acknowledgeCommand _ _ _ _).bind fun _ => .pure fun _ _ => trivial

theorem safe_failStart (command : Dict String (Json F)) (commandId : String)
    (failure : Failure F) : Safe start (failStart env host command commandId failure) := by
  have hwrite (error : NetlabError F) : Safe start
      (writePhase env host "FAILED" (some error.asDict)) :=
    sustains_writePhase (by decide) (by decide) _ fun _ _ h => h
  cases failure with
  | netlab error =>
      exact (hwrite error).bind fun _ => (sustains_acknowledgeCommand _ _ _ _).bind fun _ =>
        .silent fun _ => .silent fun _ => .pure fun _ _ => trivial
  | raised message =>
      exact (hwrite _).bind fun _ => (sustains_acknowledgeCommand _ _ _ _).bind fun _ =>
        .silent fun _ => .pure fun _ _ => trivial

theorem safe_startStack (build : Option Bool) : Safe start (startStack env host build) := by
  refine (safe_createCommand _ _ _).bind fun command => Sustains.tryCatch ?_ fun failure =>
    safe_failStart _ _ failure
  refine .silent fun observed => ?_
  split
  · exact (sustains_acknowledgeCommand _ _ _ _).bind fun _ => .pure fun _ _ => trivial
  · refine (safe_prepareStack _ _).bind fun prepared => .phase fun _ => ?_
    exact (sustains_applyStartupRevision _ _).bind fun record =>
      sustains_declareReady _ _ _ _ record

theorem safe_stopStack : Safe start (stopStack env host) := by
  refine (safe_createCommand _ _ _).bind fun command => ?_
  refine (sustains_writePhase (by decide) (by decide) none fun _ _ h => h).bind fun _ => ?_
  refine .silent fun result => ?_
  have hstopped : Safe start (update env host (.ofList [("phase", .str "STOPPED"),
      ("telemetry_source", .str "OFFLINE"), ("readiness", .obj [])]) "STACK_STOPPED"
      "orchestrator") := by
    refine safe_update (fun _ => phaseClaim_of_some rfl (by decide) fun h => ?_)
      (fun _ => .nothing rfl rfl rfl) _ _
    simp at h
  split
  · exact hstopped.bind fun state => (sustains_acknowledgeCommand _ _ _ _).bind fun _ =>
      .pure fun _ _ => trivial
  · exact .silent fun details => (sustains_acknowledgeCommand _ _ _ _).bind fun _ =>
      .pure fun _ _ => trivial

theorem safe_restartStack (build : Option Bool) : Safe start (restartStack env host build) := by
  refine safe_stopStack.bind fun stopped => ?_
  split
  · exact .pure fun _ _ => trivial
  · exact safe_startStack build

omit [FloatNumeral F] in
theorem safe_attemptSynchronization (desired : String) (pending : Bool) :
    Safe start (attemptSynchronization env host desired pending) := by
  cases pending with
  | true =>
      exact (sustains_reconcileRevision desired).bind fun _ => .silent fun _ =>
        .pure fun _ _ => trivial
  | false =>
      exact .silent fun config => (sustains_createRevision config).bind fun record =>
        (sustains_applyRevision record true).bind fun _ => .pure fun _ _ => trivial

/-- A committed revision is declared to be in sync. -/
theorem sustains_inSync (id eventType component : String) :
    Sustains start (Listed id) (update env host (inSyncPatch id) eventType component)
      fun _ _ => True :=
  sustains_update (fun _ _ => phaseClaim_of_none rfl) (fun _ hlisted => .inSync hlisted rfl rfl)
    (fun _ _ => trivial) _ _

omit [FloatNumeral F] in
theorem sustains_commit (id : String) :
    Sustains start (fun _ => True) (commitRevision env host id) fun _ => Listed id := by
  intro world hsound _
  have hcommit : Sustains start (fun _ => True) (commitRevision env host id) fun record history =>
      True ∧ record.revisionId = id ∧ Listed id history :=
    sustains_commitRevision id fun _ _ h => h
  exact (hcommit world hsound trivial).mono (fun _ _ h => ⟨h.1, h.2.2.2⟩) fun _ _ h => h

theorem safe_synchronize (reason : String) : Safe start (synchronize env host reason) := by
  refine (safe_createCommand _ _ _).bind fun command => Sustains.look.bind fun world => ?_
  refine .silent fun pending => ?_
  refine (safe_attemptSynchronization _ pending).bind fun attempt => ?_
  obtain ⟨revisionId, transaction, config⟩ := attempt
  dsimp only
  split
  · refine (sustains_commit revisionId).bind fun _ => (Sustains.lift _).onlyIf.bind fun _ => ?_
    refine .silent fun _ => ?_
    exact (sustains_inSync _ _ _).bind fun _ => (sustains_acknowledgeCommand _ _ _ _).bind fun _ =>
      .pure fun _ _ => trivial
  · exact .silent fun _ => (sustains_acknowledgeCommand _ _ _ _).bind fun _ =>
      .pure fun _ _ => trivial

theorem safe_reconcile (revisionId : String) : Safe start (reconcile env host revisionId) := by
  refine (sustains_reconcileRevision revisionId).bind fun transaction => ?_
  dsimp only
  split
  · refine .silent fun record => (sustains_commit _).bind fun _ => ?_
    refine (Sustains.lift _).onlyIf.bind fun _ => ?_
    exact (sustains_inSync _ _ _).bind fun _ => .silent fun _ => .pure fun _ _ => trivial
  · exact .silent fun _ => .pure fun _ _ => trivial

omit [FloatNumeral F] in
/-- What `save_config` says of a draft. -/
theorem savedPatch_spec {config : Dict String (Json F)} {record : Revisions.Record F} {sync : Bool}
    {patch : Dict String (Json F)} (h : savedPatch host config record sync = some patch) :
    patch.get? "phase" = none ∧ patch.get? "desired_revision_id" = some (.str record.revisionId) ∧
      ∃ state, patch.get? "synchronization_state" = some (.str state) ∧ state ≠ "IN_SYNC" := by
  obtain ⟨_, -, h⟩ := Option.bind_eq_some_iff.mp h
  obtain ⟨_, -, h⟩ := Option.bind_eq_some_iff.mp h
  obtain ⟨experimentId, -, h⟩ := Option.bind_eq_some_iff.mp h
  obtain ⟨topology, -, h⟩ := Option.bind_eq_some_iff.mp h
  obtain rfl := Option.some.inj h
  refine ⟨get?_ofList_of_not_mem (by simp), Dict.get?_ofList_of_mem ?_ (by simp), _,
    Dict.get?_ofList_of_mem ?_ (List.mem_append_right [_, _, _, _] (List.mem_singleton_self _)), ?_⟩
  · show List.Nodup [_, _, _, _, _]
    simp
  · show List.Nodup [_, _, _, _, _]
    simp
  · cases sync <;> decide

/-- The desired revision of the state is a draft. -/
def Desires (start : World F) (id : String) (history : List (Effect F)) : Prop :=
  told start "desired_revision_id" history = some (.str id)

theorem sustains_applyDraft (record : Revisions.Record F) :
    Sustains start (Desires start record.revisionId) (applyDraft env host record)
      fun _ _ => True := by
  have hcommit : Sustains start (Desires start record.revisionId)
      (commitRevision env host record.revisionId) fun committed history =>
        Desires start record.revisionId history ∧ committed.revisionId = record.revisionId ∧
          Listed record.revisionId history := by
    refine sustains_commitRevision record.revisionId fun history committed h => ?_
    rw [Desires, told_concat]
    exact h
  have hupdate (committed : Revisions.Record F) : Sustains start (fun history =>
      Desires start record.revisionId history ∧ committed.revisionId = record.revisionId ∧
        Listed record.revisionId history)
      (update env host (committedPatch record.revisionId) "RUNTIME_REVISION_COMMITTED"
        "mission_control") fun _ _ => True :=
    sustains_update (fun _ _ => phaseClaim_of_none rfl)
      (fun _ h => .inSync h.2.2 h.1 rfl) (fun _ _ => trivial) _ _
  refine .silent fun observed => ?_
  dsimp only
  split
  · refine (sustains_applyRevision record true).bind fun transaction => ?_
    split
    · exact hcommit.bind fun committed => (hupdate committed).bind fun _ => .pure fun _ _ => trivial
    · exact .pure fun _ _ => trivial
  · exact .pure fun _ _ => trivial

theorem safe_saveConfig (value : Dict String (Json F)) (sync : Bool) :
    Safe start (saveConfig env host value sync) := by
  refine .silent fun config => .silent fun _ => ?_
  refine (sustains_createRevision config).bind fun record => ?_
  refine .orRaise fun patch hpatch => ?_
  obtain ⟨hphase, hdesired, state, hstate, hne⟩ := savedPatch_spec hpatch
  have hsave : Sustains start (fun _ => True)
      (update env host patch "CONFIGURATION_SAVED" "mission_control")
      fun _ => Desires start record.revisionId := by
    refine sustains_update (fun _ _ => phaseClaim_of_none hphase) (fun _ _ => .pending hstate hne)
      (fun history _ => ?_) _ _
    rw [Desires, told_concat, Effect.value, hdesired]
    rfl
  have happly : Sustains start (Desires start record.revisionId)
      (onlyIf sync (applyDraft env host record)) fun _ _ => True := by
    cases sync with
    | false => exact .pure fun _ _ => trivial
    | true => exact sustains_applyDraft record
  exact hsave.bind fun _ => happly.bind fun _ => .silent fun _ => .silent fun _ =>
    .pure fun _ _ => trivial

theorem safe_failExperiment (command : Dict String (Json F)) (degraded : Bool)
    (error : Dict String (Json F)) :
    Safe start (failExperiment env host command degraded error) := by
  have hwrite : Safe start (writePhase env host "DEGRADED" (some error)) :=
    sustains_writePhase (by decide) (by decide) _ fun _ _ h => h
  exact hwrite.onlyIf.bind fun _ => (sustains_acknowledgeCommand _ _ _ _).bind fun _ =>
    .pure fun _ _ => trivial

theorem safe_startExperiment : Safe start (startExperiment env host) := by
  refine (safe_createCommand _ _ _).bind fun command => .silent fun config => ?_
  refine .silent fun now => .silent fun later => .silent fun report => ?_
  split
  · exact safe_failExperiment _ _ _
  refine .silent fun observed => ?_
  split
  · exact safe_failExperiment _ _ _
  refine (safe_startRun config).bind fun _ => .silent fun _ => .silent fun ros => ?_
  split
  · exact safe_failExperiment _ _ _
  refine (safe_synchronize _).bind fun sync => ?_
  split
  · exact safe_failExperiment _ _ _
  -- the call that would enter `RUNNING` raises
  · exact .lift _

/-- Every operation keeps a history sound. -/
theorem safe_program (op : Operation F) : Safe start (op.program env host) := by
  cases op with
  | startStack build => exact safe_startStack build
  | stopStack => exact safe_stopStack
  | restartStack build => exact safe_restartStack build
  | synchronize reason => exact safe_synchronize reason
  | reconcile revisionId => exact safe_reconcile revisionId
  | saveConfig value sync => exact safe_saveConfig value sync
  | startExperiment => exact safe_startExperiment

end Operations

/-! ## Runs -/

section Runs

variable [FloatNumeral F] {host : Host F}

/-- An operation keeps a history sound, and does what `Reached` allows. -/
theorem perform_spec {world : World F} (h : Sound start world.history)
    (step : Operation F × Environment F) :
    Sound start (perform host world step).history ∧
      Reached host world (perform host world step) := by
  have hprogram : Safe start (step.1.program step.2 host) := safe_program step.1
  have hsafe := hprogram world h trivial
  have hboth := hsafe.and (Guarded.ends_keeps (step.1.program step.2 host) world)
  exact (hboth.run.mono (fun _ _ h => ⟨h.1.1, h.2⟩) fun _ _ h => h).final

omit [FloatNumeral F] in
/-- What the default state says is sound. -/
theorem sound_fresh (h : start.files State.statePath = none) : Sound start [] := by
  have hentry {key text : String} (hvalue : (State.defaultState (0.0 : F)).get? key =
      some (.str text)) : told start key [] = some (.str text) := by
    have hread : State.read start.files (0.0 : F) = State.defaultState 0.0 := by
      rw [State.read, readJson, h]
      exact Dict.ofList_entries _
    rw [told, written, List.foldl_nil, World.entry, hread, hvalue]
    rfl
  have hphase : told start "phase" [] = some (.str "STOPPED") := by
    refine hentry ((get?_ofDict_eq_some_iff ?_).mpr ?_) <;> simp
  have hsync : told start "synchronization_state" [] = some (.str "NO_REVISION") := by
    refine hentry ((get?_ofDict_eq_some_iff ?_).mpr ?_) <;> simp
  refine ⟨?_, fun h => ?_, fun h => ?_⟩
  · rw [hphase]
    simp
  · rw [hphase] at h
    simp at h
  · rw [hsync] at h
    simp at h

/-- Start without files and perform any operations, each with any answers from outside and to its
end or to an exception. The state that is then on disk is never `RUNNING`. It is `READY` only after
some revision was committed. When it says `IN_SYNC`, its desired and its committed revision are one
revision that was committed with the acknowledgements of its participants. And the revisions are
those that the manager reaches by some calls. -/
theorem state_sound (host : Host F) {start : World F} (hstate : start.files State.statePath = none)
    (hrevisions : start.revisions = .empty) (hhistory : start.history = [])
    (steps : List (Operation F × Environment F)) :
    let world := Run.run (perform host) start steps
    world.entry "phase" ≠ some (.str "RUNNING") ∧
      (world.entry "phase" = some (.str "READY") → ∃ id, Listed id world.history) ∧
      (world.entry "synchronization_state" = some (.str "IN_SYNC") →
        ∃ id, Listed id world.history ∧ world.entry "desired_revision_id" = some (.str id) ∧
          world.entry "committed_revision_id" = some (.str id)) ∧
      ∃ ops, world.revisions =
        Run.run (Revisions.Store.perform host.revisionIds host.sha256Value) .empty ops := by
  intro world
  have hbegin : Sound start start.history := hhistory ▸ sound_fresh hstate
  obtain ⟨hsound, hreached⟩ : Sound start world.history ∧ Reached host start world := by
    refine Run.run_invariant (fun world => Sound start world.history ∧ Reached host start world)
      (fun world step h => ?_) ⟨hbegin, Composable.refl start⟩ steps
    obtain ⟨hsound, hreached⟩ : Sound start (perform host world step).history ∧
        Reached host world (perform host world step) := perform_spec h.1 step
    exact ⟨hsound, Composable.trans h.2 hreached⟩
  have hentry {key : String} (hkey : key ≠ "sequence") (hkey' : key ≠ "updated_at") :
      world.entry key = told start key world.history :=
    hreached.entry (by rw [hhistory, List.nil_append]) hkey hkey'
  rw [hentry (by decide) (by decide), hentry (by decide) (by decide),
    hentry (by decide) (by decide), hentry (by decide) (by decide)]
  exact ⟨hsound.running, hsound.ready, hsound.inSync, hrevisions ▸ hreached.managed⟩

/-- What the state says after a start, an edit and a synchronization. -/
theorem state_sound_edited :
    let world := Run.run (perform sampleHost) .fresh [(.startStack none, answering),
      (.saveConfig .empty true, answering), (.synchronize "edited", answering)]
    world.entry "phase" ≠ some (.str "RUNNING") ∧
      (world.entry "synchronization_state" = some (.str "IN_SYNC") →
        ∃ id, Listed id world.history ∧ world.entry "desired_revision_id" = some (.str id) ∧
          world.entry "committed_revision_id" = some (.str id)) :=
  have h := state_sound sampleHost rfl rfl rfl _
  ⟨h.1, h.2.2.1⟩

end Runs

end Netlab.Orchestrator
