import Netlab.Orchestrator.Stack
import Netlab.Revisions.Drafts

/-!
# What the steps of a start write

One rule for each call that a program of the orchestrator is made of, and the predicate `At` for the
middle of a program: which phases and commands were written since it began, and what holds of the
revisions. A silent program leaves it; a program that writes some phases in a row may be interrupted
after any of them (`Within`).
-/

open JsonText SharedFiles Program

namespace Netlab.Orchestrator

variable {F : Type}

/-! ## Phases and commands -/

/-- The phase that is written, if there is one. -/
def Effect.phase? : Effect F → Option (Json F)
  | .patched patch => patch.get? "phase"
  | _ => none

/-- The phases that were written. -/
def phases (history : List (Effect F)) : List (Json F) := history.filterMap Effect.phase?

variable [PyText F]

/-- The command and its status, for a line of the command log. -/
def Effect.command? : Effect F → Option (String × String)
  | .commandLogged record => some (record.getText "command_id" "", record.getText "status" "")
  | _ => none

/-- The commands that were logged, with their status. -/
def commands (history : List (Effect F)) : List (String × String) :=
  history.filterMap Effect.command?

omit [PyText F] in
theorem phases_concat (history : List (Effect F)) (effect : Effect F) :
    phases (history ++ [effect]) = phases history ++ effect.phase?.toList := by
  rw [phases, List.filterMap_append]
  cases h : effect.phase? <;> simp [phases, h]

theorem commands_concat (history : List (Effect F)) (effect : Effect F) :
    commands (history ++ [effect]) = commands history ++ effect.command?.toList := by
  rw [commands, List.filterMap_append]
  cases h : effect.command? <;> simp [commands, h]

/-! ## The calls -/

variable [PyBuiltins F] {env : Environment F} {host : Host F} {world : World F}

/-- The state on disk has a number. -/
def Sequenced (world : World F) : Prop :=
  (State.sequence? (State.read world.files (0.0 : F))).isSome = true

theorem Quiet.sequenced {world' : World F} (h : Quiet world world') (hworld : Sequenced world) :
    Sequenced world' := by
  rw [Sequenced, State.read_eq_of_eq h.state]
  exact hworld

/-- A silent program comes first. -/
theorem silent_bind {α β : Type} {prog : Silent F α} {f : α → Prog host β}
    {Q : β → World F → Prop} {E : Failure F → World F → Prop}
    (hE : ∀ e world', Quiet world world' → E e world')
    (hf : ∀ a world', Quiet world world' → (f a).Ends Q E world') :
    ((liftM prog : Prog host α) >>= f).Ends Q E world :=
  ((Guarded.ends_keeps prog world).weaken fun _ _ h => h.reached host).bind hf hE

/-- One thing was written, and the revisions are as before. -/
structure Wrote (effect : Effect F) (world world' : World F) : Prop where
  history : world'.history = world.history ++ [effect]
  revisions : ∃ acks, world'.revisions = { world.revisions with acks }

omit [PyText F] [PyBuiltins F] in
theorem Quiet.wrote {effect : Effect F} {world₁ world₂ : World F} (h : Quiet world world₁)
    (hhistory : world₂.history = world₁.history ++ [effect])
    (hrevisions : world₂.revisions = world₁.revisions) : Wrote effect world world₂ := by
  obtain ⟨acks, hacks⟩ := h.revisions
  exact ⟨by rw [hhistory, h.history], acks, hrevisions.trans hacks⟩

variable [FloatNumeral F]

/-- The number of the state that `update` leaves. -/
theorem sequence?_update {files files' : Files} {stamp : State.Stamp F}
    {patch : Dict String (Json F)} {eventType component : String}
    (h : State.update files stamp patch eventType component = some files') (now : F) :
    (State.sequence? (State.read files' now)).isSome = true := by
  obtain ⟨sequence, -, -, hread, -, -⟩ := State.update_spec h
  have hentry : (State.read files' now).get? "sequence" = some (.int (sequence + 1)) := by
    rw [hread, State.patched, Dict.get?_set, if_neg (by decide), Dict.get?_set, if_pos rfl]
    rfl
  rw [State.sequence?, Dict.getD, hentry]
  rfl

theorem ends_update (patch : Dict String (Json F)) (eventType component : String)
    (world : World F) :
    (update env host patch eventType component).Ends
      (fun _ world' => Wrote (.patched patch) world world' ∧ Sequenced world')
      (fun _ world' => Quiet world world') world := by
  refine silent_bind (fun _ _ h => h) fun stamp world₁ hquiet => ?_
  refine Guarded.ends_step (fun state world' h => ?_) fun _ _ => hquiet
  obtain ⟨files, hfiles, h⟩ := Option.bind_eq_some_iff.mp (result_eq_ok.mp h)
  obtain ⟨sequence, -, h⟩ := Option.bind_eq_some_iff.mp h
  obtain ⟨-, rfl⟩ := Prod.mk.inj (Option.some.inj h)
  exact ⟨hquiet.wrote rfl rfl, sequence?_update hfiles _⟩

omit [PyText F] [FloatNumeral F] in
/-- An object can be written when its values can. -/
theorem finite_sortKeys_obj {members : List (String × Json F)}
    (h : (members.map Prod.fst).Nodup) : finite (sortKeys (.obj members)) = true ↔
      ∀ member ∈ members, finite (sortKeys member.2) = true := by
  obtain ⟨sorted, hsorted, hperm, -⟩ := sortKeys_obj h
  rw [hsorted, finite, every_obj]
  simp only [hperm.mem_iff, List.forall_mem_map, true_and]
  rfl

omit [FloatNumeral F] in
/-- An event is logged when the state has a number and the payload can be written. -/
theorem isSome_appendEvent {files : Files} {stamp : State.Stamp F} {args : State.EventArgs F}
    (hsequence : (State.sequence? (State.read files stamp.now)).isSome = true)
    (hclock : PyFloat.isFinite stamp.logged = true)
    (hpayload : finite (sortKeys (.obj args.payload.entries)) = true) :
    (State.appendEvent files stamp args).isSome = true := by
  obtain ⟨sequence, hsequence⟩ := Option.isSome_iff_exists.mp hsequence
  have hfinite : finite (sortKeys (.obj (State.eventRecord (State.read files stamp.now) sequence
      stamp args))) = true := by
    refine (finite_sortKeys_obj ?_).mpr ?_
    · show List.Nodup [_, _, _, _, _, _, _, _, _, _, _, _, _, _]
      simp
    · simp only [State.eventRecord, List.forall_mem_cons, List.not_mem_nil, false_implies,
        implies_true, and_true]
      exact ⟨rfl, rfl, hpayload, rfl, rfl, rfl, rfl, rfl, rfl, rfl, hclock, rfl, rfl, rfl⟩
  rw [State.appendEvent, hsequence, Option.bind_eq_bind, Option.bind_some, appendJsonl,
    if_pos hfinite]
  rfl

omit [FloatNumeral F] in
theorem ends_logCommand (record : Dict String (Json F)) (world : World F) :
    (logCommand env host record).Ends
      (fun _ world' => Wrote (.commandLogged record) world world' ∧
        world'.files State.statePath = world.files State.statePath ∧
        finite (sortKeys (.obj record.entries)) = true)
      (fun _ world' => Quiet world world') world := by
  refine Guarded.ends_step (fun _ world' h => ?_) fun _ _ => Composable.refl world
  obtain ⟨files, hfiles, h⟩ := Option.map_eq_some_iff.mp (result_eq_ok.mp h)
  obtain ⟨-, rfl⟩ := Prod.mk.inj h
  refine ⟨⟨rfl, _, rfl⟩, State.appendJsonl_of_ne hfiles (by decide), ?_⟩
  rw [appendJsonl] at hfiles
  split at hfiles
  · assumption
  · cases hfiles

omit [FloatNumeral F] in
/-- Logging an event does not raise when the state has a number and the payload can be written. -/
theorem ends_appendEvent (hclock : ∀ n, PyFloat.isFinite (env.clock n) = true)
    {args : State.EventArgs F} (hpayload : finite (sortKeys (.obj args.payload.entries)) = true)
    (hworld : Sequenced world) :
    (appendEvent env args).Ends (fun _ world' => Quiet world world') (fun _ _ => False) world := by
  have hreturns : (appendEvent env args).Ends (fun _ _ => True) (fun _ _ => False) world := by
    have hstamp : (stamp env).Ends (fun stamp world' => world'.files = world.files ∧
        stamp.logged = env.clock world.asked) (fun _ _ => False) world := ⟨rfl, rfl⟩
    refine hstamp.bind ?_ fun _ _ h => h
    rintro stamp world' ⟨hfiles, hlogged⟩
    refine Guarded.ends_step (fun _ _ _ => trivial) fun e h => ?_
    have hsome : (State.appendEvent world'.files stamp args).isSome = true := by
      refine isSome_appendEvent ?_ (hlogged ▸ hclock _) hpayload
      rw [hfiles, State.sequence?, Dict.getD, State.get?_read _ stamp.now 0.0 (by decide)]
      exact hworld
    obtain ⟨files, hfiles'⟩ := Option.isSome_iff_exists.mp hsome
    dsimp only at h
    rw [hfiles'] at h
    cases h
  exact ((Guarded.ends_keeps (appendEvent env args) world).and hreturns).mono (fun _ _ h => h.1)
    fun _ _ h => h.2

omit [PyBuiltins F] [FloatNumeral F] in
theorem nodup_commandRecord (commandId name : String) (payload : Dict String (Json F))
    (component : String) (now : F) :
    ((State.commandRecord commandId name payload component now).map Prod.fst).Nodup := by
  show List.Nodup [_, _, _, _, _, _, _, _, _, _, _, _]
  simp

omit [PyBuiltins F] [FloatNumeral F] in
/-- The id of a new command. -/
theorem getText_created (commandId name : String) (payload : Dict String (Json F))
    (component : String) (now : F) :
    (Dict.ofList (State.commandRecord commandId name payload component now)).getText
      "command_id" "" = commandId := by
  have hid := Dict.get?_ofList_of_mem (nodup_commandRecord commandId name payload component now)
    (show ("command_id", .str commandId) ∈ _ from List.mem_cons_self)
  rw [Dict.getText, Dict.getD, hid]
  rfl

omit [PyBuiltins F] [FloatNumeral F] in
/-- What `create_command` logs about the command. -/
theorem command?_created (commandId name : String) (payload : Dict String (Json F))
    (component : String) (now : F) :
    (Effect.commandLogged (.ofList
      (State.commandRecord commandId name payload component now))).command? =
      some (commandId, "ACCEPTED") := by
  have hstatus := Dict.get?_ofList_of_mem (nodup_commandRecord commandId name payload component now)
    (show ("status", .str "ACCEPTED") ∈ _ by simp [State.commandRecord])
  have htext : (Dict.ofList (State.commandRecord commandId name payload component now)).getText
      "status" "" = "ACCEPTED" := by
    rw [Dict.getText, Dict.getD, hstatus]
    rfl
  rw [Effect.command?, getText_created, htext]

omit [PyBuiltins F] [FloatNumeral F] in
/-- What `acknowledge_command` logs about the command. -/
theorem command?_acknowledged (command : Dict String (Json F)) (status : String)
    (acknowledgement error : Json F) (now : F) :
    (Effect.commandLogged (State.acknowledged command status acknowledgement error now)).command? =
      some (command.getText "command_id" "", status) := by
  have hid : (State.acknowledged command status acknowledgement error now).get? "command_id" =
      command.get? "command_id" := Dict.get?_update _ _ _
  have hstatus : (State.acknowledged command status acknowledgement error now).get? "status" =
      some (.str status) := Dict.get?_update _ _ _
  simp only [Effect.command?, Dict.getText, Dict.getD, hid, hstatus, Option.getD_some]
  rfl

omit [FloatNumeral F] in
/-- Acknowledging a command logs it, or raises before anything is written. -/
theorem ends_acknowledgeCommand (hclock : ∀ n, PyFloat.isFinite (env.clock n) = true)
    (command : Dict String (Json F)) (status : String) (acknowledgement error : Json F)
    (hworld : Sequenced world) :
    (acknowledgeCommand env host command status acknowledgement error).Ends
      (fun _ world' => ∃ now, Wrote (.commandLogged
        (State.acknowledged command status acknowledgement error now)) world world' ∧
          Sequenced world')
      (fun _ world' => Quiet world world') world := by
  unfold acknowledgeCommand
  refine silent_bind (fun _ _ h => h) fun now world₁ hquiet => ?_
  refine (ends_logCommand _ world₁).bind ?_ fun _ _ h => Composable.trans hquiet h
  rintro - world₂ ⟨hwrote, hstate, hfinite⟩
  have hsequenced : Sequenced world₂ := by
    rw [Sequenced, State.read_eq_of_eq hstate]
    exact hquiet.sequenced hworld
  have hevent : (appendEvent env (State.acknowledgeArgs command status acknowledgement error
      now)).Ends (fun _ world' => Quiet world₂ world') (fun _ _ => False) world₂ :=
    ends_appendEvent hclock hfinite hsequenced
  refine (hevent.weaken fun _ _ h => h.reached host).mono
    (fun _ world₃ hquiet' => ⟨now, ?_, ?_⟩) fun _ _ h => h.elim
  · obtain ⟨acks, hacks⟩ := hquiet.revisions
    obtain ⟨acks', hacks'⟩ := hwrote.revisions
    obtain ⟨acks'', hacks''⟩ := hquiet'.revisions
    refine ⟨?_, acks'', ?_⟩
    · rw [hquiet'.history, hwrote.history, hquiet.history]
    · rw [hacks'', hacks', hacks]
  · exact hquiet'.sequenced hsequenced

/-! ## The middle of a program -/

/-- Since `start` these phases were written, these statuses of one command were logged, and `P`
holds of the revisions whatever acknowledgement files are there. -/
structure Written (start : World F) (commandId : String) (log done : List String)
    (P : Revisions.Store F → Prop) (world : World F) : Prop where
  phases : phases world.history = phases start.history ++ done.map .str
  commands : commands world.history = commands start.history ++ log.map (commandId, ·)
  revisions : ∃ revisions acks, P revisions ∧ world.revisions = { revisions with acks }

/-- The same in the middle of a program, where the state has a number. -/
structure At (start : World F) (commandId : String) (log done : List String)
    (P : Revisions.Store F → Prop) (world : World F) : Prop
    extends Written start commandId log done P world where
  sequenced : Sequenced world

/-- Of the phases that were to follow, some were written. -/
def Within (start : World F) (commandId : String) (log done more : List String)
    (P : Revisions.Store F → Prop) (world : World F) : Prop :=
  ∃ part, part <+: more ∧ At start commandId log (done ++ part) P world

section At

variable {start world' : World F} {commandId : String} {log done more : List String}
  {P P' : Revisions.Store F → Prop}

omit [PyBuiltins F] [FloatNumeral F] in
theorem Written.quiet (h : Written start commandId log done P world) (hquiet : Quiet world world') :
    Written start commandId log done P world' := by
  obtain ⟨revisions, acks, hP, hrevisions⟩ := h.revisions
  obtain ⟨acks', hacks⟩ := hquiet.revisions
  refine ⟨hquiet.history ▸ h.phases, hquiet.history ▸ h.commands, revisions, acks', hP, ?_⟩
  rw [hacks, hrevisions]

omit [PyBuiltins F] [FloatNumeral F] in
theorem Written.patched (h : Written start commandId log done P world)
    {patch : Dict String (Json F)} (hwrote : Wrote (.patched patch) world world')
    {phase : Option String} (hphase : patch.get? "phase" = phase.map .str) :
    Written start commandId log (done ++ phase.toList) P world' := by
  obtain ⟨revisions, acks, hP, hrevisions⟩ := h.revisions
  obtain ⟨acks', hacks⟩ := hwrote.revisions
  refine ⟨?_, ?_, revisions, acks', hP, by rw [hacks, hrevisions]⟩
  · have hpatch : (Effect.patched patch).phase? = phase.map .str := hphase
    rw [hwrote.history, phases_concat, h.phases, hpatch, List.append_assoc, List.map_append]
    cases phase <;> rfl
  · rw [hwrote.history, commands_concat, h.commands]
    exact List.append_nil _

omit [PyBuiltins F] [FloatNumeral F] in
theorem Written.logged (h : Written start commandId log done P world)
    {record : Dict String (Json F)} (hwrote : Wrote (.commandLogged record) world world')
    {status : String}
    (hstatus : (Effect.commandLogged record).command? = some (commandId, status)) :
    Written start commandId (log ++ [status]) done P world' := by
  obtain ⟨revisions, acks, hP, hrevisions⟩ := h.revisions
  obtain ⟨acks', hacks⟩ := hwrote.revisions
  refine ⟨?_, ?_, revisions, acks', hP, by rw [hacks, hrevisions]⟩
  · rw [hwrote.history, phases_concat, h.phases]
    exact List.append_nil _
  · rw [hwrote.history, commands_concat, h.commands, hstatus, List.append_assoc, List.map_append]
    rfl

omit [FloatNumeral F]

theorem At.quiet (h : At start commandId log done P world) (hquiet : Quiet world world') :
    At start commandId log done P world' :=
  ⟨h.toWritten.quiet hquiet, hquiet.sequenced h.sequenced⟩

theorem At.within (h : At start commandId log done P world) :
    Within start commandId log done more P world :=
  ⟨[], List.nil_prefix, by rwa [List.append_nil]⟩

theorem At.mono (h : At start commandId log done P world)
    (hP : ∀ revisions, P revisions → P' revisions) : At start commandId log done P' world := by
  obtain ⟨revisions, acks, hrevisions, heq⟩ := h.revisions
  exact ⟨⟨h.phases, h.commands, revisions, acks, hP _ hrevisions, heq⟩, h.sequenced⟩

theorem Within.mono (h : Within start commandId log done more P world)
    (hP : ∀ revisions, P revisions → P' revisions) :
    Within start commandId log done more P' world := by
  obtain ⟨part, hpart, hat⟩ := h
  exact ⟨part, hpart, hat.mono hP⟩

/-- What is interrupted while later phases are written, is interrupted on the whole. -/
theorem Within.append {before : List String}
    (h : Within start commandId log (done ++ before) more P world) :
    Within start commandId log done (before ++ more) P world := by
  obtain ⟨part, hpart, hat⟩ := h
  exact ⟨before ++ part, List.prefix_append_right_inj before |>.mpr hpart,
    by rwa [← List.append_assoc]⟩

theorem Within.left {after : List String} (h : Within start commandId log done more P world) :
    Within start commandId log done (more ++ after) P world := by
  obtain ⟨part, hpart, hat⟩ := h
  exact ⟨part, hpart.trans (List.prefix_append _ _), hat⟩

end At

/-- The program writes these phases one after the other and leaves the commands and the revisions.
It may be interrupted after any of them. -/
def Advances (start : World F) (commandId : String) {α : Type} (prog : Prog host α)
    (more : List String) : Prop :=
  ∀ log done P world, At start commandId log done P world →
    prog.Ends (fun _ => At start commandId log (done ++ more) P)
      (fun _ => Within start commandId log done more P) world

section Advances

variable {start : World F} {commandId : String} {α β : Type} {more : List String}

omit [FloatNumeral F]

theorem Advances.pure (a : α) : Advances start commandId (pure a : Prog host α) [] :=
  fun _ _ _ _ h => Guarded.ends_pure (by rwa [List.append_nil])

theorem Advances.lift (prog : Silent F α) :
    Advances start commandId (liftM prog : Prog host α) [] := by
  intro log done P world hat
  refine ((Guarded.ends_keeps prog world).weaken fun _ _ h => h.reached host).mono
    (fun _ _ hquiet => ?_) fun _ _ hquiet => (hat.quiet hquiet).within
  rw [List.append_nil]
  exact hat.quiet hquiet

theorem Advances.silent {prog : Silent F α} {f : α → Prog host β}
    (h : ∀ a, Advances start commandId (f a) more) :
    Advances start commandId ((liftM prog : Prog host α) >>= f) more :=
  fun _ _ _ _ hat => silent_bind (fun _ _ hquiet => (hat.quiet hquiet).within) fun a _ hquiet =>
    h a _ _ _ _ (hat.quiet hquiet)

theorem Advances.bind {prog : Prog host α} {f : α → Prog host β} {before : List String}
    (h : Advances start commandId prog before) (hf : ∀ a, Advances start commandId (f a) more) :
    Advances start commandId (prog >>= f) (before ++ more) := by
  intro log done P world hat
  refine (h log done P world hat).bind (fun a world' hat' => ?_) fun _ _ hwithin => hwithin.left
  refine (hf a _ _ _ _ hat').mono (fun _ _ h => ?_) fun _ _ hwithin => hwithin.append
  rwa [← List.append_assoc]

end Advances

theorem advances_update {start : World F} {commandId : String} {patch : Dict String (Json F)}
    {phase : Option String} (hphase : patch.get? "phase" = phase.map .str)
    (eventType component : String) :
    Advances start commandId (update env host patch eventType component) phase.toList := by
  intro log done P world hat
  refine (ends_update patch eventType component world).mono ?_ fun _ _ hquiet =>
    (hat.quiet hquiet).within
  rintro - world' ⟨hwrote, hsequenced⟩
  exact ⟨hat.toWritten.patched hwrote hphase, hsequenced⟩

omit [PyText F] [PyBuiltins F] [FloatNumeral F] in
theorem get?_phasePatch (phase : String) (error : Option (Dict String (Json F))) :
    (State.phasePatch phase error).get? "phase" = some (.str phase) := by
  cases error <;> rfl

theorem advances_writePhase {start : World F} {commandId : String} (phase : String)
    (error : Option (Dict String (Json F))) :
    Advances start commandId (writePhase env host phase error) [phase] := by
  have hpatch : (State.phasePatch phase error).get? "phase" = (some phase).map Json.str :=
    get?_phasePatch phase error
  exact (advances_update hpatch _ _).bind fun _ => .pure ()

theorem advances_setPhase {start : World F} {commandId : String} (phase : String) :
    Advances start commandId (setPhase env host phase) [phase] :=
  (advances_writePhase phase none).bind fun _ => .lift _

/-- A phase is written, and what follows goes on. -/
theorem Advances.phase {start : World F} {commandId phase : String} {β : Type}
    {f : Unit → Prog host β} {more : List String}
    (h : ∀ a, Advances start commandId (f a) more) :
    Advances start commandId (setPhase env host phase >>= f) (phase :: more) :=
  (advances_setPhase phase).bind h

end Netlab.Orchestrator
