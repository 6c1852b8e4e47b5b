import Netlab.ConfigurationHash
import Netlab.Prelude.Comprehension
import Netlab.State.Files

/-!
# The state store

`StateStore` of `netlab/state.py`, as one process uses it: the runtime state with its sequence number,
the event log, the command log and the signal for Isaac. Every update of the state is logged with the
patch that was applied and the number it led to.

`replay_run` says that the event log is a journal of the state: whatever calls are made, the patches
read back from the log, applied to the state of the beginning, give every entry of the state on disk,
except the time of the last change and the number; and the numbers in the log follow each other without
gap. The lock that a call holds makes it one step. The locks of different processes are different
ones, so nothing is said of stores that share their files.
-/

open JsonText SharedFiles

namespace Netlab.State

variable {F : Type} [PyText F] [PyFloat F]

/-- `netlab_runtime_state.json`. -/
def statePath : String := "netlab_runtime_state.json"

/-- `netlab_events.jsonl`. -/
def eventLog : String := "netlab_events.jsonl"

/-- `netlab_commands.jsonl`. -/
def commandLog : String := "netlab_commands.jsonl"

/-- `snaas_isaac_sync_signal.json`. -/
def isaacSignal : String := "snaas_isaac_sync_signal.json"

/-! ## The calls -/

/-- What one call takes from outside: the clock, when the state is stamped and when the event is,
and the id of the event. -/
structure Stamp (F : Type) where
  now : F
  logged : F
  eventId : String

/-- `default_state`. -/
def defaultState (now : F) : Dict String (Json F) :=
  .ofList
    [("schema_version", .str "1.0.0"), ("sequence", .int 0), ("updated_at", .float now),
      ("phase", .str "STOPPED"), ("experiment_id", .str ""), ("run_id", .str ""),
      ("config_hash", .str ""), ("telemetry_source", .str "OFFLINE"), ("readiness", .obj []),
      ("services", .obj []), ("packet", .obj []), ("topology", .obj []), ("failures", .arr []),
      ("last_error", .null), ("last_command_id", .null), ("desired_revision_id", .str ""),
      ("committed_revision_id", .str ""), ("synchronization_state", .str "NO_REVISION")]

/-- `read`: a file that is missing or holds no object reads as the default. -/
def read (files : Files) (now : F) : Dict String (Json F) :=
  match readJson files statePath (.obj (defaultState now).entries) with
  | .obj members => .ofList members
  | _ => defaultState now

/-- `int(state.get("sequence", 0))`, which raises on what is no number. -/
def sequence? (state : Dict String (Json F)) : Option ℤ :=
  (state.getD "sequence" (.int 0)).toInt?

/-- The arguments of `append_event`. -/
structure EventArgs (F : Type) where
  eventType : String
  payload : Dict String (Json F)
  component : String
  severity : String := "INFO"
  entity : String := ""
  commandId : String := ""
  correlationId : String := ""

/-- The record that `append_event` logs. -/
def eventRecord (state : Dict String (Json F)) (sequence : ℤ) (stamp : Stamp F)
    (args : EventArgs F) : List (String × Json F) :=
  [("event_type", .str args.eventType), ("source_component", .str args.component),
    ("payload", .obj args.payload.entries), ("severity", .str args.severity),
    ("experiment_id", .str (state.getText "experiment_id" "")),
    ("run_id", .str (state.getText "run_id" "")), ("affected_entity", .str args.entity),
    ("correlation_id", .str args.correlationId), ("command_id", .str args.commandId),
    ("model_version", .str ""), ("timestamp_wall", .float stamp.logged), ("timestamp_sim", .null),
    ("sequence", .int sequence), ("event_id", .str stamp.eventId)]

/-- `append_event`. -/
def appendEvent (files : Files) (stamp : Stamp F) (args : EventArgs F) : Option Files := do
  let state := read files stamp.now
  let sequence ← sequence? state
  appendJsonl files eventLog (.obj (eventRecord state sequence stamp args))

/-- The state that `update` writes. -/
def patched (state patch : Dict String (Json F)) (sequence : ℤ) (now : F) :
    Dict String (Json F) :=
  ((state.update patch).set "sequence" (.int (sequence + 1))).set "updated_at" (.float now)

/-- What `update` logs. -/
def updateArgs (patch : Dict String (Json F)) (sequence : ℤ) (eventType component : String) :
    EventArgs F :=
  { eventType, component
    payload := .ofList [("patch", .obj patch.entries), ("state_sequence", .int (sequence + 1))] }

/-- `update`. -/
def update (files : Files) (stamp : Stamp F) (patch : Dict String (Json F))
    (eventType component : String) : Option Files := do
  let state := read files stamp.now
  let sequence ← sequence? (state.update patch)
  let files ← atomicWriteJson files statePath (.obj (patched state patch sequence stamp.now).entries)
  appendEvent files stamp (updateArgs patch sequence eventType component)

/-- A call on the store. -/
inductive Call (F : Type)
  | update (patch : Dict String (Json F)) (eventType component : String)
  | appendEvent (args : EventArgs F)
  | createCommand (commandId name : String) (payload : Dict String (Json F)) (component : String)
  | acknowledgeCommand (command : Dict String (Json F)) (status : String)
      (acknowledgement error : Json F)
  | writeSyncSignal (signal : Dict String (Json F)) (commandId : String)

/-- The patch of `set_phase`. -/
def phasePatch (phase : String) (error : Option (Dict String (Json F))) : Dict String (Json F) :=
  .ofList (("phase", .str phase) ::
    (error.map fun error => ("last_error", Json.obj error.entries)).toList)

/-- `set_phase`. -/
def setPhase (phase : String) (error : Option (Dict String (Json F))) : Call F :=
  .update (phasePatch phase error) "RUNTIME_PHASE_CHANGED" "orchestrator"

/-- The patch of `start_run`. -/
def runPatch (digest : String → String) (experiment : Json F) (runId : String) :
    Dict String (Json F) :=
  let sections := (experiment.dict?).getD .empty
  let experimentMeta := ((sections.getD "experiment" (.obj [])).dict?).getD .empty
  .ofList
    [("experiment_id", .str (experimentMeta.getText "id" "experiment")), ("run_id", .str runId),
      ("config_hash", .str (Experiment.configurationHash digest experiment)),
      ("phase", .str "STARTING_EXPERIMENT"), ("failures", .arr [])]

/-- `start_run`. -/
def startRun (digest : String → String) (experiment : Json F) (runId : String) : Call F :=
  .update (runPatch digest experiment runId) "RUN_CREATED" "experiment_manager"

/-- The record that `create_command` logs. -/
def commandRecord (commandId name : String) (payload : Dict String (Json F)) (component : String)
    (now : F) : List (String × Json F) :=
  [("command_id", .str commandId), ("idempotency_key", .str (payload.getText "idempotency_key" "")),
    ("name", .str name), ("payload", .obj payload.entries), ("component", .str component),
    ("status", .str "ACCEPTED"), ("created_at", .float now), ("updated_at", .float now),
    ("acknowledgement", .null), ("participant_acknowledgements", .obj []),
    ("resulting_revision_id", .str ""), ("error", .null)]

/-- The record that `acknowledge_command` logs. -/
def acknowledged (command : Dict String (Json F)) (status : String)
    (acknowledgement error : Json F) (now : F) : Dict String (Json F) :=
  command.update (.ofList [("status", .str status), ("updated_at", .float now),
    ("acknowledgement", acknowledgement), ("error", error)])

/-- What `acknowledge_command` logs as an event. -/
def acknowledgeArgs (command : Dict String (Json F)) (status : String)
    (acknowledgement error : Json F) (now : F) : EventArgs F :=
  let done := status = "ACKNOWLEDGED" ∨ status = "COMPLETED"
  { eventType := if done then "COMMAND_ACKNOWLEDGED" else "COMMAND_FAILED"
    payload := acknowledged command status acknowledgement error now
    component := command.getText "component" "mission_control"
    severity := if done then "INFO" else "ERROR"
    commandId := command.getText "command_id" "" }

/-- What `write_sync_signal` logs. -/
def signalArgs (signal : Dict String (Json F)) (commandId : String) : EventArgs F :=
  { eventType := "ISAAC_SYNC_REQUESTED", payload := signal, component := "mission_control"
    commandId }

/-- The files after `create_command`, which may raise once the command is logged. -/
def createCommand (files : Files) (stamp : Stamp F) (commandId name : String)
    (payload : Dict String (Json F)) (component : String) : Files :=
  match appendJsonl files commandLog
    (.obj (commandRecord commandId name payload component stamp.now)) with
  | none => files
  | some files =>
      (update files stamp (.ofList [("last_command_id", .str commandId)]) "COMMAND_ACCEPTED"
        component).getD files

/-- The files after `acknowledge_command`. -/
def acknowledgeCommand (files : Files) (stamp : Stamp F) (command : Dict String (Json F))
    (status : String) (acknowledgement error : Json F) : Files :=
  match appendJsonl files commandLog
    (.obj (acknowledged command status acknowledgement error stamp.now).entries) with
  | none => files
  | some files =>
      (appendEvent files stamp
        (acknowledgeArgs command status acknowledgement error stamp.now)).getD files

/-- The files after `write_sync_signal`. -/
def writeSyncSignal (files : Files) (stamp : Stamp F) (signal : Dict String (Json F))
    (commandId : String) : Files :=
  match atomicWriteJson files isaacSignal (.obj signal.entries) with
  | none => files
  | some files => (appendEvent files stamp (signalArgs signal commandId)).getD files

/-- The files after a call. A call that raises leaves what it wrote before. -/
def perform (files : Files) (call : Call F × Stamp F) : Files :=
  match call.1 with
  | .update patch eventType component => (update files call.2 patch eventType component).getD files
  | .appendEvent args => (appendEvent files call.2 args).getD files
  | .createCommand commandId name payload component =>
      createCommand files call.2 commandId name payload component
  | .acknowledgeCommand command status acknowledgement error =>
      acknowledgeCommand files call.2 command status acknowledgement error
  | .writeSyncSignal signal commandId => writeSyncSignal files call.2 signal commandId

/-! ## The journal -/

/-- The patch that an event of the log records, with the number of the state it led to. -/
def patch? (event : List (String × Json F)) : Option (Dict String (Json F) × Json F) :=
  match (Dict.ofList event).get? "payload" with
  | some (.obj payload) =>
      match (Dict.ofList payload).get? "patch", (Dict.ofList payload).get? "state_sequence" with
      | some (.obj patch), some sequence => some (.ofList patch, sequence)
      | _, _ => none
  | _ => none

/-- The state after the patches of some events. -/
def replay (state : Dict String (Json F)) (events : List (List (String × Json F))) :
    Dict String (Json F) :=
  (events.filterMap patch?).foldl (fun state patch => state.update patch.1) state

/-! ## What the calls do to the log and to the state -/

/-- The event log holds some whole records and nothing else. -/
structure Logged (files : Files) (history : List (Record F)) : Prop where
  text : (files eventLog).getD [] = (history.map Record.line).flatMap LogEntry.text
  valid : ∀ r ∈ history, r.Valid
  complete : ∀ r ∈ history, r.line.Complete

/-- A record that is logged as a whole. -/
def whole (members : List (String × Json F)) : Record F :=
  ⟨members, (jsonLine (.obj members)).length⟩

theorem complete_whole (members : List (String × Json F)) : (whole members).line.Complete := by
  have hlength : (jsonLine (Record.payload (whole members))).length =
      (lineText (whole members).sorted).length + 1 := by
    rw [jsonLine, Record.sortKeys_payload, List.length_append]
    rfl
  show (lineText (whole members).sorted).length < (jsonLine (.obj members)).length
  exact Nat.lt_of_lt_of_eq (Nat.lt_succ_self _) hlength.symm

theorem Logged.append {files : Files} {history : List (Record F)} (h : Logged files history)
    {members : List (String × Json F)} (hvalid : (whole members).Valid) :
    Logged (appendText files eventLog (jsonLine (.obj members))) (history ++ [whole members]) where
  text := by
    rw [appendText, Function.update_self, Option.getD_some, h.text, List.map_append,
      List.flatMap_append, List.map_singleton, List.flatMap_singleton, text_line]
    exact congrArg _ (List.take_of_length_le (le_refl _)).symm
  valid := List.forall_mem_append.mpr ⟨h.valid, by simpa using hvalid⟩
  complete := List.forall_mem_append.mpr ⟨h.complete, by simpa using complete_whole members⟩

/-- What a call that logs an event does: the event is logged, and no other file is touched. -/
theorem appendEvent_spec {files files' : Files} {stamp : Stamp F} {args : EventArgs F}
    (h : appendEvent files stamp args = some files') :
    ∃ sequence, let members := eventRecord (read files stamp.now) sequence stamp args
      (whole members).Valid ∧ files' = appendText files eventLog (jsonLine (.obj members)) := by
  obtain ⟨sequence, -, h⟩ := Option.bind_eq_some_iff.mp h
  refine ⟨sequence, ?_⟩
  rw [appendJsonl] at h
  split at h
  next hfinite =>
    refine ⟨⟨?_, hfinite, ?_⟩, (Option.some.inj h).symm⟩
    · show List.Nodup [_, _, _, _, _, _, _, _, _, _, _, _, _, _]
      simp
    · simp [whole, eventRecord]
  next => cases h

omit [PyFloat F] in
theorem read_eq_of_eq {files files' : Files} (h : files' statePath = files statePath) (now : F) :
    read files' now = read files now := by
  rw [read, read, readJson, readJson, h]

omit [PyText F] [PyFloat F] in
theorem appendText_of_ne {files : Files} {path other : String} (h : other ≠ path)
    (text : List Char) : appendText files path text other = files other :=
  Function.update_of_ne h _ _

omit [PyFloat F] in
/-- The state does not depend on the clock, except for its stamp. -/
theorem get?_read (files : Files) (now now' : F) {key : String} (h : key ≠ "updated_at") :
    (read files now).get? key = (read files now').get? key := by
  have hdefault : (defaultState now).get? key = (defaultState now').get? key := by
    refine Option.ext fun value => ?_
    rw [defaultState, defaultState, get?_ofDict_eq_some_iff (by simp),
      get?_ofDict_eq_some_iff (by simp)]
    simp [h]
  -- the clock is only in the default, which is read when the file holds no mapping
  have hread (now : F) : read files now =
      (((files statePath).bind load).bind Json.dict?).getD (defaultState now) := by
    rw [read, readJson]
    cases files statePath with
    | none =>
        dsimp only [Option.bind_none, Option.getD_none]
        exact Dict.ofList_entries _
    | some text =>
        dsimp only [Option.bind_some]
        cases (load text : Option (Json F)) with
        | none =>
            dsimp only [Option.bind_none, Option.getD_none]
            exact Dict.ofList_entries _
        | some value =>
            cases value <;> simp only [Option.getD_some, Option.bind_some, Json.dict?, Option.getD_none]
  have hsame (state : Option (Dict String (Json F))) :
      (state.getD (defaultState now)).get? key = (state.getD (defaultState now')).get? key := by
    cases state with
    | none => rw [Option.getD_none, Option.getD_none, hdefault]
    | some state => rw [Option.getD_some, Option.getD_some]
  rw [hread now, hread now']
  exact hsame _

variable [FloatNumeral F]

/-- The state that is read after one was written. -/
theorem get?_read_write {files files' : Files} {state : Dict String (Json F)}
    (h : atomicWriteJson files statePath (.obj state.entries) = some files') (now : F)
    (key : String) : (read files' now).get? key = (state.get? key).map sortKeys := by
  have hread := readJson_atomicWriteJson h (.obj (defaultState now).entries)
  obtain ⟨sorted, hsorted, -⟩ := sortKeys_obj (F := F) state.nodup
  rw [hsorted] at hread
  have hget := get?_sortKeys state.nodup hsorted key
  rw [Dict.ofList_entries] at hget
  rw [read, hread, ← hget]

/-- What `update` does: the state on disk is the one that was read with the patch applied, and an
event with the patch and the new number is logged. -/
theorem update_spec {files files' : Files} {stamp : Stamp F} {patch : Dict String (Json F)}
    {eventType component : String} (h : update files stamp patch eventType component = some files') :
    ∃ sequence logged, sequence? ((read files stamp.now).update patch) = some sequence ∧
      (∀ now key, (read files' now).get? key =
        ((patched (read files stamp.now) patch sequence stamp.now).get? key).map sortKeys) ∧
      ((whole (eventRecord (read files' stamp.now) logged stamp
        (updateArgs patch sequence eventType component))).Valid) ∧
      files' eventLog = appendText files eventLog (jsonLine (.obj
        (eventRecord (read files' stamp.now) logged stamp
          (updateArgs patch sequence eventType component)))) eventLog := by
  obtain ⟨sequence, hsequence, h⟩ := Option.bind_eq_some_iff.mp h
  obtain ⟨files₁, hwrite, happend⟩ := Option.bind_eq_some_iff.mp h
  obtain ⟨logged, hvalid, rfl⟩ := appendEvent_spec happend
  have hstate : appendText files₁ eventLog (jsonLine (.obj (eventRecord (read files₁ stamp.now)
      logged stamp (updateArgs patch sequence eventType component)))) statePath =
        files₁ statePath := appendText_of_ne (by decide) _
  have hread := fun now : F => read_eq_of_eq hstate now
  refine ⟨sequence, logged, hsequence, fun now key => ?_, ?_, ?_⟩
  · rw [hread]
    exact get?_read_write hwrite now key
  · rw [hread]
    exact hvalid
  · rw [hread, appendText, appendText, Function.update_self, Function.update_self,
      atomicWriteJson_of_ne hwrite (by decide : eventLog ≠ statePath)]

/-! ## The journal is kept -/

omit [PyText F] [PyFloat F] [FloatNumeral F] in
/-- What `get` finds in the payload of an event that was read back from the log. -/
theorem patch?_sorted {r : Record F} (hnodup : (r.members.map Prod.fst).Nodup)
    {payload : Dict String (Json F)}
    (hpayload : (Dict.ofList r.members).get? "payload" = some (.obj payload.entries)) :
    (payload.get? "state_sequence" = none → patch? r.sorted = none) ∧
      ∀ patch : Dict String (Json F), ∀ n : ℤ, payload.get? "patch" = some (.obj patch.entries) →
        payload.get? "state_sequence" = some (.int n) →
        ∃ read : Dict String (Json F), patch? r.sorted = some (read, .int n) ∧
          ∀ key, read.get? key = (patch.get? key).map sortKeys := by
  have hget := get?_sortKeys hnodup r.sortKeys_payload "payload"
  obtain ⟨sorted, hsorted, -⟩ := sortKeys_obj (F := F) payload.nodup
  have hinner (key : String) : (Dict.ofList sorted).get? key = (payload.get? key).map sortKeys := by
    rw [get?_sortKeys payload.nodup hsorted key, Dict.ofList_entries]
  rw [hpayload, Option.map_some, hsorted] at hget
  constructor
  · intro hnone
    have hread : (Dict.ofList sorted).get? "state_sequence" = none := by rw [hinner, hnone]; rfl
    simp only [patch?, hget, hread]
    cases (Dict.ofList sorted).get? "patch" with
    | none => rfl
    | some value => cases value <;> rfl
  · -- the patch is found under the same key, with its own keys sorted
    intro patch n hpatch hsequence
    obtain ⟨patch', hpatch', -⟩ := sortKeys_obj (F := F) patch.nodup
    have hread : (Dict.ofList sorted).get? "patch" = some (.obj patch') := by
      rw [hinner, hpatch, Option.map_some, hpatch']
    have hnumber : (Dict.ofList sorted).get? "state_sequence" = some (.int n) := by
      rw [hinner, hsequence]
      rfl
    refine ⟨.ofList patch', by simp only [patch?, hget, hread, hnumber], fun key => ?_⟩
    rw [get?_sortKeys patch.nodup hpatch' key, Dict.ofList_entries]

/-- The patches in the log. -/
def patches (history : List (Record F)) : List (Dict String (Json F) × Json F) :=
  (history.map Record.sorted).filterMap patch?

/-- The log is a journal of the state on disk, which was `base` with the number `first` when the log
was begun. -/
structure Journal (base : Dict String (Json F)) (first : ℤ) (files : Files)
    (history : List (Record F)) : Prop extends Logged files history where
  entries : ∀ (now : F) (key : String), key ≠ "sequence" → key ≠ "updated_at" →
    ((read files now).get? key).map sortKeys =
      ((replay base (history.map Record.sorted)).get? key).map sortKeys
  numbers : (patches history).map Prod.snd =
    (List.range (patches history).length).map fun i : ℕ => .int (first + 1 + i)
  sequence : ∀ now : F, sequence? (read files now) = some (first + (patches history).length)

variable {base : Dict String (Json F)} {first : ℤ} {files files' : Files}
  {history : List (Record F)} {stamp : Stamp F}

omit [FloatNumeral F] in
/-- Other files are of no account. -/
theorem Journal.of_eq (h : Journal base first files history)
    (hlog : files' eventLog = files eventLog) (hstate : files' statePath = files statePath) :
    Journal base first files' history :=
  { h with
    text := by rw [hlog, h.text]
    entries := fun now key => by rw [read_eq_of_eq hstate]; exact h.entries now key
    sequence := fun now => by rw [read_eq_of_eq hstate]; exact h.sequence now }

omit [PyText F] [PyFloat F] [FloatNumeral F] in
theorem patches_concat (history : List (Record F)) (r : Record F) :
    patches (history ++ [r]) = patches history ++ (patch? r.sorted).toList := by
  rw [patches, List.map_append, List.filterMap_append, List.map_singleton]
  cases h : patch? r.sorted <;> simp [patches, h]

omit [PyFloat F] [FloatNumeral F] in
/-- The payload of a logged event. -/
theorem get?_payload (state : Dict String (Json F)) (sequence : ℤ) (stamp : Stamp F)
    (args : EventArgs F) : (Dict.ofList (eventRecord state sequence stamp args)).get? "payload" =
      some (.obj args.payload.entries) :=
  (get?_ofDict_eq_some_iff (by simp [eventRecord])).mpr (by simp [eventRecord])

omit [FloatNumeral F] in
/-- Events that record no patch are of no account. -/
theorem Journal.appendEvent (h : Journal base first files history) {args : EventArgs F}
    (hargs : args.payload.get? "state_sequence" = none)
    (hcall : appendEvent files stamp args = some files') :
    ∃ r, Journal base first files' (history ++ [r]) := by
  obtain ⟨sequence, hvalid, rfl⟩ := appendEvent_spec hcall
  have hnone : patch? (whole (eventRecord (read files stamp.now) sequence stamp args)).sorted =
      none := (patch?_sorted hvalid.nodup (get?_payload _ _ _ _)).1 hargs
  have hpatches := patches_concat history
    (whole (eventRecord (read files stamp.now) sequence stamp args))
  rw [hnone, Option.toList_none, List.append_nil] at hpatches
  have hstate : appendText files eventLog (jsonLine (.obj (eventRecord (read files stamp.now)
      sequence stamp args))) statePath = files statePath := appendText_of_ne (by decide) _
  have hread (now : F) := read_eq_of_eq hstate now
  refine ⟨whole (eventRecord (read files stamp.now) sequence stamp args),
    { h.toLogged.append hvalid with
      entries := fun now key hsequence hupdated => ?_, numbers := ?_, sequence := fun now => ?_ }⟩
  · rw [hread, h.entries now key hsequence hupdated]
    show ((List.foldl _ base (patches history)).get? key).map _ =
      ((List.foldl _ base (patches (history ++ _))).get? key).map _
    rw [hpatches]
  · rw [hpatches]
    exact h.numbers
  · rw [hpatches, hread]
    exact h.sequence now

/-- An update is recorded by its patch and the new number. -/
theorem Journal.update (h : Journal base first files history) {patch : Dict String (Json F)}
    (hpatch : patch.get? "sequence" = none) {eventType component : String}
    (hcall : update files stamp patch eventType component = some files') :
    ∃ r, Journal base first files' (history ++ [r]) := by
  obtain ⟨sequence, logged, hsequence, hread, hvalid, hlog⟩ := update_spec hcall
  set members := eventRecord (read files' stamp.now) logged stamp
    (updateArgs patch sequence eventType component) with hmembers
  -- the number is the one that the state had
  have hget : ((read files stamp.now).update patch).get? "sequence" =
      (read files stamp.now).get? "sequence" := by
    rw [Dict.get?_update, hpatch]
    rfl
  have hnumber : sequence = first + (patches history).length := by
    have hbefore := h.sequence stamp.now
    rw [sequence?, Dict.getD] at hsequence hbefore
    rw [hget, hbefore] at hsequence
    exact (Option.some.inj hsequence).symm
  have hkeys : (([("patch", .obj patch.entries), ("state_sequence", .int (sequence + 1))] :
      List (String × Json F)).map Prod.fst).Nodup := by simp
  obtain ⟨read', hpatch', hread'⟩ := (patch?_sorted hvalid.nodup (get?_payload _ _ _ _)).2 patch
    (sequence + 1) ((get?_ofDict_eq_some_iff hkeys).mpr (by simp))
    ((get?_ofDict_eq_some_iff hkeys).mpr (by simp))
  have hpatches := patches_concat history (whole members)
  rw [hpatch', Option.toList_some] at hpatches
  have hlogged := h.toLogged.append hvalid
  refine ⟨whole members,
    { hlogged with
      text := by rw [hlog]; exact hlogged.text
      entries := fun now key hkey hkey' => ?_, numbers := ?_, sequence := fun now => ?_ }⟩
  · have hreplay : replay base ((history ++ [whole members]).map Record.sorted) =
        (replay base (history.map Record.sorted)).update read' := by
      show List.foldl _ base (patches (history ++ _)) = _
      rw [hpatches, List.foldl_append]
      rfl
    have hbefore := h.entries stamp.now key hkey hkey'
    rw [hreplay, hread, patched, Dict.get?_set_of_ne _ _ hkey', Dict.get?_set_of_ne _ _ hkey,
      Dict.get?_update, Dict.get?_update, hread']
    cases patch.get? key with
    | none => simpa [Option.map_map, Function.comp_def, sortKeys_sortKeys] using hbefore
    | some value => simp [sortKeys_sortKeys]
  · rw [hpatches, List.map_append, h.numbers, List.length_append, List.length_singleton,
      List.range_succ, List.map_append, hnumber, List.map_singleton, List.map_singleton,
      add_right_comm]
  · have hget' : (read files' now).get? "sequence" = some (.int (sequence + 1)) := by
      rw [hread, patched, Dict.get?_set_of_ne _ _ (by decide), Dict.get?_set_self, Option.map_some,
        sortKeys_scalar (by simp) (by simp)]
    rw [hpatches, List.length_append, List.length_singleton, sequence?, Dict.getD, hget', hnumber]
    simp only [Option.getD_some, Json.toInt?, Nat.cast_add, Nat.cast_one, add_assoc]

/-! ## Runs -/

/-- The call does not set the number by hand, and its events are no updates. -/
def Call.Plain : Call F → Prop
  | .update patch _ _ => patch.get? "sequence" = none
  | .appendEvent args => args.payload.get? "state_sequence" = none
  | .createCommand _ _ _ _ => True
  | .acknowledgeCommand command _ _ _ => command.get? "state_sequence" = none
  | .writeSyncSignal signal _ => signal.get? "state_sequence" = none

omit [PyText F] [PyFloat F] [FloatNumeral F] in
/-- The acknowledgement of a command is no update. -/
theorem get?_acknowledged {command : Dict String (Json F)}
    (h : command.get? "state_sequence" = none) (status : String) (acknowledgement error : Json F)
    (now : F) : (acknowledged command status acknowledgement error now).get? "state_sequence" =
      none := by
  rw [acknowledged, Dict.get?_update, h, Option.or_none, Option.eq_none_iff_forall_not_mem]
  intro value hvalue
  have hmem := Dict.mem_of_get?_ofList hvalue
  simp at hmem

omit [PyText F] [FloatNumeral F] in
/-- A line in another log. -/
theorem appendJsonl_of_ne [PyText F] {path other : String} {payload : Json F}
    (h : appendJsonl files path payload = some files') (hne : other ≠ path) :
    files' other = files other := by
  rw [appendJsonl] at h
  split at h
  · obtain rfl := Option.some.inj h
    exact appendText_of_ne hne _
  · cases h

/-- The files are those of a journal that is longer by one event at most. -/
def Journaled (base : Dict String (Json F)) (first : ℤ) (history : List (Record F))
    (files : Files) : Prop :=
  ∃ history', Journal base first files history' ∧ history'.length ≤ history.length + 1

omit [FloatNumeral F] in
theorem Journal.journaled (h : Journal base first files history) :
    Journaled base first history files := ⟨history, h, Nat.le_succ _⟩

theorem Journal.update' (h : Journal base first files history) (stamp : Stamp F) {patch : Dict String (Json F)}
    (hpatch : patch.get? "sequence" = none) (eventType component : String) :
    Journaled base first history ((State.update files stamp patch eventType component).getD files) := by
  cases hcall : State.update files stamp patch eventType component with
  | none => exact h.journaled
  | some files' =>
      obtain ⟨r, hr⟩ := h.update hpatch hcall
      exact ⟨_, hr, by simp⟩

omit [FloatNumeral F] in
theorem Journal.appendEvent' (h : Journal base first files history) (stamp : Stamp F) {args : EventArgs F}
    (hargs : args.payload.get? "state_sequence" = none) :
    Journaled base first history ((State.appendEvent files stamp args).getD files) := by
  cases hcall : State.appendEvent files stamp args with
  | none => exact h.journaled
  | some files' =>
      obtain ⟨r, hr⟩ := h.appendEvent hargs hcall
      exact ⟨_, hr, by simp⟩

theorem Journal.createCommand (h : Journal base first files history) (stamp : Stamp F)
    (commandId name : String)
    (payload : Dict String (Json F)) (component : String) :
    Journaled base first history
      (State.createCommand files stamp commandId name payload component) := by
  have hpatch : (Dict.ofList [("last_command_id", (.str commandId : Json F))]).get? "sequence" =
      none := by
    rw [Option.eq_none_iff_forall_not_mem]
    intro value hvalue
    have hmem := Dict.mem_of_get?_ofList hvalue
    simp at hmem
  unfold State.createCommand
  split
  next => exact h.journaled
  next hline =>
    exact (h.of_eq (appendJsonl_of_ne hline (by decide))
      (appendJsonl_of_ne hline (by decide))).update' stamp hpatch "COMMAND_ACCEPTED" component

omit [FloatNumeral F] in
theorem Journal.acknowledgeCommand (h : Journal base first files history) (stamp : Stamp F)
    {command : Dict String (Json F)} (hcommand : command.get? "state_sequence" = none)
    (status : String) (acknowledgement error : Json F) :
    Journaled base first history
      (State.acknowledgeCommand files stamp command status acknowledgement error) := by
  have hargs : (acknowledgeArgs command status acknowledgement error stamp.now).payload.get?
      "state_sequence" = none := get?_acknowledged hcommand status acknowledgement error stamp.now
  unfold State.acknowledgeCommand
  split
  next => exact h.journaled
  next hline =>
    exact (h.of_eq (appendJsonl_of_ne hline (by decide))
      (appendJsonl_of_ne hline (by decide))).appendEvent' stamp hargs

omit [FloatNumeral F] in
theorem Journal.writeSyncSignal (h : Journal base first files history) (stamp : Stamp F)
    {signal : Dict String (Json F)} (hsignal : signal.get? "state_sequence" = none)
    (commandId : String) :
    Journaled base first history (State.writeSyncSignal files stamp signal commandId) := by
  unfold State.writeSyncSignal
  split
  next => exact h.journaled
  next hwrite =>
    exact (h.of_eq (atomicWriteJson_of_ne hwrite (by decide))
      (atomicWriteJson_of_ne hwrite (by decide))).appendEvent' stamp hsignal

/-- A call keeps the journal, and logs one event at most. -/
theorem Journal.perform (h : Journal base first files history) {call : Call F × Stamp F}
    (hplain : call.1.Plain) : Journaled base first history (perform files call) := by
  obtain ⟨call, stamp⟩ := call
  cases call with
  | update patch eventType component =>
      exact h.update' stamp hplain eventType component
  | appendEvent args => exact h.appendEvent' stamp hplain
  | createCommand commandId name payload component =>
      exact h.createCommand stamp commandId name payload component
  | acknowledgeCommand command status acknowledgement error =>
      exact h.acknowledgeCommand stamp hplain status acknowledgement error
  | writeSyncSignal signal commandId =>
      exact h.writeSyncSignal stamp hplain commandId

theorem Journal.run (h : Journal base first files history) {calls : List (Call F × Stamp F)}
    (hplain : ∀ call ∈ calls, call.1.Plain) :
    ∃ history', Journal base first (Run.run State.perform files calls) history' ∧
      history'.length ≤ history.length + calls.length := by
  induction calls generalizing files history with
  | nil => exact ⟨history, h, le_refl _⟩
  | cons call calls ih =>
      obtain ⟨history₁, h₁, hlength₁⟩ := h.perform (hplain call List.mem_cons_self)
      obtain ⟨history₂, h₂, hlength₂⟩ := ih h₁ fun c hc => hplain c (List.mem_cons_of_mem _ hc)
      refine ⟨history₂, h₂, ?_⟩
      rw [List.length_cons]
      omega

omit [FloatNumeral F] in
/-- A log without events is a journal of the state as it is. -/
theorem Journal.start (hlog : (files eventLog).getD [] = []) {now : F}
    (hfirst : sequence? (read files now) = some first) :
    Journal (read files now) first files [] where
  text := hlog
  valid := List.forall_mem_nil _
  complete := List.forall_mem_nil _
  entries now' key _ hkey := by
    rw [get?_read files now' now hkey]
    rfl
  numbers := rfl
  sequence now' := by
    rw [sequence?, Dict.getD, get?_read files now' now (by decide)]
    rw [sequence?, Dict.getD] at hfirst
    simpa [patches] using hfirst

/-- The whole log is read if the limit allows for it. -/
theorem Logged.tailJsonl_eq (h : Logged files history) {limit : ℤ}
    (hlimit : (history.length : ℤ) ≤ limit) :
    tailJsonl files eventLog limit = history.map Record.sorted := by
  have hcomplete : ∀ a ∈ history.map Record.line, a.Complete :=
    List.forall_mem_map.mpr h.complete
  rw [tailJsonl_of_text h.valid h.text, outcomes_of_complete hcomplete, List.map_map]
  have hlength : (history.map ((fun a : LogEntry F => some a.members) ∘ Record.line)).length ≤
      (max 1 limit).toNat := by
    rw [List.length_map]
    omega
  rw [List.rtake, Nat.sub_eq_zero_of_le hlength, List.drop_zero, List.filterMap_map]
  exact congrFun (List.filterMap_eq_map (f := Record.sorted)) history

/-- Whatever calls are made from an empty log on, the patches that are read back from the log,
applied to the state of the beginning, give every entry of the state on disk except its time stamp
and its number; the numbers in the log follow each other without gap, and the last one is that of
the state. -/
theorem replay_run {files : Files} (hlog : (files eventLog).getD [] = []) {now : F} {first : ℤ}
    (hfirst : sequence? (read files now) = some first) {calls : List (Call F × Stamp F)}
    (hplain : ∀ call ∈ calls, call.1.Plain) {limit : ℤ} (hlimit : (calls.length : ℤ) ≤ limit)
    (now' : F) :
    let files' := Run.run State.perform files calls
    let events := tailJsonl files' eventLog limit
    (∀ key, key ≠ "sequence" → key ≠ "updated_at" →
      ((read files' now').get? key).map sortKeys =
        ((replay (read files now) events).get? key).map sortKeys) ∧
    (events.filterMap patch?).map Prod.snd =
      (List.range (events.filterMap patch?).length).map (fun i : ℕ => .int (first + 1 + i)) ∧
    sequence? (read files' now') = some (first + (events.filterMap patch?).length) := by
  obtain ⟨history, hjournal, hlength⟩ := (Journal.start hlog hfirst).run hplain
  have hlimit' : (history.length : ℤ) ≤ limit := by
    rw [List.length_nil, Nat.zero_add] at hlength
    omega
  have hevents := hjournal.toLogged.tailJsonl_eq hlimit'
  dsimp only
  rw [hevents]
  exact ⟨hjournal.entries now', hjournal.numbers, hjournal.sequence now'⟩

omit [PyText F] [PyFloat F] [FloatNumeral F] in
/-- The journal of a run with an update, an event of another kind and a command that is created and
acknowledged, on files that do not exist yet. -/
theorem replay_run_command :
    let files := Run.run (@State.perform ℚ PyText.fraction _) (fun _ => none)
      [(.update (.ofList [("phase", .str "READY")]) "STACK_READY" "orchestrator", ⟨1, 1, "e1"⟩),
        (.appendEvent { eventType := "PROGRESS", payload := .empty, component := "o" }, ⟨2, 2, "e2"⟩),
        (.createCommand "c1" "stop_stack" .empty "orchestrator", ⟨3, 3, "e3"⟩),
        (.acknowledgeCommand (.ofList [("command_id", .str "c1")]) "COMPLETED" .null .null,
          ⟨4, 4, "e4"⟩)]
    ((@State.read ℚ PyText.fraction files 0).get? "phase").map sortKeys =
      ((replay (@State.read ℚ PyText.fraction (fun _ => none) 0)
        (@tailJsonl ℚ PyText.fraction files eventLog 4)).get? "phase").map sortKeys :=
  (@replay_run ℚ PyText.fraction _ PyText.fraction.floatNumeral (fun _ => none) rfl 0 0 rfl
    [(.update (.ofList [("phase", .str "READY")]) "STACK_READY" "orchestrator", ⟨1, 1, "e1"⟩),
      (.appendEvent { eventType := "PROGRESS", payload := .empty, component := "o" }, ⟨2, 2, "e2"⟩),
      (.createCommand "c1" "stop_stack" .empty "orchestrator", ⟨3, 3, "e3"⟩),
      (.acknowledgeCommand (.ofList [("command_id", .str "c1")]) "COMPLETED" .null .null,
        ⟨4, 4, "e4"⟩)]
    (by
      intro call hcall
      simp only [List.mem_cons, List.not_mem_nil, or_false] at hcall
      rcases hcall with rfl | rfl | rfl | rfl
      · rfl
      · rfl
      · trivial
      · rfl) 4 (by simp) 0).1 "phase" (by decide) (by decide)

end Netlab.State
