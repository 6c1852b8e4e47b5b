import Netlab.MissionControl.Edits
import Netlab.Prelude.Run

/-!
# Requests to Mission Control

The server answers its requests on threads. A request that edits the configuration loads it, edits
the copy that it holds and saves this. `load_config` and `save_config` each hold `_config_lock`
while they run, and nothing holds it between them, so the loads and the saves of several requests
can come in any order. An edit stays in the durable configuration as long as every request saves
what it made of the file as it is (`edits_kept`), as requests that take turns do
(`allSteps_serial`). A request that saves a copy loaded before another one saved takes the edit of
the other back (`edits_lost`).
-/

namespace Netlab.MissionControl

open Experiment

variable {F ι : Type}

/-! ## The server -/

/-- How far a request has come. -/
inductive Phase (F : Type)
  | waiting
  /-- It holds a copy of the configuration. -/
  | loaded (config : Dict String (Json F))
  /-- It was answered with success and with the configuration that it saved. -/
  | answered (config : Dict String (Json F))
  /-- It was answered with an error. -/
  | refused

/-- The configuration in the answer of a request. -/
def Phase.config? : Phase F → Option (Dict String (Json F))
  | answered config => some config
  | _ => none

theorem Phase.config?_eq_some {phase : Phase F} {config : Dict String (Json F)} :
    phase.config? = some config ↔ phase = .answered config := by
  cases phase <;> simp [config?]

/-- The file of the durable configuration and the requests. -/
structure Server (ι F : Type) where
  file : Option (Json F)
  phase : ι → Phase F

/-- What the clock shows when a save validates the document, when it does so again, and when it
emits the legacy document; each migration reads it twice. -/
structure SaveClock (F : Type) where
  validated : F
  validatedLater : F
  checked : F
  checkedLater : F
  emitted : F
  emittedLater : F

/-- The steps that hold the lock. -/
inductive Event (ι F : Type)
  | load (i : ι) (now later : F)
  /-- The file is written before the revision, the status and, when live, the transaction of a save,
  which may raise. -/
  | save (i : ι) (clock : SaveClock F) (finishes : Bool)

section Steps

variable [PyText F] [PyBuiltins F]

/-- What `save_config` answers with and what it writes. -/
def saveConfig (clock : SaveClock F) (value : Dict String (Json F)) :
    Option (Dict String (Json F) × Dict String (Json F)) := do
  let config ← validateStrict clock.validated clock.validatedLater value
  let file ← saveExperiment clock.checked clock.checkedLater clock.emitted clock.emittedLater config
    true
  return (config, file)

variable [DecidableEq ι]

/-- One step of a request. The edit of the copy that it holds counts to its save. A request that is
not at this step ignores it. -/
def Server.perform (topologyValid : Dict String (Json F) → Option Bool) (requests : ι → Request F)
    (s : Server ι F) : Event ι F → Server ι F
  | .load i now later =>
      match s.phase i with
      | .waiting =>
          let phase := match loadExperiment now later s.file with
            | some config => .loaded config
            | none => .refused
          { s with phase := Function.update s.phase i phase }
      | _ => s
  | .save i clock finishes =>
      match s.phase i with
      | .loaded config =>
          match ((requests i).edit topologyValid config).toOption.bind (saveConfig clock) with
          -- the file is replaced even if the response does not get through
          | some (saved, file) =>
              let phase := if finishes then .answered saved else .refused
              { file := some (.ofDict file), phase := Function.update s.phase i phase }
          | none => { s with phase := Function.update s.phase i .refused }
      | _ => s

/-- The server with a file and without requests under way. -/
def Server.start (file : Option (Json F)) : Server ι F := { file, phase := fun _ => .waiting }

/-- A request that saves holds what the file holds: no other request saved after it loaded. -/
def Server.Current (s : Server ι F) : Event ι F → Prop
  | .load _ _ _ => True
  | .save i _ _ => ∀ config, s.phase i = .loaded config →
      ∃ now later, loadExperiment now later s.file = some config

/-- The configuration is what a request made of the copy that it held, over the defaults. -/
def Request.Made (topologyValid : Dict String (Json F) → Option Bool) (request : Request F)
    (config : Dict String (Json F)) : Prop :=
  ∃ copy value now, request.edit topologyValid copy = .ok value ∧
    config = deepMerge (defaultExperiment now) value

/-- The durable configuration has the edit of a request: at every place that the request edits it
has what is in the configuration that the request was answered with. -/
def Server.Contains (s : Server ι F) (request : Request F) (config : Dict String (Json F)) : Prop :=
  ∀ now later, ∃ durable, loadExperiment now later s.file = some durable ∧
    ∀ place, request.touches place = true → place.read durable = place.read config

/-! ## The steps -/

/-- What one step can do. -/
inductive Server.Performed (topologyValid : Dict String (Json F) → Option Bool)
    (requests : ι → Request F) (s : Server ι F) : Event ι F → Server ι F → Prop
  | ignored (event : Event ι F) : Performed topologyValid requests s event s
  | refused (event : Event ι F) (i : ι) : Performed topologyValid requests s event
      { s with phase := Function.update s.phase i .refused }
  | loaded {i : ι} {now later : F} {config : Dict String (Json F)} :
      loadExperiment now later s.file = some config →
      Performed topologyValid requests s (.load i now later)
        { s with phase := Function.update s.phase i (.loaded config) }
  | saved {i : ι} {clock : SaveClock F} {finishes : Bool}
      {config value saved file : Dict String (Json F)} {phase : Phase F} :
      s.phase i = .loaded config → (requests i).edit topologyValid config = .ok value →
      saveConfig clock value = some (saved, file) → (phase = .answered saved ∨ phase = .refused) →
      Performed topologyValid requests s (.save i clock finishes)
        { file := some (.ofDict file), phase := Function.update s.phase i phase }

theorem Server.performed (topologyValid : Dict String (Json F) → Option Bool)
    (requests : ι → Request F) (s : Server ι F) (event : Event ι F) :
    Performed topologyValid requests s event (s.perform topologyValid requests event) := by
  cases event with
  | load i now later =>
      cases hphase : s.phase i with
      | waiting =>
          cases hload : loadExperiment now later s.file with
          | some config => simpa [perform, hphase, hload] using Performed.loaded hload
          | none => simpa [perform, hphase, hload] using Performed.refused _ i
      -- a request loads once, before anything else
      | _ => simpa [perform, hphase] using Performed.ignored _
  | save i clock finishes =>
      cases hphase : s.phase i with
      | loaded config =>
          cases hedit : (requests i).edit topologyValid config with
          | error refusal =>
              simpa [perform, hphase, hedit, Except.toOption] using Performed.refused _ i
          | ok value =>
              cases hsave : saveConfig clock value with
              | none =>
                  simpa [perform, hphase, hedit, hsave, Except.toOption] using
                    Performed.refused _ i
              | some result =>
                  obtain ⟨saved, file⟩ := result
                  simp only [perform, hphase, hedit, hsave, Except.toOption, Option.bind_some]
                  refine Performed.saved hphase hedit hsave ?_
                  cases finishes with
                  | true => exact Or.inl rfl
                  | false => exact Or.inr rfl
      | _ => simpa [perform, hphase] using Performed.ignored _

/-! ## What is kept along a run -/

/-- What a save writes is loaded as the configuration that it answers with. This is the edited
document merged over the defaults. -/
theorem saveConfig_spec {clock : SaveClock F} {value config file : Dict String (Json F)}
    (hvalue : Versioned value) (h : saveConfig clock value = some (config, file)) :
    config = deepMerge (defaultExperiment clock.validated) value ∧ CoversDefault config ∧
      Versioned config ∧
      ∀ now later, loadExperiment now later (some (.ofDict file)) = some config := by
  simp only [saveConfig, bind, pure, Option.bind_eq_some_iff, Option.some.injEq] at h
  obtain ⟨config', hvalidated, file', hfile, heq⟩ := h
  obtain ⟨rfl, rfl⟩ := Prod.mk.inj heq
  obtain ⟨hmerged, hcovers, hversioned⟩ := hvalue.validateStrict_eq hvalidated
  exact ⟨hmerged, hcovers, hversioned, hvalue.load_saveExperiment hvalidated hfile⟩

/-- What holds along the runs whose saves are all of current copies: every copy is versioned and
lists no key twice, and once a request was answered the file loads as a document that covers the
defaults and has the edits of the requests that were answered. -/
structure Server.Inv (topologyValid : Dict String (Json F) → Option Bool) (requests : ι → Request F)
    (s : Server ι F) : Prop where
  loads : ∀ now later config, loadExperiment now later s.file = some config → Versioned config
  copies : ∀ i config, s.phase i = .loaded config → Versioned config
  answers : ∀ i config, s.phase i = .answered config → (requests i).Made topologyValid config
  edits : ∀ i config, s.phase i = .answered config → ∃ durable, CoversDefault durable ∧
    (∀ now later, loadExperiment now later s.file = some durable) ∧
    ∀ place, (requests i).touches place = true → place.read durable = place.read config

omit [DecidableEq ι] in
theorem Server.inv_start (topologyValid : Dict String (Json F) → Option Bool)
    (requests : ι → Request F) {file : Option (Json F)}
    (hfile : ∀ value, file = some value → value.distinct = true) :
    (Server.start file).Inv topologyValid requests where
  loads _ _ _ h := versioned_loadExperiment hfile h
  copies _ _ h := by cases h
  answers _ _ h := by cases h
  edits _ _ h := by cases h

variable {topologyValid : Dict String (Json F) → Option Bool} {requests : ι → Request F}
  {s : Server ι F}

omit [PyText F] [PyBuiltins F] in
/-- A request other than the one that a step is about has the phase that it had. -/
theorem phase_update {phase : ι → Phase F} {i j : ι} {new old : Phase F}
    (h : Function.update phase i new j = old) : j = i ∧ new = old ∨ phase j = old := by
  by_cases hji : j = i
  · subst hji
    exact Or.inl ⟨rfl, by simpa using h⟩
  · rw [Function.update_of_ne hji] at h
    exact Or.inr h

/-- A step whose save, if it is one, is of a current copy keeps the invariant. -/
theorem Server.Inv.perform (hapart : Pairwise fun i j => (requests i).Apart (requests j))
    (h : s.Inv topologyValid requests) {event : Event ι F} (hcurrent : s.Current event) :
    (s.perform topologyValid requests event).Inv topologyValid requests := by
  have hperformed := s.performed topologyValid requests event
  generalize s.perform topologyValid requests event = s' at hperformed ⊢
  cases hperformed with
  | ignored => exact h
  | refused event i =>
      refine ⟨h.loads, fun j config hj => ?_, fun j config hj => ?_, fun j config hj => ?_⟩
      · rcases phase_update hj with ⟨-, hnew⟩ | hold
        · cases hnew
        · exact h.copies j config hold
      · rcases phase_update hj with ⟨-, hnew⟩ | hold
        · cases hnew
        · exact h.answers j config hold
      · rcases phase_update hj with ⟨-, hnew⟩ | hold
        · cases hnew
        · exact h.edits j config hold
  | @loaded i now later loaded hload =>
      refine ⟨h.loads, fun j config hj => ?_, fun j config hj => ?_, fun j config hj => ?_⟩
      · rcases phase_update hj with ⟨-, hnew⟩ | hold
        · exact Phase.loaded.inj hnew ▸ h.loads _ _ _ hload
        · exact h.copies j config hold
      · rcases phase_update hj with ⟨-, hnew⟩ | hold
        · cases hnew
        · exact h.answers j config hold
      · rcases phase_update hj with ⟨-, hnew⟩ | hold
        · cases hnew
        · exact h.edits j config hold
  | @saved i clock finishes copy value saved file phase hphase hedit hsave hanswer =>
      have hvalue := Request.versioned_edit (h.copies i copy hphase) hedit
      obtain ⟨hmerged, hcovers, hversioned, hloads⟩ := saveConfig_spec hvalue hsave
      refine ⟨fun now later config hload => ?_, fun j config hj => ?_, fun j config hj => ?_,
        fun j config hj => ⟨saved, hcovers, hloads, fun place hplace => ?_⟩⟩
      · exact Option.some.inj ((hloads now later).symm.trans hload) ▸ hversioned
      · rcases phase_update hj with ⟨-, hnew⟩ | hold
        · rcases hanswer with rfl | rfl <;> cases hnew
        · exact h.copies j config hold
      · rcases phase_update hj with ⟨rfl, hnew⟩ | hold
        · rcases hanswer with rfl | rfl
          · exact ⟨copy, value, _, hedit, Phase.answered.inj hnew ▸ hmerged⟩
          · cases hnew
        · exact h.answers j config hold
      · rcases phase_update hj with ⟨rfl, hnew⟩ | hold
        · -- the request itself: the file holds what it was answered with
          rcases hanswer with rfl | rfl
          · rw [Phase.answered.inj hnew]
          · cases hnew
        · -- an earlier one: its edit is in the copy, and this request edits other places
          obtain ⟨durable, hdurable, hloaded, hread⟩ := h.edits j config hold
          obtain ⟨now, later, hcopy⟩ := hcurrent copy hphase
          obtain rfl := Option.some.inj ((hloaded now later).symm.trans hcopy)
          have hne : j ≠ i := by
            rintro rfl
            cases hold.symm.trans hphase
          rw [hmerged, Request.read_of_untouched hdurable hedit (hapart hne place hplace)]
          exact hread place hplace

/-- Along every run of any number of requests that edit different UAVs or different sections, in
which each save is of a copy that is still what the file holds, each request that was answered with
success was answered with its edit, and the durable configuration has it. -/
theorem edits_kept (topologyValid : Dict String (Json F) → Option Bool) (requests : ι → Request F)
    (hapart : Pairwise fun i j => (requests i).Apart (requests j)) (file : Option (Json F))
    (hfile : ∀ value, file = some value → value.distinct = true) (events : List (Event ι F))
    (hevents : Run.AllSteps (Server.perform topologyValid requests) Server.Current
      (Server.start file) events) (i : ι) (config : Dict String (Json F))
    (hanswered : (Run.run (Server.perform topologyValid requests) (Server.start file)
      events).phase i = .answered config) :
    (requests i).Made topologyValid config ∧
      (Run.run (Server.perform topologyValid requests) (Server.start file) events).Contains
        (requests i) config := by
  have hinv := Run.run_invariant_of_allSteps (Server.Inv topologyValid requests)
    (fun s event h hcurrent => h.perform hapart hcurrent)
    (Server.inv_start topologyValid requests hfile) hevents
  obtain ⟨durable, -, hloads, hread⟩ := hinv.edits i config hanswered
  exact ⟨hinv.answers i config hanswered, fun now later => ⟨durable, hloads now later, hread⟩⟩

/-! ## Requests that take turns -/

/-- The request that a step belongs to. -/
def Event.request : Event ι F → ι
  | .load i _ _ => i
  | .save i _ _ => i

/-- A step of one request leaves the others where they are. -/
theorem Server.phase_perform_of_ne
    (topologyValid : Dict String (Json F) → Option Bool) (requests : ι → Request F)
    (s : Server ι F) {event : Event ι F} {j : ι} (h : j ≠ event.request) :
    (s.perform topologyValid requests event).phase j = s.phase j := by
  cases event with
  | load i now later =>
      rw [perform]
      cases s.phase i with
      | waiting => exact Function.update_of_ne h _ _
      | _ => rfl
  | save i clock finishes =>
      rw [perform]
      cases s.phase i with
      | loaded config =>
          dsimp only
          split
          · exact Function.update_of_ne h _ _
          · exact Function.update_of_ne h _ _
      | _ => rfl

/-- The copy of a request that has just loaded is what the file holds. -/
theorem Server.current_of_load
    (topologyValid : Dict String (Json F) → Option Bool) (requests : ι → Request F)
    {s : Server ι F} {i : ι} (h : s.phase i = .waiting) (now later : F) (clock : SaveClock F)
    (finishes : Bool) :
    (s.perform topologyValid requests (.load i now later)).Current (.save i clock finishes) := by
  intro config hconfig
  simp only [perform, h, Function.update_self] at hconfig ⊢
  cases hload : loadExperiment now later s.file with
  | none => simp [hload] at hconfig
  | some copy =>
      rw [hload] at hconfig
      obtain rfl := Phase.loaded.inj hconfig
      exact ⟨now, later, hload⟩

/-- A request that loads and saves without another one between. -/
structure Turn (ι F : Type) where
  request : ι
  now : F
  later : F
  clock : SaveClock F
  finishes : Bool

/-- The steps of requests that take turns. -/
def serial (turns : List (Turn ι F)) : List (Event ι F) :=
  turns.flatMap fun turn =>
    [.load turn.request turn.now turn.later, .save turn.request turn.clock turn.finishes]

/-- Requests that take turns save current copies. -/
theorem allSteps_serial (topologyValid : Dict String (Json F) → Option Bool)
    (requests : ι → Request F) {s : Server ι F} {turns : List (Turn ι F)}
    (hnodup : (turns.map Turn.request).Nodup)
    (hwaiting : ∀ turn ∈ turns, s.phase turn.request = .waiting) :
    Run.AllSteps (Server.perform topologyValid requests) Server.Current s (serial turns) := by
  induction turns generalizing s with
  | nil => trivial
  | cons turn turns ih =>
      obtain ⟨hnew, hrest⟩ := List.nodup_cons.mp hnodup
      obtain ⟨hturn, hothers⟩ := List.forall_mem_cons.mp hwaiting
      refine ⟨trivial, Server.current_of_load _ _ hturn _ _ _ _, ih hrest fun other hother => ?_⟩
      have hne : other.request ≠ turn.request := fun heq =>
        hnew (heq ▸ List.mem_map.mpr ⟨other, hother, rfl⟩)
      rw [Server.phase_perform_of_ne _ _ _ (by exact hne),
        Server.phase_perform_of_ne _ _ _ (by exact hne)]
      exact hothers other hother

end Steps

/-! ## Two requests -/

/-- The number of decimal digits of a natural number, if they are not more than the bound. -/
def digitCount : ℕ → ℕ → ℕ
  | 0, _ => 0
  | bound + 1, n => if n < 10 then 1 else digitCount bound (n / 10) + 1

/-- Exact fractions as floats, for evaluations on concrete values. The decimal logarithm of a number
that is at least one is cut off after two places, the others raise. -/
def Fractions : Type := ℚ

instance : PyBuiltins Fractions :=
  show PyBuiltins ℚ from
    { (inferInstance : PyBuiltins ℚ) with
      log10 := fun x =>
        if 1 ≤ x then some (((digitCount 10000 ⌊x ^ 100⌋₊ : ℚ) - 1) / 100) else none }

instance : PyText Fractions := show PyText ℚ from inferInstance

instance : Zero Fractions := show Zero ℚ from inferInstance

/-- The request that deactivates one UAV. -/
def deactivate (id : String) : Request Fractions :=
  .swarm
    { members := .ofList [("drones", .arr [.obj [("id", .str id), ("active", .bool false)]])]
      distinct := Json.distinct_ofList
        (by simp [Json.distinct, Json.distinctItems, Json.distinctMembers]) }

/-- Two requests for different UAVs. -/
def deactivations : Bool → Request Fractions
  | false => deactivate "drone_1"
  | true => deactivate "drone_2"

theorem touches_deactivate {id : String} {place : Place} :
    (deactivate id).touches place = true ↔ place = .uav id := by
  have hid : updateId (.ofList [("id", .str id), ("active", .bool false)] :
      Dict String (Json Fractions)) = id := rfl
  cases place with
  | uav other =>
      have hupdates : updatesOf (.ofList [("drones", .arr [.obj [("id", .str id),
          ("active", .bool false)]])] : Dict String (Json Fractions)) =
          [.obj [("id", .str id), ("active", .bool false)]] := rfl
      simp [deactivate, Request.touches, hupdates, Json.dict?, hid, eq_comm]
  | _ => simp [deactivate, Request.touches]

theorem apart_deactivations :
    Pairwise fun i j => (deactivations i).Apart (deactivations j) := by
  intro i j hne place hplace
  refine Bool.eq_false_iff.mpr fun hplace' => ?_
  cases i <;> cases j
  · exact hne rfl
  · simp [deactivations, touches_deactivate] at hplace hplace'
    simp [hplace] at hplace'
  · simp [deactivations, touches_deactivate] at hplace hplace'
    simp [hplace] at hplace'
  · exact hne rfl

/-- Saves that take no time. -/
def instant : SaveClock Fractions := ⟨0, 0, 0, 0, 0, 0⟩

/-- The server after steps of the two requests. There is no configuration file at first, and the
validation of the topology is not reached. -/
def afterSteps (events : List (Event Bool Fractions)) : Server Bool Fractions :=
  Run.run (Server.perform (fun _ => none) deactivations) (Server.start none) events

/-- Whether a UAV is active in a configuration. -/
def activeAt (config : Dict String (Json Fractions)) (id : String) : Option Bool :=
  ((recordTable (inventory config)).get? id).map fun record => record.getBool "active" true

/-- The two requests, one after the other. -/
def inTurn : List (Turn Bool Fractions) :=
  [⟨false, 0, 0, instant, true⟩, ⟨true, 0, 0, instant, true⟩]

theorem edits_kept_deactivations : ∃ config,
    (afterSteps (serial inTurn)).phase false = .answered config ∧
      (afterSteps (serial inTurn)).Contains (deactivations false) config := by
  have hanswered : ((afterSteps (serial inTurn)).phase false).config?.bind (activeAt · "drone_1") =
      some false := by
    decide +kernel
  have hsteps : Run.AllSteps (Server.perform (fun _ => none) deactivations) Server.Current
      (Server.start none) (serial inTurn) :=
    allSteps_serial _ _ (by decide) fun _ _ => rfl
  obtain ⟨config, hconfig, -⟩ := Option.bind_eq_some_iff.mp hanswered
  have hphase := Phase.config?_eq_some.mp hconfig
  refine ⟨config, hphase, ?_⟩
  rw [afterSteps] at hphase ⊢
  exact (edits_kept (fun _ => none) deactivations apart_deactivations none (by simp) _ hsteps false
    config hphase).2

/-- Two requests for different UAVs that load before either saves are both answered with success,
and the durable configuration has only the edit of the second. -/
theorem edits_lost :
    (Pairwise fun i j => (deactivations i).Apart (deactivations j)) ∧
      let s := afterSteps
        [.load false 0 0, .load true 0 0, .save false instant true, .save true instant true]
      ∃ first second durable, s.phase false = .answered first ∧ s.phase true = .answered second ∧
        loadExperiment 0 0 s.file = some durable ∧ activeAt first "drone_1" = some false ∧
        activeAt durable "drone_1" = some true := by
  refine ⟨apart_deactivations, ?_⟩
  have houtcome :
      let s := afterSteps
        [.load false 0 0, .load true 0 0, .save false instant true, .save true instant true]
      ((s.phase false).config?.bind (activeAt · "drone_1"), (s.phase true).config?.isSome,
        (loadExperiment 0 0 s.file).bind (activeAt · "drone_1")) =
      (some false, true, some true) := by
    decide +kernel
  dsimp only at houtcome ⊢
  generalize afterSteps _ = s at *
  obtain ⟨hfirst, hsecond, hdurable⟩ := by simpa only [Prod.mk.injEq] using houtcome
  obtain ⟨first, hanswered, hactive⟩ := Option.bind_eq_some_iff.mp hfirst
  obtain ⟨second, hanswered'⟩ := Option.isSome_iff_exists.mp hsecond
  obtain ⟨durable, hload, hread⟩ := Option.bind_eq_some_iff.mp hdurable
  exact ⟨first, second, durable, Phase.config?_eq_some.mp hanswered,
    Phase.config?_eq_some.mp hanswered', hload, hactive, hread⟩

end Netlab.MissionControl
