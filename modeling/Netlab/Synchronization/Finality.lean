import Netlab.Revisions.Drafts
import Netlab.Synchronization.Actions

/-!
# Is a commit final?

`mark_participant` sets the phase of a record from the report alone, whatever the phase was. A
record that is committed leaves that phase as soon as an acknowledgement or a failure is entered for
it, and stays committed until then (`commit_final`).
-/

namespace Netlab.Synchronization

open Revisions

variable {F : Type}

/-- The record of a revision is committed. -/
def Committed (id : String) (store : Store F) : Prop :=
  ∃ record, store.read id = some record ∧ record.phase = .committed

/-- A call that enters an acknowledgement or a failure for a revision. -/
def Enters (id : String) : Op F → Bool
  | .mark revisionId participant entry =>
      revisionId = id && participant ∈ requiredParticipants &&
        (entry.state = .acknowledged || entry.state = .failed)
  | _ => false

/-- No acknowledgement leads to the phase of a committed record. -/
theorem phaseAfterAck_ne_committed (participant : String) :
    phaseAfterAck participant ≠ .committed := by
  rw [phaseAfterAck]
  split
  · decide
  · split <;> decide

/-- A record that is committed after a report was so before. -/
theorem phase_of_marked {record : Record F} {participant : String} {entry : Participant F}
    (h : (record.marked participant entry).phase = .committed) : record.phase = .committed := by
  cases hentry : entry.state with
  | acknowledged =>
      simp [Record.marked, hentry, phaseAfterAck_ne_committed] at h
  | failed => simp [Record.marked, hentry] at h
  | _ => simpa [Record.marked, hentry, Record.withParticipant] using h

/-- A committed record stays so exactly under the reports that are neither an acknowledgement nor a
failure. -/
theorem marked_phase_iff {record : Record F} (h : record.phase = .committed) (participant : String)
    (entry : Participant F) :
    (record.marked participant entry).phase = .committed ↔
      entry.state ≠ .acknowledged ∧ entry.state ≠ .failed := by
  cases hentry : entry.state with
  | acknowledged => simp [Record.marked, hentry, phaseAfterAck_ne_committed]
  | _ => simp [Record.marked, hentry, Record.withParticipant, h]

/-- The record of a revision after a mark. -/
theorem read_mark {uuid4 : IdSupply} {sha256Value : Json F → Option String} (store : Store F)
    {revisionId participant : String} {entry : Participant F}
    (hknown : participant ∈ requiredParticipants) (id : String) :
    (store.perform uuid4 sha256Value (.mark revisionId participant entry)).read id =
      if revisionId = id then (store.read id).map fun record => record.marked participant entry
      else store.read id := by
  cases hread : store.read revisionId with
  | none =>
      have hsame : store.perform uuid4 sha256Value (.mark revisionId participant entry) = store := by
        simp [Store.perform, Store.markParticipant, hknown, hread]
      rw [hsame]
      split
      · rename_i hid
        rw [← hid, hread]
        rfl
      · rfl
  | some record =>
      have hwrite : store.perform uuid4 sha256Value (.mark revisionId participant entry) =
          store.write (record.marked participant entry) := by
        simp [Store.perform, Store.markParticipant, hknown, hread]
      -- a record is stored under its own id
      rw [hwrite, Store.read, Store.write_records, (record.marked_identity _ _).1,
        store.keyed _ _ hread, Dict.get?_set]
      by_cases hid : revisionId = id
      · rw [if_pos hid.symm, if_pos hid, ← hid, hread]
        rfl
      · rw [if_neg (Ne.symm hid), if_neg hid]
        rfl

/-- A mark leaves a record committed exactly when it enters nothing for it. -/
theorem committed_mark_iff {uuid4 : IdSupply} {sha256Value : Json F → Option String}
    {store : Store F} {id : String} (h : Committed id store) (revisionId participant : String)
    (entry : Participant F) :
    Committed id (store.perform uuid4 sha256Value (.mark revisionId participant entry)) ↔
      Enters id (.mark revisionId participant entry) = false := by
  obtain ⟨record, hread, hphase⟩ := h
  by_cases hknown : participant ∈ requiredParticipants
  · rw [Committed, read_mark store hknown, hread]
    by_cases hid : revisionId = id
    · simpa [Enters, hknown, hid] using marked_phase_iff hphase participant entry
    · simp [Enters, hid, hphase]
  · have hsame : store.perform uuid4 sha256Value (.mark revisionId participant entry) = store := by
      simp [Store.perform, Store.markParticipant, hknown]
    rw [hsame]
    exact iff_of_true ⟨record, hread, hphase⟩ (by simp [Enters, hknown])

/-- A mark commits nothing. -/
theorem Committed.of_mark {uuid4 : IdSupply} {sha256Value : Json F → Option String}
    {store : Store F} {id revisionId participant : String} {entry : Participant F}
    (h : Committed id (store.perform uuid4 sha256Value (.mark revisionId participant entry))) :
    Committed id store := by
  by_cases hknown : participant ∈ requiredParticipants
  · obtain ⟨record', hread', hphase⟩ := h
    rw [read_mark store hknown] at hread'
    split at hread'
    · obtain ⟨record, hread, rfl⟩ := Option.map_eq_some_iff.mp hread'
      exact ⟨record, hread, phase_of_marked hphase⟩
    · exact ⟨record', hread', hphase⟩
  · have hsame : store.perform uuid4 sha256Value (.mark revisionId participant entry) = store := by
      simp [Store.perform, Store.markParticipant, hknown]
    rwa [hsame] at h

/-- A call that is no mark leaves a committed record committed. -/
theorem Committed.perform {uuid4 : IdSupply} {sha256Value : Json F → Option String}
    {store : Store F} (hdrawn : store.Drawn uuid4) {id : String} (h : Committed id store) {op : Op F}
    (hop : ∀ revisionId participant entry, op ≠ .mark revisionId participant entry) :
    Committed id (store.perform uuid4 sha256Value op) := by
  obtain ⟨record, hread, hphase⟩ := h
  -- a revision that can be read has been drawn, so no later operation creates it anew
  have hfresh : id ≠ uuid4.id store.draws := by
    rintro rfl
    rw [hdrawn.read_next] at hread
    cases hread
  have hperformed := store.performed uuid4 sha256Value op
  generalize store.perform uuid4 sha256Value op = store' at hperformed ⊢
  cases hperformed with
  | unchanged => exact ⟨record, hread, hphase⟩
  | ackFile file content => exact ⟨record, hread, hphase⟩
  | created create =>
      obtain ⟨-, -, hrecords, -, -⟩ := Store.create_spec create
      obtain ⟨hid, -, -⟩ := Store.create_draft create
      refine ⟨record, ?_, hphase⟩
      rw [Store.read, hrecords, hid, Dict.get?_set_of_ne _ _ hfresh]
      exact hread
  | marked known read => exact absurd rfl (hop _ _ _)
  | @committed revisionId stored read ready =>
      by_cases hid : id = stored.revisionId
      · -- the same revision may be committed again
        exact ⟨_, by rw [Store.read, Store.write_records, hid, Dict.get?_set_self], rfl⟩
      · refine ⟨record, ?_, hphase⟩
        rw [Store.read, Store.write_records, Dict.get?_set_of_ne _ _ hid]
        exact hread
  | rolledBack read create =>
      obtain ⟨-, -, hrecords, -, -⟩ := Store.create_spec create
      obtain ⟨hid, -, -⟩ := Store.create_draft create
      refine ⟨record, ?_, hphase⟩
      rw [Store.read, Store.write_records, hrecords, Dict.set_set, hid,
        Dict.get?_set_of_ne _ _ hfresh]
      exact hread

/-! ## Actions -/

/-- An action enters an acknowledgement or a failure for a revision. -/
def Action.Enters [PyText F] (id : String) (store : Store F) (action : Action F) : Prop :=
  ∃ op ∈ action.ops store, Synchronization.Enters id op = true

/-- A report of a participant: a mark, or an ack file. -/
def IsReport : Op F → Prop
  | .mark _ _ _ => True
  | .ackFile _ _ => True
  | _ => False

/-- What `apply` does to the store is reports only. -/
theorem isReport_of_mem_applyOps [PyText F] {store : Store F} {record : Record F}
    {env : Environment F} {offlineIsPending : Bool} {op : Op F}
    (h : op ∈ applyOps store record env offlineIsPending) : IsReport op := by
  rcases List.mem_append.mp h with h | h
  · obtain ⟨report, -, rfl⟩ := List.mem_map.mp h
    trivial
  · obtain ⟨file, -, rfl⟩ := List.mem_map.mp h
    trivial

/-- Reports leave a record committed exactly when none enters an acknowledgement or a failure for
it. -/
theorem committed_reports_iff {uuid4 : IdSupply} {sha256Value : Json F → Option String}
    {id : String} {store : Store F} (h : Committed id store) {ops : List (Op F)}
    (hops : ∀ op ∈ ops, IsReport op) :
    Committed id (Run.run (Store.perform uuid4 sha256Value) store ops) ↔
      ∀ op ∈ ops, Enters id op = false := by
  -- once it is left, no report commits it again
  have hlost : ∀ (ops : List (Op F)) (store : Store F), (∀ op ∈ ops, IsReport op) →
      Committed id (Run.run (Store.perform uuid4 sha256Value) store ops) → Committed id store := by
    intro ops
    induction ops with
    | nil => exact fun _ _ h => h
    | cons op ops ih =>
        intro store hops hrun
        have hstep := ih _ (fun o ho => hops o (List.mem_cons_of_mem _ ho)) hrun
        cases op with
        | mark revisionId participant entry => exact hstep.of_mark
        | ackFile file content => exact hstep
        | _ => exact (hops _ List.mem_cons_self).elim
  induction ops generalizing store with
  | nil => simpa using h
  | cons op ops ih =>
      have hrest : ∀ o ∈ ops, IsReport o := fun o ho => hops o (List.mem_cons_of_mem _ ho)
      have hstep : Committed id (store.perform uuid4 sha256Value op) ↔ Enters id op = false := by
        cases op with
        | mark revisionId participant entry => exact committed_mark_iff h _ _ _
        | ackFile file content => exact iff_of_true h rfl
        | _ => exact (hops _ List.mem_cons_self).elim
      rw [Run.run_cons, List.forall_mem_cons]
      constructor
      · intro hrun
        have hkept := hlost ops _ hrest hrun
        exact ⟨hstep.mp hkept, (ih hkept hrest).mp hrun⟩
      · rintro ⟨hop, hothers⟩
        exact (ih (hstep.mpr hop) hrest).mpr hothers

variable [PyText F]

/-- A step leaves a record committed exactly when it enters no acknowledgement and no failure for
it. -/
theorem committed_perform_iff {uuid4 : IdSupply} {sha256Value : Json F → Option String}
    {store : Store F} (hdrawn : store.Drawn uuid4) {id : String} (h : Committed id store)
    (action : Action F) :
    Committed id (perform uuid4 sha256Value store action) ↔ ¬ action.Enters id store := by
  -- of reports it is known when they leave the record committed
  have hreports : (∀ op ∈ action.ops store, IsReport op) →
      (Committed id (perform uuid4 sha256Value store action) ↔ ¬ action.Enters id store) := by
    intro hops
    rw [perform, committed_reports_iff h hops, Action.Enters]
    simp
  cases action with
  | manager op =>
      by_cases hmark : ∃ revisionId participant entry, op = .mark revisionId participant entry
      · obtain ⟨revisionId, participant, entry, rfl⟩ := hmark
        exact hreports (by simp [Action.ops, IsReport])
      · have hop : ∀ revisionId participant entry, op ≠ .mark revisionId participant entry :=
          fun _ _ _ heq => hmark ⟨_, _, _, heq⟩
        refine iff_of_true (h.perform hdrawn hop) ?_
        rintro ⟨op', hmem, henters⟩
        obtain rfl := List.mem_singleton.mp hmem
        cases op' with
        | mark revisionId participant entry => exact hop _ _ _ rfl
        | _ => cases henters
  | apply record env offlineIsPending => exact hreports fun _ => isReport_of_mem_applyOps
  | reconcile revisionId env =>
      refine hreports fun op hop => ?_
      rw [Action.ops] at hop
      split at hop
      · exact isReport_of_mem_applyOps hop
      · cases hop

/-- Steps keep the ids drawn. -/
theorem drawn_perform {uuid4 : IdSupply} {sha256Value : Json F → Option String} {store : Store F}
    (h : store.Drawn uuid4) (action : Action F) :
    (perform uuid4 sha256Value store action).Drawn uuid4 :=
  Run.run_invariant (Store.Drawn uuid4) (fun _ op h => h.perform op) h _

/-- A record that is committed after some steps is committed throughout the later ones exactly when
none of these enters an acknowledgement or a failure for it. -/
theorem commit_final (uuid4 : IdSupply) (sha256Value : Json F → Option String)
    (before after : List (Action F)) (id : String)
    (h : Committed id (Run.run (perform uuid4 sha256Value) .empty before)) :
    let step := perform uuid4 sha256Value
    (∀ k, Committed id (Run.run step .empty (before ++ after.take k))) ↔
      Run.AllSteps step (fun store action => ¬ action.Enters id store)
        (Run.run step .empty before) after := by
  intro step
  have hdrawn : (Run.run step .empty before).Drawn uuid4 :=
    Run.run_invariant (Store.Drawn uuid4) (fun _ action h => drawn_perform h action)
      (fun _ _ h => by simp [Store.read, Store.empty] at h) before
  simp only [Run.run_append]
  rw [Run.forall_take_iff h]
  exact Run.allSteps_iff_of_invariant (fun store => store.Drawn uuid4 ∧ Committed id store)
    (fun _ action h => committed_perform_iff h.1 h.2 action)
    (fun _ action h hkept =>
      ⟨drawn_perform h.1 action, (committed_perform_iff h.1 h.2 action).mpr hkept⟩) ⟨hdrawn, h⟩

/-- The steps that commit the revision `"x"`. -/
def committedSteps : List (Action ℚ) := commitRun.map .manager

/-- Reads of the status keep the commit. -/
theorem commit_final_status :
    let step := perform .unary fun _ => some "h"
    Committed "x" (Run.run step .empty committedSteps) ∧
      ∀ k, Committed "x" (Run.run step .empty
        (committedSteps ++ [.manager (.status none), .manager (.status "x")].take k)) := by
  intro step
  have hcommitted : Committed "x" (Run.run step .empty committedSteps) := ⟨_, rfl, rfl⟩
  refine ⟨hcommitted, (commit_final .unary (fun _ => some "h") committedSteps _ "x" hcommitted).mpr
    ⟨?_, ?_, trivial⟩⟩
  · simp [Action.Enters, Action.ops, Enters]
  · simp [Action.Enters, Action.ops, Enters]

/-- A reconcile of a committed revision, with every participant acknowledging it once more, ends in
the phase of the last acknowledgement. -/
theorem reconcile_uncommits :
    ¬ ∀ (before after : List (Action ℚ)) (id : String),
      Committed id (Run.run (perform .unary fun _ => some "h") .empty before) →
        Committed id (Run.run (perform .unary fun _ => some "h") .empty (before ++ after)) := by
  intro hall
  obtain ⟨record, hread, hphase⟩ :=
    hall committedSteps [.reconcile "x" reachable] "x" ⟨_, rfl, rfl⟩
  have hlast : ((Run.run (perform .unary fun _ => some "h") .empty
      (committedSteps ++ [.reconcile "x" reachable])).read "x").map (·.phase) =
        some .appliedToIsaac := by decide
  rw [hread, Option.map_some, hphase] at hlast
  cases hlast

end Netlab.Synchronization
