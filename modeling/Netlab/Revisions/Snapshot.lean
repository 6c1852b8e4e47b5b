import Netlab.Revisions.Commit

/-!
# The desired snapshot and the record it was taken from

`create` and `commit` write a revision twice: as the record that later marks update, and as the
desired snapshot, which they do not. `status()` reads the snapshot and `status(id)` the record. As
long as no mark moves the record of the desired revision, and no rollback changes the phase of the
record it creates, the two reports agree.
-/

namespace Netlab.Revisions

variable {F : Type}

/-- A participant counts as having acknowledged a record. -/
def Record.HasAcknowledged (record : Record F) (participant : String) : Bool :=
  (record.participants.get? participant).any fun entry => entry.state = .acknowledged

/-- A call that changes the record of the desired revision and not its snapshot: a rollback, a mark
that moves the phase of the record, or one that withdraws an acknowledgement it asks for. -/
def Op.splits (store : Store F) : Op F → Bool
  | .rollback revisionId => (store.read revisionId).isSome
  | .mark revisionId participant entry =>
      participant ∈ requiredParticipants &&
        store.desired.any (fun d => d.revisionId = revisionId) &&
        (store.read revisionId).any fun record =>
          entry.state = .acknowledged || entry.state = .failed ||
            (participant ∈ record.required && record.HasAcknowledged participant)
  | _ => false

/-- Two records that `status` reports on alike. -/
structure Record.Agrees (snapshot record : Record F) : Prop where
  revisionId : snapshot.revisionId = record.revisionId
  hashes : snapshot.hashes = record.hashes
  phase : snapshot.phase = record.phase
  state : snapshot.state = record.state
  pending : snapshot.pending = record.pending
  acknowledged : snapshot.allRequiredAcknowledged = record.allRequiredAcknowledged

theorem Record.Agrees.refl (record : Record F) : record.Agrees record :=
  ⟨rfl, rfl, rfl, rfl, rfl, rfl⟩

/-- The desired snapshot agrees with the record of its revision. -/
def Store.Agrees (store : Store F) : Prop :=
  ∀ d, store.desired = some d → ∃ record, store.read d.revisionId = some record ∧ d.Agrees record

/-! ## What the calls do to the agreement -/

/-- A report that is no acknowledgement, by a participant that has not acknowledged or is not asked
to, leaves those that are pending. -/
theorem Record.pending_withParticipant {record : Record F} {participant : String}
    {entry : Participant F} (hentry : entry.state ≠ .acknowledged)
    (hnot : ¬ (participant ∈ record.required ∧ record.HasAcknowledged participant = true)) :
    (record.withParticipant participant entry).pending = record.pending := by
  refine List.filter_congr fun name hname => ?_
  change name ∈ record.required at hname
  by_cases h : name = participant
  · subst h
    have hpending : record.HasAcknowledged name = false := by
      simpa [hname] using hnot
    rw [HasAcknowledged] at hpending
    simp [withParticipant, hpending, hentry]
  · simp [withParticipant, Dict.get?_set_of_ne _ _ h]

/-- Nor does such a report complete the acknowledgements. -/
theorem Record.allRequiredAcknowledged_withParticipant {record : Record F} {participant : String}
    {entry : Participant F} (hentry : entry.state ≠ .acknowledged)
    (hnot : ¬ (participant ∈ record.required ∧ record.HasAcknowledged participant = true)) :
    (record.withParticipant participant entry).allRequiredAcknowledged =
      record.allRequiredAcknowledged := by
  rw [Bool.eq_iff_iff, allRequiredAcknowledged_iff, allRequiredAcknowledged_iff]
  refine forall₂_congr fun name hname => ?_
  change name ∈ record.required at hname
  by_cases h : name = participant
  · subst h
    have hpending : record.HasAcknowledged name = false := by
      simpa [hname] using hnot
    constructor
    · rintro ⟨e, hget, hack⟩
      obtain rfl : entry = e := by simpa [withParticipant] using hget
      exact absurd hack.state hentry
    · rintro ⟨e, hget, hack⟩
      simp [HasAcknowledged, hget, hack.state] at hpending
  · simp only [withParticipant, Dict.get?_set_of_ne _ _ h]
    exact exists_congr fun e => and_congr_right fun _ =>
      ⟨fun hack => ⟨hack.state, hack.revision, hack.hashes⟩,
        fun hack => ⟨hack.state, hack.revision, hack.hashes⟩⟩

/-- A mark that does not split keeps what `status` reports on a record. -/
theorem Record.agrees_marked {record : Record F} {participant : String} {entry : Participant F}
    (hacknowledged : entry.state ≠ .acknowledged) (hfailed : entry.state ≠ .failed)
    (hnot : ¬ (participant ∈ record.required ∧ record.HasAcknowledged participant = true)) :
    record.Agrees (record.marked participant entry) := by
  have hmarked : record.marked participant entry = record.withParticipant participant entry := by
    cases hstate : entry.state <;> simp_all [marked]
  rw [hmarked]
  exact ⟨rfl, rfl, rfl, rfl, (pending_withParticipant hacknowledged hnot).symm,
    (allRequiredAcknowledged_withParticipant hacknowledged hnot).symm⟩

theorem Record.Agrees.trans {a b c : Record F} (h : a.Agrees b) (h' : b.Agrees c) : a.Agrees c :=
  ⟨h.revisionId.trans h'.revisionId, h.hashes.trans h'.hashes, h.phase.trans h'.phase,
    h.state.trans h'.state, h.pending.trans h'.pending, h.acknowledged.trans h'.acknowledged⟩

/-- What a mark leaves of a record's identity. -/
theorem Record.marked_revisionId (record : Record F) (participant : String)
    (entry : Participant F) :
    (record.marked participant entry).revisionId = record.revisionId := by
  cases hstate : entry.state <;> simp [marked, hstate, withParticipant]

/-- A call that does not split keeps the snapshot and the record in agreement. -/
theorem Store.Agrees.perform {uuid4 : IdSupply} {sha256Value : Json F → Option String}
    {store : Store F} {op : Op F} (h : store.Agrees) (hop : op.splits store = false) :
    (store.perform uuid4 sha256Value op).Agrees := by
  have hperformed := store.performed uuid4 sha256Value op
  generalize store.perform uuid4 sha256Value op = store' at hperformed ⊢
  cases hperformed with
  | unchanged => exact h
  | ackFile file content => exact h
  | created create =>
      obtain ⟨-, -, hrecords, hdesired, -⟩ := Store.create_spec create
      intro d hd
      obtain rfl := Option.some.inj (hdesired.symm.trans hd)
      exact ⟨_, by rw [read, hrecords, Dict.get?_set_self], .refl _⟩
  | @marked revisionId participant entry record known read =>
      intro d hd
      obtain ⟨r, hr, hagrees⟩ := h d hd
      have hid : record.revisionId = revisionId := store.keyed revisionId record read
      -- only a mark on the desired revision can part the record from the snapshot
      by_cases hdesired : d.revisionId = revisionId
      · obtain rfl := Option.some.inj (read.symm.trans (hdesired ▸ hr))
        have hcond : (entry.state ≠ .acknowledged ∧ entry.state ≠ .failed) ∧
            (participant ∈ record.required → record.HasAcknowledged participant = false) := by
          have hstore : store.desired = some d := hd
          simpa [Op.splits, known, hstore, hdesired, read] using hop
        refine ⟨record.marked participant entry, ?_, hagrees.trans
          (Record.agrees_marked hcond.1.1 hcond.1.2 fun hboth => ?_)⟩
        · rw [Store.read, write_records, Record.marked_revisionId, hid, hdesired,
            Dict.get?_set_self]
        · rw [hcond.2 hboth.1] at hboth
          exact absurd hboth.2 (by simp)
      · refine ⟨r, ?_, hagrees⟩
        rw [Store.read, write_records, Record.marked_revisionId, hid,
          Dict.get?_set_of_ne _ _ hdesired]
        exact hr
  | committed read ready =>
      intro d hd
      obtain rfl := Option.some.inj hd
      exact ⟨_, by simp [Store.read], .refl _⟩
  -- a rollback of a stored revision always splits the two, hence is excluded
  | rolledBack read create => simp [Op.splits, read] at hop

/-! ## The two status reports -/

/-- The part of a status report that is compared. -/
structure Verdict where
  state : SyncState
  phase : Option RevisionPhase
  inSync : Bool
  pendingParticipants : List String
  deriving DecidableEq

/-- The verdict of a status report. -/
def Status.verdict (status : Status F) : Verdict where
  state := status.state
  phase := status.phase
  inSync := status.inSync
  pendingParticipants := status.pendingParticipants

variable [PyText F]

/-- What `status` says about a record. -/
def Store.verdictOn (store : Store F) (record : Record F) : Option Verdict :=
  (store.driftDetails record).map fun drift =>
    { state := record.reportedState drift, phase := some record.phase
      inSync := record.reportedState drift = .inSync, pendingParticipants := record.pending }

/-- The verdict of `status` is the one on the record that it reads. -/
theorem Store.status_verdict {store : Store F} {revisionId : Option String} {record : Record F}
    (h : store.statusRecord revisionId = some (some record)) :
    (store.status revisionId).map Status.verdict = store.verdictOn record := by
  rw [Store.status, h, verdictOn]
  cases hdrift : store.driftDetails record <;> simp [hdrift, Status.verdict]

/-- The verdicts on records that agree are equal. -/
theorem Record.Agrees.verdictOn_eq {snapshot record : Record F} (h : snapshot.Agrees record)
    (store : Store F) : store.verdictOn snapshot = store.verdictOn record := by
  have hdrift : store.driftDetails snapshot = store.driftDetails record := by
    have hack : ackDrift snapshot = ackDrift record := by
      funext ack
      rw [ackDrift, ackDrift, h.hashes, h.revisionId]
    rw [Store.driftDetails, Store.driftDetails, hack]
  have hstate : ∀ drift, snapshot.reportedState drift = record.reportedState drift := by
    intro drift
    rw [reportedState, reportedState, h.pending, h.acknowledged, h.phase, h.state]
  simp only [Store.verdictOn, hdrift, hstate, h.phase, h.pending]

/-- In a run from the empty store in which no call splits the snapshot from the record, `status()`
and `status(d)` give the same verdict on the desired revision `d`. -/
theorem status_forms_agree (uuid4 : IdSupply) (sha256Value : Json F → Option String)
    (ops : List (Op F))
    (hops : Run.AllSteps (Store.perform uuid4 sha256Value)
      (fun store op => op.splits store = false) .empty ops)
    (d : Record F)
    (hd : (Run.run (Store.perform uuid4 sha256Value) .empty ops).desired = some d) :
    let store := Run.run (Store.perform uuid4 sha256Value) .empty ops
    (store.status none).map Status.verdict =
      (store.status (some d.revisionId)).map Status.verdict := by
  intro store
  have hempty : (Store.empty : Store F).Agrees := fun d hd => by cases hd
  have hagrees : store.Agrees := Run.run_invariant_of_allSteps Store.Agrees
    (fun _ _ h hop => h.perform hop) hempty hops
  obtain ⟨record, hread, hsame⟩ := hagrees d hd
  have hor : store.desired.or store.committed = some d := by
    rw [show store.desired = some d from hd, Option.some_or]
  have hnone : store.statusRecord none = some (some d) := by
    rw [Store.statusRecord, hor]
  -- an empty id is taken for none
  by_cases hid : d.revisionId = ""
  · have hsome : store.statusRecord (some d.revisionId) = some (some d) := by
      simp only [Store.statusRecord, hid, ↓reduceIte, hor]
    rw [store.status_verdict hnone, store.status_verdict hsome]
  · have hsome : store.statusRecord (some d.revisionId) = some (some record) := by
      simp only [Store.statusRecord, hid, ↓reduceIte, hread, Option.map_some]
    rw [store.status_verdict hnone, store.status_verdict hsome, hsame.verdictOn_eq]

/-- A report that the revision `"x"` is being applied. -/
def applyingReport : Participant ℚ :=
  { state := .applying, observedRevision := "x", observedHashes := .empty, message := "" }

/-- While `ros` is applying the revision, the two forms of `status` agree. -/
theorem status_forms_agree_applying :
    let store := Run.run (Store.perform .unary fun _ => some "h") (Store.empty (F := ℚ))
      [.create (.obj []) requiredParticipants, .mark "x" "ros" applyingReport]
    (store.status none).map Status.verdict = (store.status (some "x")).map Status.verdict :=
  status_forms_agree .unary (fun _ => some "h")
    [.create (.obj []) requiredParticipants, .mark "x" "ros" applyingReport] (by decide) _ rfl

/-- Once `ros` acknowledged, `status()` still says that nobody has. -/
theorem status_forms_split :
    ¬ ∀ (ops : List (Op ℚ)) (d : Record ℚ),
      (Run.run (Store.perform .unary fun _ => some "h") .empty ops).desired = some d →
        let store := Run.run (Store.perform .unary fun _ => some "h") .empty ops
        (store.status none).map Status.verdict =
          (store.status (some d.revisionId)).map Status.verdict := by
  intro hall
  have h := hall [.create (.obj []) requiredParticipants,
    .mark "x" "ros" { applyingReport with state := .acknowledged }] _ rfl
  revert h
  decide

end Netlab.Revisions
