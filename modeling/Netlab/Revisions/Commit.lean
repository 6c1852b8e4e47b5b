import Netlab.Prelude.Run
import Netlab.Revisions.Manager

/-!
# What is committed was acknowledged

The commit gate is the only way into the committed file, and it reads the record that it writes. So
every committed record carries, for each required participant, an acknowledgement of that revision
with all of its hashes, however the acknowledgements were interleaved, repeated or withdrawn.
-/

namespace Netlab.Revisions

variable {F : Type}

/-- What a call can do to the store. -/
inductive Performed (uuid4 : IdSupply) (sha256Value : Json F → Option String) (store : Store F) :
    Op F → Store F → Prop
  | unchanged (op : Op F) : Performed uuid4 sha256Value store op store
  | ackFile (file : AckFile) (content : Option (Json F)) :
      Performed uuid4 sha256Value store (.ackFile file content)
        { store with acks := fun f => if f = file then content else store.acks f }
  | created {candidate : Json F} {required : List String} {record : Record F} {store' : Store F}
      (create : store.create uuid4 sha256Value candidate required = some (record, store')) :
      Performed uuid4 sha256Value store (.create candidate required) store'
  | marked {revisionId participant : String} {entry : Participant F} {record : Record F}
      (known : participant ∈ requiredParticipants)
      (read : store.read revisionId = some record) :
      Performed uuid4 sha256Value store (.mark revisionId participant entry)
        (store.write (record.marked participant entry))
  | committed {revisionId : String} {record : Record F}
      (read : store.read revisionId = some record)
      (ready : record.allRequiredAcknowledged = true) :
      Performed uuid4 sha256Value store (.commit revisionId)
        { store.write { record with phase := .committed, state := .inSync } with
          committed := some { record with phase := .committed, state := .inSync }
          desired := some { record with phase := .committed, state := .inSync } }
  | rolledBack {revisionId : String} {target record : Record F} {store' : Store F}
      (read : store.read revisionId = some target)
      (create : store.create uuid4 sha256Value target.candidate requiredParticipants =
        some (record, store')) :
      Performed uuid4 sha256Value store (.rollback revisionId)
        (store'.write { record with phase := .rolledBack, state := .rolledBack })

/-- A call does one of the things that `Performed` lists. -/
theorem Store.performed (uuid4 : IdSupply) (sha256Value : Json F → Option String)
    (store : Store F) (op : Op F) :
    Performed uuid4 sha256Value store op (store.perform uuid4 sha256Value op) := by
  cases op with
  | create candidate required =>
      -- without the component hashes there is no record to create
      cases hcreate : store.create uuid4 sha256Value candidate required with
      | none => simpa [perform, hcreate] using Performed.unchanged _
      | some result => simpa [perform, hcreate] using Performed.created hcreate
  | mark revisionId participant entry =>
      by_cases hknown : participant ∈ requiredParticipants
      · -- an unknown participant and an unknown revision leave the store alone
        cases hread : store.read revisionId with
        | none => simpa [perform, markParticipant, hknown, hread] using Performed.unchanged _
        | some record =>
            simpa [perform, markParticipant, hknown, hread] using Performed.marked hknown hread
      · simpa [perform, markParticipant, hknown] using Performed.unchanged _
  | commit revisionId =>
      cases hread : store.read revisionId with
      | none => simpa [perform, commit, hread] using Performed.unchanged _
      | some record =>
          by_cases hready : record.allRequiredAcknowledged = true
          · simpa [perform, commit, hread, hready] using Performed.committed hread hready
          · simpa [perform, commit, hread, hready] using Performed.unchanged _
  | rollback revisionId =>
      cases hread : store.read revisionId with
      | none => simpa [perform, rollback, hread] using Performed.unchanged _
      | some target =>
          cases hcreate : store.create uuid4 sha256Value target.candidate requiredParticipants with
          | none => simpa [perform, rollback, hread, hcreate] using Performed.unchanged _
          | some result =>
              simpa [perform, rollback, hread, hcreate] using Performed.rolledBack hread hcreate
  | status revisionId => exact .unchanged _
  | ackFile file content => exact .ackFile file content

/-- `create` changes neither the committed revision nor the records of other ids. -/
theorem Store.create_spec {uuid4 : IdSupply} {sha256Value : Json F → Option String}
    {store store' : Store F} {candidate : Json F} {required : List String} {record : Record F}
    (h : store.create uuid4 sha256Value candidate required = some (record, store')) :
    record.state = .pendingRos ∧ record.phase = .draftSaved ∧
      store'.records = store.records.set record.revisionId record ∧
      store'.desired = some record ∧ store'.committed = store.committed := by
  cases hhashes : Hashing.componentHashes sha256Value candidate with
  | none => simp [create, hhashes] at h
  | some hashes =>
      simp only [create, hhashes, Option.bind_eq_bind, Option.bind_some, pure,
        Option.some.injEq, Prod.mk.injEq] at h
      obtain ⟨rfl, rfl⟩ := h
      exact ⟨rfl, rfl, rfl, rfl, rfl⟩

/-! ## Acknowledged records -/

/-- A participant acknowledged the revision of a record with all of its hashes. -/
structure Acknowledged (record : Record F) (entry : Participant F) : Prop where
  state : entry.state = .acknowledged
  revision : entry.observedRevision = record.revisionId
  hashes : ∀ key value, record.hashes.get? key = some value →
    entry.observedHashes.get? key = some (.str value)

theorem Record.matches_iff (record : Record F) (entry : Participant F) :
    record.Matches entry = true ↔ Acknowledged record entry := by
  have hall : (record.hashes.entries.all fun e =>
      (entry.observedHashes.get? e.1).any (Json.isStr e.2)) = true ↔
      ∀ key value, record.hashes.get? key = some value →
        entry.observedHashes.get? key = some (.str value) := by
    simp [Dict.get?_eq_some_iff, Option.any_eq_true, Json.isStr_iff]
  constructor
  · intro h
    simp only [Record.Matches, Bool.and_eq_true, decide_eq_true_eq] at h
    exact ⟨h.1.1, h.1.2, hall.mp h.2⟩
  · intro h
    simp only [Record.Matches, Bool.and_eq_true, decide_eq_true_eq]
    exact ⟨⟨h.state, h.revision⟩, hall.mpr h.hashes⟩

/-- `all_required_acknowledged` asks every required participant for a matching
acknowledgement. -/
theorem Record.allRequiredAcknowledged_iff (record : Record F) :
    record.allRequiredAcknowledged = true ↔
      ∀ name ∈ record.required, ∃ entry, record.participants.get? name = some entry ∧
        Acknowledged record entry := by
  simp [allRequiredAcknowledged, matches_iff, Option.any_eq_true]

/-- Of a record whose required participants have acknowledged, none is pending. -/
theorem Record.pending_eq_nil {record : Record F}
    (h : record.allRequiredAcknowledged = true) : record.pending = [] := by
  rw [pending, List.filter_eq_nil_iff]
  intro name hname
  obtain ⟨entry, hget, hack⟩ := record.allRequiredAcknowledged_iff.mp h name hname
  simp [hget, hack.state]

/-- A committed record: its phase, and the acknowledgement of each required participant. -/
structure CommittedRecord (record : Record F) : Prop where
  phase : record.phase = .committed
  acknowledged : ∀ name ∈ record.required, ∃ entry,
    record.participants.get? name = some entry ∧ Acknowledged record entry

/-- The record that `commit` writes is a committed record. -/
theorem CommittedRecord.of_ready {record : Record F}
    (ready : record.allRequiredAcknowledged = true) :
    CommittedRecord { record with phase := .committed, state := .inSync } := by
  refine ⟨rfl, fun name hname => ?_⟩
  obtain ⟨entry, hget, hack⟩ := record.allRequiredAcknowledged_iff.mp ready name hname
  exact ⟨entry, hget, ⟨hack.state, hack.revision, hack.hashes⟩⟩

/-- A call leaves the committed revision, or is a `commit` that writes a committed record. -/
theorem Performed.committed_cases {uuid4 : IdSupply} {sha256Value : Json F → Option String}
    {store store' : Store F} {op : Op F} (h : Performed uuid4 sha256Value store op store') :
    store'.committed = store.committed ∨
      ∃ revisionId record, op = .commit revisionId ∧
        store.commit revisionId = some (record, store') ∧ store'.committed = some record ∧
        CommittedRecord record := by
  cases h with
  | unchanged => exact Or.inl rfl
  | ackFile file content => exact Or.inl rfl
  | created create => exact Or.inl (Store.create_spec create).2.2.2.2
  | marked known read => exact Or.inl rfl
  | committed read ready =>
      refine Or.inr ⟨_, _, rfl, ?_, rfl, .of_ready ready⟩
      simp [Store.commit, read, ready]
  | rolledBack read create => exact Or.inl (Store.create_spec create).2.2.2.2

/-- In a store that any calls reached from the empty one, perform one more call. A call that changes
the committed file is a `commit`, and the record that it writes there, like every record found
there, has phase `COMMITTED` and an acknowledgement of its own revision with all of its hashes from
each required participant. -/
theorem committed_acknowledged (uuid4 : IdSupply) (sha256Value : Json F → Option String)
    (ops : List (Op F)) (op : Op F) :
    let store := Run.run (Store.perform uuid4 sha256Value) .empty ops
    let store' := store.perform uuid4 sha256Value op
    (∀ record, store'.committed = some record → CommittedRecord record) ∧
      (store'.committed = store.committed ∨
        ∃ revisionId record, op = .commit revisionId ∧
          store.commit revisionId = some (record, store') ∧ store'.committed = some record ∧
          CommittedRecord record) := by
  intro store store'
  -- an operation leaves the committed record as it is, or commits one that is acknowledged
  have hstep : ∀ (s : Store F) (op : Op F),
      (∀ record, s.committed = some record → CommittedRecord record) →
      ∀ record, (s.perform uuid4 sha256Value op).committed = some record →
        CommittedRecord record := by
    intro s op hs record hrecord
    rcases (s.performed uuid4 sha256Value op).committed_cases with heq | ⟨_, r, _, _, heq, hr⟩
    · exact hs record (heq ▸ hrecord)
    · obtain rfl := Option.some.inj (heq.symm.trans hrecord)
      exact hr
  have hstart : ∀ record, (Store.empty : Store F).committed = some record →
      CommittedRecord record := fun record h => by cases h
  have hstore := Run.run_invariant
    (fun s : Store F => ∀ record, s.committed = some record → CommittedRecord record)
    hstep hstart ops
  exact ⟨hstep store op hstore, (store.performed uuid4 sha256Value op).committed_cases⟩

end Netlab.Revisions
