import Netlab.Hashing
import Netlab.Models

/-!
# The revision manager

`RevisionManager` of `netlab/revisions.py`: a store of revision records with the desired and the
committed revision, and the calls that create a revision, record what a participant reports, commit,
roll back, and derive the synchronization status. A call that raises gives `none` and leaves the
store as it is.

The files that the manager only writes (`netlab_reconciliation_state.json`) and the record fields
that it never reads (command ids, reasons, time stamps, ack details) are left out. Revision ids are
opaque names of record files.
-/

namespace Netlab.Revisions

variable {F : Type}

/-- What a participant reported last (`ParticipantState`); `other` holds a text that is none of the
values of the enumeration. -/
inductive ParticipantState
  | notRequired
  | pending
  | applying
  | acknowledged
  | failed
  | stale
  | other (text : String)
  deriving DecidableEq

/-- How far a revision got (`RevisionPhase`, as far as the manager sets it). -/
inductive RevisionPhase
  | draftSaved
  | appliedToRos
  | appliedToSionna
  | appliedToIsaac
  | committed
  | failed
  | rolledBack
  deriving DecidableEq

/-- The `state` of a record or of a status report. -/
inductive SyncState
  | pendingRos
  | pendingSionna
  | pendingIsaac
  | inSync
  | failed
  | rolledBack
  | driftDetected
  | readyToCommit
  | noRevision
  deriving DecidableEq

/-- `REQUIRED_PARTICIPANTS`. -/
def requiredParticipants : List String := ["ros", "sionna", "isaac"]

/-- An entry of `record["participants"]`. -/
structure Participant (F : Type) where
  state : ParticipantState
  observedRevision : String
  observedHashes : Dict String (Json F)
  message : String

/-- A revision record. -/
structure Record (F : Type) where
  revisionId : String
  parentRevisionId : String
  phase : RevisionPhase
  state : SyncState
  hashes : Dict String String
  candidate : Json F
  requiredParticipants : List String
  participants : Dict String (Participant F)

/-- The files in which the participants leave their acknowledgements. -/
inductive AckFile
  /-- `revision_ros_ack.json` -/
  | revisionRos
  /-- `snaas_ros_revision_ack.json` -/
  | ros
  /-- `snaas_sionna_revision_ack.json` -/
  | sionna
  /-- `snaas_isaac_sync_ack.json` -/
  | isaac
  deriving DecidableEq

/-- What the manager finds on disk. A missing or unreadable ack file is `none`. -/
structure Store (F : Type) where
  records : Dict String (Record F)
  /-- a record is filed under its own revision id -/
  keyed : ∀ id record, records.get? id = some record → record.revisionId = id
  desired : Option (Record F)
  committed : Option (Record F)
  acks : AckFile → Option (Json F)
  /-- the number of revision ids drawn so far -/
  draws : ℕ

/-- The store before the first revision. -/
def Store.empty : Store F :=
  { records := .empty, keyed := fun _ _ h => by simp at h
    desired := none, committed := none, acks := fun _ => none, draws := 0 }

namespace Record

/-- The participants that have to acknowledge: those of the record, or all three. -/
def required (record : Record F) : List String :=
  if record.requiredParticipants = [] then Revisions.requiredParticipants
  else record.requiredParticipants

/-- The check of `all_required_acknowledged` on one participant. -/
def Matches (record : Record F) (entry : Participant F) : Bool :=
  entry.state = .acknowledged && entry.observedRevision = record.revisionId &&
    record.hashes.entries.all fun e => (entry.observedHashes.get? e.1).any (Json.isStr e.2)

/-- `all_required_acknowledged`. -/
def allRequiredAcknowledged (record : Record F) : Bool :=
  record.required.all fun name => (record.participants.get? name).any record.Matches

/-- The required participants that have not acknowledged. -/
def pending (record : Record F) : List String :=
  record.required.filter fun name =>
    !(record.participants.get? name).any fun entry => entry.state = .acknowledged

/-- Store what a participant reports. -/
def withParticipant (record : Record F) (name : String) (entry : Participant F) : Record F :=
  { record with participants := record.participants.set name entry }

end Record

/-- The state that the acknowledgement of a participant leads to. -/
def stateAfterAck (participant : String) : SyncState :=
  if participant = "ros" then .pendingSionna
  else if participant = "sionna" then .pendingIsaac
  else .inSync

/-- `APPLIED_TO_` with the name of the participant. -/
def phaseAfterAck (participant : String) : RevisionPhase :=
  if participant = "ros" then .appliedToRos
  else if participant = "sionna" then .appliedToSionna
  else .appliedToIsaac

/-- The record after `mark_participant` entered a report. -/
def Record.marked (record : Record F) (participant : String) (entry : Participant F) : Record F :=
  let record := record.withParticipant participant entry
  match entry.state with
  | .acknowledged =>
      { record with state := stateAfterAck participant, phase := phaseAfterAck participant }
  | .failed => { record with state := .failed, phase := .failed }
  | _ => record

namespace Store

/-- `write`. -/
def write (store : Store F) (record : Record F) : Store F :=
  { store with
    records := store.records.set record.revisionId record
    keyed := by
      intro id r hr
      rw [Dict.get?_set] at hr
      split at hr
      · rename_i hid
        rw [← Option.some.inj hr, hid]
      · exact store.keyed id r hr }

@[simp] theorem write_records (store : Store F) (record : Record F) :
    (store.write record).records = store.records.set record.revisionId record := rfl

/-- `read`: an unknown revision raises. -/
def read (store : Store F) (revisionId : String) : Option (Record F) :=
  store.records.get? revisionId

variable (uuid4 : IdSupply) (sha256Value : Json F → Option String)

/-- The entry of a participant that has not reported yet. -/
def pendingParticipant : Participant F :=
  { state := .pending, observedRevision := "", observedHashes := .empty, message := "" }

/-- `create`. -/
def create (store : Store F) (candidate : Json F) (required : List String) :
    Option (Record F × Store F) := do
  let hashes ← Hashing.componentHashes sha256Value candidate
  let record : Record F :=
    { revisionId := uuid4.id store.draws
      -- the parent is the revision that is committed now
      parentRevisionId := (store.committed.map (·.revisionId)).getD ""
      phase := .draftSaved
      state := .pendingRos
      hashes
      candidate
      requiredParticipants := required
      participants := .ofList (required.map fun name => (name, pendingParticipant)) }
  return (record, { store.write record with desired := some record, draws := store.draws + 1 })

/-- `mark_participant`. -/
def markParticipant (store : Store F) (revisionId participant : String) (entry : Participant F) :
    Option (Record F × Store F) := do
  guard (participant ∈ requiredParticipants)
  let record := (← store.read revisionId).marked participant entry
  return (record, store.write record)

/-- `commit`. -/
def commit (store : Store F) (revisionId : String) : Option (Record F × Store F) := do
  let record ← store.read revisionId
  guard record.allRequiredAcknowledged
  let record := { record with phase := .committed, state := .inSync }
  return (record,
    { store.write record with committed := some record, desired := some record })

/-- `rollback`: the candidate of an earlier revision becomes a new one. -/
def rollback (store : Store F) (revisionId : String) : Option (Record F × Store F) := do
  let target ← store.read revisionId
  let (record, store) ← store.create uuid4 sha256Value target.candidate requiredParticipants
  let record := { record with phase := .rolledBack, state := .rolledBack }
  return (record, store.write record)

end Store

/-! ## The status report -/

/-- How an ack file departs from a record (`_ack_drift`). -/
structure AckDrift where
  revisionMismatch : Bool
  expectedRevision : String
  observedRevision : String
  /-- the hash keys that are missing or different -/
  hashMismatches : List (String × Json.Found)

/-- The answer of `status`. -/
structure Status (F : Type) where
  revisionId : Option String
  state : SyncState
  phase : Option RevisionPhase
  inSync : Bool
  pendingParticipants : List String
  participants : Dict String (Participant F)
  driftParticipants : List String
  driftDetails : List (String × AckDrift)
  hashes : Dict String String

section Drift

variable [PyText F]

/-- The revision that an acknowledgement names, under one of two keys. -/
def ackRevision (ack : Dict String (Json F)) : String :=
  (((ack.get? "revision_id").getD .null).orElse
    (((ack.get? "revision").getD .null).orElse (.str ""))).toText

/-- `_ack_drift`. -/
def ackDrift (record : Record F) (ack : Dict String (Json F)) : Option AckDrift := do
  let observedRevision := ackRevision ack
  let observedHashes := ((ack.get? "applied_hashes").getD .null).orElse
    (((ack.get? "observed_hashes").getD .null).orElse
      (((ack.get? "hashes").getD .null).orElse (.obj [])))
  let found ← record.hashes.entries.mapM fun (key, expected) => do
    return (key, ← observedHashes.find? key expected)
  return {
    -- a file without a revision is not from another one
    revisionMismatch := observedRevision ≠ "" ∧ observedRevision ≠ record.revisionId
    expectedRevision := record.revisionId
    observedRevision
    hashMismatches := found.filter fun e => e.2 ≠ .equal }

/-- The files that `status` compares with the record. -/
def participantAckFiles : List (String × AckFile) :=
  [("ros", .ros), ("sionna", .sionna), ("isaac", .isaac)]

/-- What an ack file holds: `read_json(path, {}) or {}`. -/
def Store.readAck (store : Store F) (file : AckFile) : Json F :=
  ((store.acks file).getD (.obj [])).orElse (.obj [])

/-- The participants whose ack file departs from the record, with the details. -/
def Store.driftDetails (store : Store F) (record : Record F) :
    Option (List (String × AckDrift)) := do
  let details ← participantAckFiles.mapM fun (name, file) => do
    let ack ← (store.readAck file).dict?
    if ack.entries.isEmpty then return (name, none)
    else return (name, some (← ackDrift record ack))
  return details.filterMap fun (name, detail) =>
    detail.bind fun detail =>
      if detail.revisionMismatch || !detail.hashMismatches.isEmpty then some (name, detail) else none

/-- The state that `status` derives from a record and the drift of its participants. -/
def Record.reportedState (record : Record F) (drift : List (String × AckDrift)) : SyncState :=
  if drift ≠ [] then .driftDetected
  else if record.pending = [] ∧ record.allRequiredAcknowledged then
    if record.phase = .committed then .inSync else .readyToCommit
  else record.state

/-- The record that `status` reports on: the one named, else the desired or the committed one. -/
def Store.statusRecord (store : Store F) : Option String → Option (Option (Record F))
  | some id => if id = "" then some (store.desired.or store.committed) else (store.read id).map some
  | none => some (store.desired.or store.committed)

/-- `status`. -/
def Store.status (store : Store F) (revisionId : Option String) : Option (Status F) := do
  match ← store.statusRecord revisionId with
  | none =>
      return {
        revisionId := none, state := .noRevision, phase := none, inSync := false
        pendingParticipants := requiredParticipants, participants := .empty
        driftParticipants := [], driftDetails := [], hashes := .empty }
  | some record =>
      let drift ← store.driftDetails record
      let state := record.reportedState drift
      return {
        revisionId := some record.revisionId, state, phase := some record.phase
        inSync := state = .inSync
        pendingParticipants := record.pending, participants := record.participants
        driftParticipants := (drift.map Prod.fst).mergeSort
        driftDetails := drift, hashes := record.hashes }

end Drift

/-! ## Runs -/

/-- A call of the manager, or a participant that replaces an ack file. -/
inductive Op (F : Type)
  | create (candidate : Json F) (required : List String)
  | mark (revisionId participant : String) (entry : Participant F)
  | commit (revisionId : String)
  | rollback (revisionId : String)
  | status (revisionId : Option String)
  | ackFile (file : AckFile) (content : Option (Json F))

/-- The store after a call; a call that raises leaves it as it is, and so does `status`. -/
def Store.perform (uuid4 : IdSupply) (sha256Value : Json F → Option String) (store : Store F) :
    Op F → Store F
  | .create candidate required =>
      ((store.create uuid4 sha256Value candidate required).map Prod.snd).getD store
  | .mark revisionId participant entry =>
      ((store.markParticipant revisionId participant entry).map Prod.snd).getD store
  | .commit revisionId => ((store.commit revisionId).map Prod.snd).getD store
  | .rollback revisionId => ((store.rollback uuid4 sha256Value revisionId).map Prod.snd).getD store
  -- asking for the status writes nothing
  | .status _ => store
  | .ackFile file content =>
      { store with acks := fun f => if f = file then content else store.acks f }

end Netlab.Revisions
