import Netlab.Hashing
import Netlab.Models

/-!
# The synchronization coordinator

`RevisionStore` of `netlab/revisions.py` and `SynchronizationCoordinator` of
`netlab/synchronization.py`: a candidate configuration becomes a revision, the participants are
asked in turn to apply it, and the store makes it current when its own check of the acknowledgements
passes. This is the commit protocol of the acceptance run; the Mission Control backend uses the
revision manager instead.

What a participant answers in a call is part of the call. Idempotency keys, time stamps and the
details of an acknowledgement are stored by the source but never read, and are left out.
-/

namespace Netlab.Coordination

variable {F : Type}

/-- How far a revision got (`RevisionStatus`, as far as the coordinator sets it). -/
inductive RevisionStatus
  | draftSaved
  | validated
  | pendingRuntimeApply
  | pendingRos
  | pendingSionna
  | pendingIsaac
  | appliedToRos
  | appliedToSionna
  | appliedToIsaac
  | driftDetected
  | inSync
  | committed
  | degraded
  | rolledBack
  deriving DecidableEq, Repr

/-- How far a command got (`CommandStatus`, as far as the coordinator sets it). -/
inductive CommandStatus
  | created
  | validating
  | dispatching
  | waitingForAck
  | partiallyApplied
  | completed
  | failed
  deriving DecidableEq, Repr

/-- What a participant returns (`ParticipantAck`). Nothing makes `observedHashes` a mapping. -/
structure ParticipantAck (F : Type) where
  participant : String
  revisionId : String
  accepted : Bool
  observedHashes : Json F
  message : String

/-- The error of a revision that was not committed. -/
inductive RevisionFailure
  /-- the code ends in `_ACK_FAILED` and begins with the participant in capitals -/
  | ackFailed (participant message : String)
  /-- `REVISION_DRIFT` -/
  | revisionDrift (message : String)
  deriving DecidableEq

/-- A configuration on its way to the participants (`Revision`). -/
structure Revision (F : Type) where
  revisionId : String
  parentRevisionId : String
  commandId : String
  hashes : Dict String String
  candidate : Json F
  status : RevisionStatus := .draftSaved
  initiator : String
  acknowledgements : Dict String (ParticipantAck F) := .empty
  error : Option RevisionFailure := none

/-- The request that a revision belongs to (`Command`). -/
structure Command (F : Type) where
  commandId : String
  initiator : String := "operator"
  requestedRevision : String := ""
  status : CommandStatus := .created
  acknowledgements : Dict String (ParticipantAck F) := .empty
  error : Option RevisionFailure := none
  resultingRevision : String := ""

/-! ## The store -/

/-- The files of a `RevisionStore`. -/
structure RevisionStore (F : Type) where
  revisions : Dict String (Revision F)
  current : Option (Revision F)
  desired : Option (Revision F)
  /-- the number of revision ids drawn so far -/
  draws : ℕ

namespace RevisionStore

/-- The store without revisions. -/
def empty : RevisionStore F :=
  { revisions := .empty, current := none, desired := none, draws := 0 }

/-- `save`. -/
def save (store : RevisionStore F) (r : Revision F) : RevisionStore F :=
  { store with revisions := store.revisions.set r.revisionId r }

/-- `create`: a new revision becomes the desired one. A candidate without a canonical text
raises. -/
def create (uuid4 : IdSupply) (sha256Value : Json F → Option String) (store : RevisionStore F)
    (candidate : Json F) (commandId initiator : String) :
    Option (Revision F × RevisionStore F) := do
  let hashes ← Hashing.componentHashes sha256Value candidate
  let r : Revision F :=
    { revisionId := uuid4.id store.draws
      parentRevisionId := (store.current.map (·.revisionId)).getD ""
      commandId, hashes, candidate, initiator }
  return (r, { store.save r with desired := some r, draws := store.draws + 1 })

variable [PyText F]

/-- What `commit` reads of an acknowledgement: `ack.get("observed_hashes") or {}`. -/
def observedHashes (ack : ParticipantAck F) : Json F := ack.observedHashes.orElse (.obj [])

/-- The hash keys of a revision with what an acknowledgement says about each; raises when the
observed hashes are not of a kind that can be searched. -/
def hashFindings (r : Revision F) (ack : ParticipantAck F) :
    Option (List (String × Json.Found)) :=
  r.hashes.entries.mapM fun e => do
    return (e.1, ← (observedHashes ack).find? e.1 e.2)

/-- The check of `commit` on one participant: whether it is missing, and the hash keys on which it
differs. A key that the acknowledgement does not mention is not counted. -/
def checkParticipant (r : Revision F) (name : String) : Option (Bool × List String) :=
  match r.acknowledgements.get? name with
  | none => some (true, [])
  | some ack =>
      if !ack.accepted then some (true, [])
      else do
        let findings ← hashFindings r ack
        return (false, (findings.filter fun e => e.2 = .different).map Prod.fst)

/-- The missing participants and the mismatches that `commit` collects. -/
def checkAll (r : Revision F) : List String → Option (List String × List (String × String))
  | [] => some ([], [])
  | name :: rest => do
      let (missing, keys) ← checkParticipant r name
      let (names, entries) ← checkAll r rest
      return (if missing then name :: names else names, keys.map (fun key => (name, key)) ++ entries)

/-- Why `commit` refuses a revision (`RevisionError`). -/
inductive Refusal
  | missing (participants : List String)
  | mismatch (entries : List (String × String))
  deriving DecidableEq

/-- The text of a refusal. -/
def Refusal.message : Refusal → String
  | missing participants =>
      "Missing participant acknowledgement: " ++ String.intercalate ", " participants
  | mismatch entries =>
      "Observed-state hash mismatch: " ++
        String.intercalate ", " (entries.map fun e => e.1 ++ ":" ++ e.2)

/-- `commit`: the revision becomes the current one unless a participant is missing or a hash
differs. -/
def commit (store : RevisionStore F) (r : Revision F) (participants : List String) :
    Option (Except Refusal (Revision F × RevisionStore F)) := do
  let (missing, mismatch) ← checkAll r participants
  if missing ≠ [] then return .error (.missing missing)
  else if mismatch ≠ [] then return .error (.mismatch mismatch)
  else
    let r := { r with status := .committed }
    return .ok (r, { store.save r with current := some r })

end RevisionStore

/-! ## The coordinator -/

/-- The stage in a status report. -/
inductive Stage
  | validated
  /-- `WAITING_FOR_` and the participant in capitals -/
  | waitingFor (participant : String)
  | degraded
  | driftDetected
  | committed
  deriving DecidableEq

/-- The content of `synchronization_status.json`. -/
structure StatusReport (F : Type) where
  revisionId : String
  stage : Stage
  status : RevisionStatus
  hashes : Dict String String
  acknowledgements : Dict String (ParticipantAck F)
  failedParticipant : Option String := none

/-- The store of the coordinator and its status file. -/
structure Coordinator (F : Type) where
  store : RevisionStore F
  status : Option (StatusReport F)

/-- A coordinator with an empty store. -/
def Coordinator.empty : Coordinator F := { store := .empty, status := none }

/-- A participant with what it answers in a call; `none` when it raises. -/
structure Participant (F : Type) where
  name : String
  answer : Option (ParticipantAck F)

/-- A call of `apply`. -/
structure Call (F : Type) where
  candidate : Json F
  command : Command F
  participants : List (Participant F)

/-- How a call of `apply` ends. -/
inductive Ending
  /-- with an exception -/
  | raised
  /-- a participant did not accept -/
  | rejected
  /-- the store refused to commit -/
  | drifted
  | committed
  deriving DecidableEq

/-- The state of a call of `apply`: the coordinator, the revision and the command it works on, and
the participants contacted so far. -/
structure Progress (F : Type) where
  coordinator : Coordinator F
  revision : Revision F
  command : Command F
  contacted : List String

/-- What a call leaves behind. A call that raises before there is a revision has none. -/
structure Result (F : Type) where
  coordinator : Coordinator F
  revision : Option (Revision F)
  command : Command F
  contacted : List String
  ending : Ending

/-- The status that the turn of a participant begins with. -/
def pendingStatus (name : String) : RevisionStatus :=
  if name = "ros" then .pendingRos
  else if name = "sionna" then .pendingSionna
  else if name = "isaac" then .pendingIsaac
  else .pendingRuntimeApply

/-- The status after a participant accepted. -/
def appliedStatus (name : String) : RevisionStatus :=
  if name = "ros" then .appliedToRos
  else if name = "sionna" then .appliedToSionna
  else if name = "isaac" then .appliedToIsaac
  else .pendingRuntimeApply

namespace Progress

/-- Replace the revision and save it. -/
def saveRevision (p : Progress F) (revision : Revision F) : Progress F :=
  { p with
    revision
    coordinator := { p.coordinator with store := p.coordinator.store.save revision } }

/-- `_status`: write the status file. -/
def report (p : Progress F) (stage : Stage) (failedParticipant : Option String) :
    Progress F :=
  { p with
    coordinator := { p.coordinator with
      status := some {
        revisionId := p.revision.revisionId
        stage
        status := p.revision.status
        hashes := p.revision.hashes
        acknowledgements := p.revision.acknowledgements
        failedParticipant } } }

/-- The turn of a participant begins. -/
def announce (p : Progress F) (name : String) : Progress F :=
  let p := p.saveRevision { p.revision with status := pendingStatus name }
  let p := { p with command := { p.command with status := .waitingForAck } }
  { p.report (.waitingFor name) none with contacted := p.contacted ++ [name] }

/-- `RevisionStore.acknowledge`: file an acknowledgement under the name it carries. -/
def acknowledge (p : Progress F) (ack : ParticipantAck F) : Progress F :=
  p.saveRevision { p.revision with
    acknowledgements := p.revision.acknowledgements.set ack.participant ack }

/-- The command takes over the acknowledgement filed under a name; raises when there is none. -/
def takeOver (p : Progress F) (name : String) : Option (Progress F) := do
  let ack ← p.revision.acknowledgements.get? name
  return { p with
    command := { p.command with acknowledgements := p.command.acknowledgements.set name ack } }

/-- A participant did not accept. -/
def reject (p : Progress F) (name message : String) : Progress F :=
  let failure := RevisionFailure.ackFailed name message
  let p := p.saveRevision { p.revision with status := .degraded, error := some failure }
  let p := { p with command := { p.command with
    status := .partiallyApplied, error := some failure } }
  p.report .degraded (some name)

/-- The loop of `apply` over the participants. It goes on to the next one, with `none` for the
ending, unless the call ends here. -/
def contact (p : Progress F) : List (Participant F) → Progress F × Option Ending
  | [] => (p, none)
  | participant :: rest =>
      let p := p.announce participant.name
      match participant.answer with
      | none => (p, some .raised)
      | some ack =>
          -- an acknowledgement of another revision is an error of the protocol
          if ack.revisionId ≠ p.revision.revisionId then (p, some .raised)
          else
            let p := p.acknowledge ack
            match p.takeOver participant.name with
            | none => (p, some .raised)
            | some p =>
                if !ack.accepted then (p.reject participant.name ack.message, some .rejected)
                else
                  let p := p.saveRevision
                    { p.revision with status := appliedStatus participant.name }
                  contact p rest

variable [PyText F]

/-- The end of `apply`, after every participant accepted. -/
def conclude (p : Progress F) (participants : List String) : Progress F × Ending :=
  let p := p.saveRevision { p.revision with status := .inSync }
  match p.coordinator.store.commit p.revision participants with
  | none => (p, .raised)
  | some (.error refusal) =>
      let failure := RevisionFailure.revisionDrift refusal.message
      -- the store refuses when an acknowledgement is missing or disagrees
      let p := p.saveRevision { p.revision with status := .driftDetected, error := some failure }
      let p := { p with command := { p.command with status := .failed, error := some failure } }
      (p.report .driftDetected none, .drifted)
  | some (.ok (revision, store)) =>
      let p := { p with
        revision
        coordinator := { p.coordinator with store }
        command := { p.command with
          status := .completed, resultingRevision := revision.revisionId } }
      (p.report .committed none, .committed)

end Progress

namespace Coordinator

variable [PyText F] (uuid4 : IdSupply) (sha256Value : Json F → Option String)

/-- The part of `apply` before the first participant: the revision is created, saved and reported
as validated. -/
def start (c : Coordinator F) (call : Call F) : Option (Progress F) := do
  let (revision, store) ← c.store.create uuid4 sha256Value call.candidate call.command.commandId
    call.command.initiator
  let p : Progress F :=
    { coordinator := { c with store }, revision, contacted := []
      command := { call.command with
        status := .dispatching, requestedRevision := revision.revisionId } }
  return (p.saveRevision { revision with status := .validated }).report .validated none

/-- `apply`. -/
def apply (c : Coordinator F) (call : Call F) : Result F :=
  match c.start uuid4 sha256Value call with
  | none =>
      { coordinator := c, revision := none, contacted := [], ending := .raised
        command := { call.command with status := .validating } }
  | some p =>
      let (p, ending) :=
        match p.contact call.participants with
        | (p, some ending) => (p, ending)
        -- every participant has accepted
        | (p, none) => p.conclude (call.participants.map Participant.name)
      { coordinator := p.coordinator, revision := some p.revision, command := p.command
        contacted := p.contacted, ending }

/-- The coordinator after a call. -/
def perform (c : Coordinator F) (call : Call F) : Coordinator F :=
  (c.apply uuid4 sha256Value call).coordinator

end Coordinator

/-- The answer of `inspect`. -/
structure Inspection (F : Type) where
  desiredRevision : String
  committedRevision : String
  inSync : Bool
  status : Option (StatusReport F)

/-- `inspect`. -/
def Coordinator.inspect (c : Coordinator F) : Inspection F where
  desiredRevision := (c.store.desired.map (·.revisionId)).getD ""
  committedRevision := (c.store.current.map (·.revisionId)).getD ""
  inSync :=
    match c.store.desired, c.store.current with
    | some desired, some current => desired.revisionId = current.revisionId
    | _, _ => false
  status := c.status

end Netlab.Coordination
