import Netlab.Revisions.Manager

/-!
# The runtime synchronizer

`RuntimeSynchronizer.apply` of `netlab/synchronization.py`: ask `ros`, `sionna` and `isaac` in turn
to apply one revision, enter what they answer into the record, and report whether the revision can
be committed. `ros` and `isaac` answer through files that are polled until a deadline, `sionna`
answers an HTTP request.

The participants are the environment. A `Poll` tells which ack files are replaced before each read,
and the number of polls of a wait is arbitrary. The flag `fresh` of an answer, which the program
does not see, tells whether it was given during the call or was left over in a file. The requests
that the synchronizer writes for the participants, and its own copy of the transaction, are left
out.
-/

namespace Netlab.Synchronization

open Revisions

variable {F : Type}

/-- A participant replaces an ack file, or removes it. -/
abbrev Write (F : Type) := AckFile × Option (Json F)

/-- The writes that happen in one round of a wait, before each file is read. -/
abbrev Poll (F : Type) := AckFile → List (Write F)

/-- How the participants behave during one call of `apply`. -/
structure Environment (F : Type) where
  /-- the rounds of the wait for `ros` -/
  ros : List (Poll F)
  /-- the answer of `sionna`, or the text of the exception that the request raised -/
  sionna : Except String (Json F)
  /-- the rounds of the wait for `isaac` -/
  isaac : List (Poll F)

/-- The ack files, and which of them were written since the call began. -/
structure Watch (F : Type) where
  acks : AckFile → Option (Json F)
  written : AckFile → Bool

/-- What a participant answered; an empty dictionary stands for no answer. -/
structure Answer (F : Type) where
  ack : Dict String (Json F)
  fresh : Bool

/-- The files after some writes. -/
def Watch.after (watch : Watch F) (writes : List (Write F)) : Watch F :=
  writes.foldl (fun watch (file, content) =>
    { acks := fun f => if f = file then content else watch.acks f
      written := fun f => f = file || watch.written f }) watch

section

variable [PyText F]

/-- `read_json(path, {}) or {}`, which has to be a mapping. -/
def Watch.read (watch : Watch F) (file : AckFile) : Option (Dict String (Json F)) :=
  (((watch.acks file).getD (.obj [])).orElse (.obj [])).dict?

/-- One round of `_wait_ack` over the remaining paths. The flag tells whether the answer names the
revision, which ends the wait; otherwise it is the latest one seen. -/
def pollFiles (revisionId : String) (poll : Poll F) :
    List AckFile → Watch F → Answer F → Option (Watch F × Answer F × Bool)
  | [], watch, latest => some (watch, latest, false)
  | file :: files, watch, latest => do
      let watch := watch.after (poll file)
      let value ← watch.read file
      let answer : Answer F := { ack := value, fresh := watch.written file }
      if ackRevision value = revisionId then some (watch, answer, true)
      else pollFiles revisionId poll files watch (if value.entries.isEmpty then latest else answer)

/-- `_wait_ack`: poll the files until one names the revision or the deadline passes. -/
def waitAck (files : List AckFile) (revisionId : String) :
    List (Poll F) → Watch F → Answer F → Option (Watch F × Answer F)
  | [], watch, latest => some (watch, latest)
  | poll :: polls, watch, latest => do
      let (watch, latest, found) ← pollFiles revisionId poll files watch latest
      if found then some (watch, latest) else waitAck files revisionId polls watch latest

/-- No answer. -/
def noAnswer : Answer F := { ack := .empty, fresh := false }

/-- Whether an acknowledgement says that the revision was accepted. -/
def ackAccepted (ack : Dict String (Json F)) : Bool :=
  ((ack.get? "accepted").getD ((ack.get? "ok").getD ((ack.get? "ready").getD (.bool false)))).truthy

/-- `_mark_from_ack`: the entry that an acknowledgement leads to. -/
def entryOfAck (ack : Dict String (Json F)) : Option (Participant F) := do
  -- the first of the three fields that is there and not empty
  let observedHashes := ((ack.get? "observed_hashes").getD .null).orElse
    (((ack.get? "applied_hashes").getD .null).orElse
      (((ack.get? "hashes").getD .null).orElse (.obj [])))
  return {
    state := if ackAccepted ack then .acknowledged else .failed
    observedRevision := ackRevision ack
    observedHashes := ← observedHashes.toDict?
    message := (((ack.get? "message").getD .null).orElse
      (((ack.get? "error").getD .null).orElse (.str ""))).toText }

/-- One of the three participant calls: how it is asked, and which answers it enters into the
record. -/
structure Call (F : Type) where
  name : String
  ask : Watch F → Option (Watch F × Answer F)
  marks : Dict String (Json F) → Bool

/-- `_apply_ros`. -/
def applyRos (env : Environment F) (revisionId : String) : Call F where
  name := "ros"
  ask watch := waitAck [.revisionRos, .ros] revisionId env.ros watch noAnswer
  marks ack := !ack.entries.isEmpty

/-- What `_apply_sionna` takes for the answer when the request raised an exception. -/
def unreachable (revisionId message : String) : Dict String (Json F) :=
  .ofList [("ok", .bool false), ("accepted", .bool false), ("message", .str message),
    ("revision_id", .str revisionId)]

/-- `_apply_sionna`: only a positive answer is entered. -/
def applySionna (env : Environment F) (revisionId : String) : Call F where
  name := "sionna"
  ask watch :=
    match env.sionna with
    | .error message => some (watch, { ack := unreachable revisionId message, fresh := true })
    | .ok response => do
        return (watch, { ack := ← response.dict?, fresh := true })
  marks ack :=
    ((ack.get? "ok").getD .null).truthy || ((ack.get? "accepted").getD .null).truthy

/-- `_apply_isaac`: the candidate has to be a mapping, since it is copied for the scene
controller. -/
def applyIsaac (env : Environment F) (record : Record F) : Call F where
  name := "isaac"
  ask watch := do
    let _ ← (record.candidate.orElse (.obj [])).toDict?
    waitAck [.isaac] record.revisionId env.isaac watch noAnswer
  marks ack := !ack.entries.isEmpty

/-- The participant calls of `apply`, in order. -/
def calls (env : Environment F) (record : Record F) : List (Call F) :=
  [applyRos env record.revisionId, applySionna env record.revisionId, applyIsaac env record]

/-- Whether `apply` counts an answer as an acknowledgement of the revision. -/
def Answer.accepted (answer : Answer F) (revisionId : String) : Bool :=
  !answer.ack.entries.isEmpty &&
    ((answer.ack.get? "revision_id").or (answer.ack.get? "revision")).any (Json.isStr revisionId) &&
    ackAccepted answer.ack

/-- The entry of `participants` in the transaction. -/
structure CallResult (F : Type) where
  accepted : Bool
  acknowledgement : Answer F

/-- Enter an answer into the record, if the call does so. -/
def Call.enter (call : Call F) (store : Store F) (revisionId : String) (answer : Answer F) :
    Option (Store F) :=
  if call.marks answer.ack then do
    let entry ← entryOfAck answer.ack
    (store.markParticipant revisionId call.name entry).map Prod.snd
  else some store

/-- The loop of `apply` over the participant calls. -/
def applyCalls (revisionId : String) (offlineIsPending : Bool) :
    List (Call F) → Store F → Watch F →
      Option (Store F × Watch F × List (String × CallResult F))
  | [], store, watch => some (store, watch, [])
  | call :: calls, store, watch => do
      let (watch, answer) ← call.ask watch
      let store ← call.enter store revisionId answer
      let accepted := answer.accepted revisionId
      let result := (call.name, { accepted, acknowledgement := answer : CallResult F })
      -- the participants after it are not asked
      if !accepted && !offlineIsPending then return (store, watch, [result])
      else
        let (store, watch, results) ← applyCalls revisionId offlineIsPending calls store watch
        return (store, watch, result :: results)

/-- The transaction that `apply` returns. -/
structure Transaction (F : Type) where
  revisionId : String
  committable : Bool
  pending : List String
  participants : List (String × CallResult F)
  synchronization : Status F
  error : Option (String × String × List String)

/-- `apply`. -/
def apply (store : Store F) (record : Record F) (env : Environment F)
    (offlineIsPending : Bool) : Option (Transaction F × Store F) := do
  let revisionId := record.revisionId
  let watch : Watch F := { acks := store.acks, written := fun _ => false }
  let (store, watch, results) ←
    applyCalls revisionId offlineIsPending (calls env record) store watch
  let store := { store with acks := watch.acks }
  let pending := (results.filter fun r => !r.2.accepted).map Prod.fst
  -- what counts is the record as it has been marked
  let current ← store.read revisionId
  let transaction : Transaction F :=
    { revisionId, committable := current.allRequiredAcknowledged, pending, participants := results
      synchronization := ← store.status (some revisionId)
      error :=
        if current.allRequiredAcknowledged then none
        else some (
          if offlineIsPending then "RUNTIME_ACKNOWLEDGEMENTS_PENDING"
            else "RUNTIME_ACKNOWLEDGEMENT_FAILED",
          "Required runtime participants have not acknowledged the same revision and hashes.",
          pending) }
  return (transaction, store)

/-- `reconcile`: `apply` again, for the revision named or the desired one. -/
def reconcile (store : Store F) (revisionId : String) (env : Environment F) :
    Option (Option (Transaction F) × Store F) := do
  let revisionId :=
    if revisionId = "" then (store.desired.map (·.revisionId)).getD "" else revisionId
  if revisionId = "" then return (none, store)
  else
    let (transaction, store) ← apply store (← store.read revisionId) env true
    return (some transaction, store)

end

end Netlab.Synchronization
