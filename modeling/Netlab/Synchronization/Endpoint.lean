import Netlab.Prelude.JsonText
import Netlab.Synchronization.Committable

/-!
# Reconciliation over HTTP and on the command line

The route `/api/reconcile` of the mission control server and `Orchestrator.reconcile` both call
`RuntimeSynchronizer.reconcile`, each with keywords of its own, and read the transaction by keys.

* `Orchestrator.reconcile_refines`: the orchestrator commits the revision exactly when the
  transaction is committable;
* `endpointRefines_iff`: the route does so exactly when there is no revision to reconcile, since its
  keyword is none that `reconcile` takes.
-/

namespace Netlab.Synchronization

open Revisions

variable {F : Type} [PyText F]

/-! ## The shared call -/

/-- The parameters of `RuntimeSynchronizer.reconcile`. -/
def reconcileParameters : List String := ["revision_id", "isaac_timeout_s"]

/-- A call of `RuntimeSynchronizer.reconcile` with keywords. A keyword that is no parameter raises
before anything is done. -/
def callReconcile (store : Store F) (revisionId : String) (keywords : List String)
    (env : Environment F) : Option (Option (Transaction F) × Store F) := do
  guard (∀ keyword ∈ keywords, keyword ∈ reconcileParameters)
  reconcile store revisionId env

/-- `bool(transaction.get(key))`. -/
def Transaction.truthy (transaction : Transaction F) (key : String) : Bool :=
  if key = "revision_id" then transaction.revisionId ≠ ""
  else if key = "committable" then transaction.committable
  else if key = "pending" then !transaction.pending.isEmpty
  else if key = "participants" then !transaction.participants.isEmpty
  else if key = "synchronization" then true
  else if key = "error" then transaction.error.isSome
  else false

/-- The transaction of the synchronizer for the revision can be committed. -/
def Committable (store : Store F) (revisionId : String) (env : Environment F) : Prop :=
  ∃ transaction store', reconcile store revisionId env = some (some transaction, store') ∧
    transaction.committable = true

/-! ## The route -/

/-- What the route replies: there is no revision, or the transaction. -/
inductive Reply (F : Type)
  | noRevision
  | reconciled (transaction : Option (Transaction F))

/-- The key `ok` of the reply, and the key `committed`. -/
def Reply.ok : Reply F → Bool
  | noRevision => false
  | reconciled transaction => transaction.any (·.truthy "committed")

/-- The revision that a request is about: the one it names, else the one of the status. -/
def requestedRevision (store : Store F) (body : Dict String (Json F)) : Option String := do
  let current ← store.status none
  return (((body.get? "revision_id").getD .null).orElse
    (((current.revisionId.map Json.str).getD .null).orElse (.str ""))).toText

/-- The route `/api/reconcile`. A call that raises is answered with an internal error. -/
def reconcileRoute [PyFloat F] (store : Store F) (body : Dict String (Json F))
    (env : Environment F) : Option (Reply F × Store F) := do
  let revisionId ← requestedRevision store body
  if revisionId = "" then return (.noRevision, store)
  else
    let _ ← ((body.get? "timeout_s").getD (.float 30.0)).toFloat?
    let (transaction, store) ← callReconcile store revisionId ["timeout_s"] env
    return (.reconciled transaction, store)

/-- The route ends, reports success exactly when the transaction for its revision is committable,
and commits that revision in exactly that case. -/
def EndpointRefines [PyFloat F] (store : Store F) (body : Dict String (Json F))
    (env : Environment F) : Prop :=
  ∃ reply store' revisionId, reconcileRoute store body env = some (reply, store') ∧
    requestedRevision store body = some revisionId ∧
    (reply.ok = true ↔ Committable store revisionId env) ∧
    (Committable store revisionId env → store'.committed.map (·.revisionId) = some revisionId) ∧
    (¬ Committable store revisionId env → store'.committed = store.committed)

/-! ## The orchestrator -/

/-- What `Orchestrator.reconcile` returns under `ok`, with the transaction. -/
structure OrchestratorReply (F : Type) where
  ok : Bool
  transaction : Option (Transaction F)

/-- `Orchestrator.reconcile`, where `saves` tells on which configurations `save_experiment` does not
raise. -/
def Orchestrator.reconcile (saves : Json F → Bool) (store : Store F) (revisionId : String)
    (env : Environment F) : Option (OrchestratorReply F × Store F) := do
  let (transaction, store) ← callReconcile store revisionId ["isaac_timeout_s"] env
  let rid := (transaction.map (·.revisionId)).getD ""
  if transaction.any (·.truthy "committable") ∧ rid ≠ "" then
    let record ← store.read rid
    let (_, store) ← store.commit rid
    -- the configuration is saved after the commit, and this may fail
    guard (record.candidate.dict?.isNone ∨ ¬ record.candidate.truthy ∨ saves record.candidate)
    let _ ← store.status (some rid)
    return ({ ok := true, transaction }, store)
  else
    let _ ← store.status (if rid = "" then none else some rid)
    return ({ ok := false, transaction }, store)

/-! ## What the route does -/

omit [PyText F] in
/-- A text with a first character is not empty. -/
private theorem append_ne_empty {a b : String} (h : a ≠ "") : a ++ b ≠ "" := by
  intro heq
  have hlist := congrArg String.toList heq
  rw [String.toList_append] at hlist
  exact h (String.toList_inj.mp (List.append_eq_nil_iff.mp hlist).1)

omit [PyText F] in
private theorem toString_int_ne_empty (n : ℤ) : toString n ≠ "" := fun heq =>
  JsonText.int_ne_nil n (congrArg String.toList (show n.repr = "" from heq))

/-- A value that counts as true has a text, where every float has one. -/
theorem toText_ne_empty (htext : ∀ x : F, PyText.text x ≠ "") {value : Json F}
    (h : value.truthy = true) : value.toText ≠ "" := by
  cases value with
  | null => cases h
  | bool b =>
      cases b with
      | true => exact (by decide : "True" ≠ "")
      | false => cases h
  | int n => exact toString_int_ne_empty n
  | float x => exact htext x
  | str s => simpa [Json.truthy] using h
  | arr items =>
      show "[" ++ _ ++ "]" ≠ ""
      exact append_ne_empty (append_ne_empty (by decide))
  | obj members =>
      show "\x7b" ++ _ ++ "\x7d" ≠ ""
      exact append_ne_empty (append_ne_empty (by decide))

/-- The status reports on the desired revision when there is one. -/
theorem revisionId_status {store : Store F} {current : Status F} {record : Record F}
    (h : store.status none = some current) (hdesired : store.desired = some record) :
    current.revisionId = some record.revisionId := by
  unfold Store.status at h
  obtain ⟨reported, hreported, h⟩ := Option.bind_eq_some_iff.mp h
  obtain rfl : some record = reported := by
    simpa [Store.statusRecord, hdesired] using hreported
  obtain ⟨drift, -, h⟩ := Option.bind_eq_some_iff.mp h
  rw [← Option.some.inj h]

/-- Where a request is about no revision, none is desired. -/
theorem desired_of_requestedRevision (htext : ∀ x : F, PyText.text x ≠ "") {store : Store F}
    {body : Dict String (Json F)} (h : requestedRevision store body = some "") :
    (store.desired.map (·.revisionId)).getD "" = "" := by
  obtain ⟨current, hcurrent, h⟩ := Option.bind_eq_some_iff.mp h
  have htext' := Option.some.inj h
  cases hdesired : store.desired with
  | none => rfl
  | some record =>
      rw [revisionId_status hcurrent hdesired] at htext'
      by_contra hne
      have hrecord : (Json.str record.revisionId : Json F).truthy = true := by
        simpa [Json.truthy] using hne
      refine toText_ne_empty htext ?_ htext'
      simp only [Json.orElse, Option.map_some, Option.getD_some, hrecord, if_true]
      split <;> assumption

/-- Nothing is committed for no revision. -/
theorem not_committable_of_requestedRevision (htext : ∀ x : F, PyText.text x ≠ "")
    {store : Store F} {body : Dict String (Json F)} (env : Environment F)
    (h : requestedRevision store body = some "") : ¬ Committable store "" env := by
  rintro ⟨transaction, store', hreconcile, -⟩
  simp [reconcile, desired_of_requestedRevision htext h] at hreconcile

/-- The keyword of the route is no parameter of the synchronizer. -/
theorem callReconcile_timeout (store : Store F) (revisionId : String) (env : Environment F) :
    callReconcile store revisionId ["timeout_s"] env = none := by
  rw [callReconcile]
  rfl

/-- Where every float has a text: the route ends, succeeds and commits as the transaction for its
revision asks exactly when it is about no revision. -/
theorem endpointRefines_iff [PyFloat F] (htext : ∀ x : F, PyText.text x ≠ "") (store : Store F)
    (body : Dict String (Json F)) (env : Environment F) :
    EndpointRefines store body env ↔ requestedRevision store body = some "" := by
  constructor
  · rintro ⟨reply, store', revisionId, hroute, hrequested, -⟩
    rw [reconcileRoute, hrequested] at hroute
    by_cases hempty : revisionId = ""
    · rw [hrequested, hempty]
    · simp only [bind, Option.bind_some, if_neg hempty, callReconcile_timeout, Option.bind_none,
        Option.bind_eq_some_iff] at hroute
      obtain ⟨_, _, hnone⟩ := hroute
      cases hnone
  · intro hrequested
    have hnot := not_committable_of_requestedRevision htext env hrequested
    refine ⟨.noRevision, store, "", ?_, hrequested, ?_, fun h => absurd h hnot, fun _ => rfl⟩
    · rw [reconcileRoute, hrequested]
      rfl
    · exact iff_of_false (by simp [Reply.ok]) hnot

/-- Before the first revision the route says so. -/
theorem endpointRefines_empty :
    EndpointRefines (Store.empty : Store ℚ) .empty reachable := by
  refine (endpointRefines_iff (fun x => ?_) _ _ _).mpr (by decide)
  show (if x.den = 1 then toString x.num else toString x.num ++ "/" ++ toString x.den) ≠ ""
  split
  · exact toString_int_ne_empty _
  · exact append_ne_empty (append_ne_empty (toString_int_ne_empty _))

/-- The revision is committable, and the route answers with an internal error, while the
orchestrator commits it. -/
theorem endpoint_fails_reachable :
    requestedRevision draftStore .empty = some "x" ∧
      reconcileRoute draftStore .empty reachable = none ∧
      ((Orchestrator.reconcile (fun _ => true) draftStore "x" reachable).map
        fun result => (result.1.ok, result.2.committed.map (·.revisionId))) =
          some (true, some "x") ∧
      ¬ EndpointRefines draftStore .empty reachable := by
  have hroute : reconcileRoute draftStore .empty reachable = none := by decide
  refine ⟨by decide, hroute, by decide, ?_⟩
  rintro ⟨reply, store', revisionId, h, -⟩
  rw [hroute] at h
  cases h

/-! ## What the orchestrator does -/

/-- Entering an answer commits nothing. -/
theorem committed_enter {call : Call F} {store store' : Store F} {revisionId : String}
    {answer : Answer F} (h : call.enter store revisionId answer = some store') :
    store'.committed = store.committed := by
  by_cases hmarks : call.marks answer.ack = true
  · simp only [Call.enter, hmarks, ↓reduceIte, Option.bind_eq_bind, Option.bind_eq_some_iff,
      Option.map_eq_some_iff] at h
    obtain ⟨entry, -, ⟨marked, store₂⟩, hmarked, rfl⟩ := h
    obtain ⟨_, -, hmarked⟩ := Option.bind_eq_some_iff.mp hmarked
    obtain ⟨record, -, hmarked⟩ := Option.bind_eq_some_iff.mp hmarked
    obtain ⟨-, rfl⟩ := Prod.mk.inj (Option.some.inj hmarked)
    rfl
  · simp only [Call.enter, hmarks, Bool.false_eq_true, ↓reduceIte, Option.some.injEq] at h
    rw [h]

/-- The participant calls commit nothing. -/
theorem committed_applyCalls {revisionId : String} {offlineIsPending : Bool}
    {calls : List (Call F)} {store store' : Store F} {watch watch' : Watch F}
    {results : List (String × CallResult F)}
    (h : applyCalls revisionId offlineIsPending calls store watch =
      some (store', watch', results)) : store'.committed = store.committed := by
  induction calls generalizing store watch results with
  | nil =>
      obtain ⟨rfl, rfl, rfl⟩ := by simpa [applyCalls] using h
      rfl
  | cons call calls ih =>
      obtain ⟨⟨watch₁, answer⟩, -, h⟩ := Option.bind_eq_some_iff.mp h
      obtain ⟨store₁, hstore₁, h⟩ := Option.bind_eq_some_iff.mp h
      dsimp only at h
      split at h
      · obtain ⟨rfl, rfl, rfl⟩ := by simpa using h
        exact committed_enter hstore₁
      · obtain ⟨⟨store₂, watch₂, rest⟩, hrest, h⟩ := Option.bind_eq_some_iff.mp h
        obtain ⟨rfl, rfl, rfl⟩ := by simpa using h
        exact (ih hrest).trans (committed_enter hstore₁)

/-- `apply` commits nothing and reports on its revision. -/
theorem committed_apply {store store' : Store F} {record : Record F} {env : Environment F}
    {offlineIsPending : Bool} {transaction : Transaction F}
    (h : apply store record env offlineIsPending = some (transaction, store')) :
    store'.committed = store.committed ∧ transaction.revisionId = record.revisionId := by
  obtain ⟨⟨store₁, watch, results⟩, hcalls, h⟩ := Option.bind_eq_some_iff.mp h
  obtain ⟨current, -, h⟩ := Option.bind_eq_some_iff.mp h
  obtain ⟨status, -, h⟩ := Option.bind_eq_some_iff.mp h
  obtain ⟨rfl, rfl⟩ := Prod.mk.inj (Option.some.inj h)
  have hcommitted : store₁.committed = store.committed := committed_applyCalls hcalls
  exact ⟨hcommitted, rfl⟩

/-- The keyword of the orchestrator is a parameter of the synchronizer. -/
theorem callReconcile_isaacTimeout (store : Store F) (revisionId : String) (env : Environment F) :
    callReconcile store revisionId ["isaac_timeout_s"] env = reconcile store revisionId env := by
  rw [callReconcile]
  rfl

/-- What `reconcile` does for a revision that is named. -/
theorem reconcile_spec {store store' : Store F} {revisionId : String} {env : Environment F}
    {transaction : Option (Transaction F)} (hne : revisionId ≠ "")
    (h : reconcile store revisionId env = some (transaction, store')) :
    ∃ t, transaction = some t ∧ t.revisionId = revisionId ∧ store'.committed = store.committed := by
  simp only [reconcile, hne, if_false, bind, pure, Option.bind_eq_some_iff, Option.some.injEq,
    Prod.mk.injEq] at h
  obtain ⟨record, hread, ⟨t, store₁⟩, happly, rfl, rfl⟩ := h
  obtain ⟨hcommitted, hid⟩ := committed_apply happly
  exact ⟨t, rfl, hid.trans (store.keyed _ _ hread), hcommitted⟩

omit [PyText F] in
/-- A commit makes its revision the committed one. -/
theorem committed_commit {store store' : Store F} {revisionId : String} {record : Record F}
    (h : store.commit revisionId = some (record, store')) :
    store'.committed.map (·.revisionId) = some revisionId := by
  obtain ⟨stored, hread, h⟩ := Option.bind_eq_some_iff.mp h
  obtain ⟨_, -, h⟩ := Option.bind_eq_some_iff.mp h
  obtain ⟨rfl, rfl⟩ := Prod.mk.inj (Option.some.inj h)
  have hid : stored.revisionId = revisionId := store.keyed _ _ hread
  exact congrArg some hid

/-- Whenever the orchestrator returns for a revision that is named, it reports success exactly when
the transaction for it is committable, and commits the revision in exactly that case. -/
theorem Orchestrator.reconcile_refines {saves : Json F → Bool} {store store' : Store F}
    {revisionId : String} {env : Environment F} {reply : OrchestratorReply F}
    (hne : revisionId ≠ "")
    (h : Orchestrator.reconcile saves store revisionId env = some (reply, store')) :
    (reply.ok = true ↔ Committable store revisionId env) ∧
      (Committable store revisionId env →
        store'.committed.map (·.revisionId) = some revisionId) ∧
      (¬ Committable store revisionId env → store'.committed = store.committed) := by
  rw [Orchestrator.reconcile, callReconcile_isaacTimeout] at h
  obtain ⟨⟨transaction, store₁⟩, hreconcile, h⟩ := Option.bind_eq_some_iff.mp h
  obtain ⟨t, rfl, hid, hcommitted⟩ := reconcile_spec hne hreconcile
  -- the reconciliation is a function of its arguments, so `Committable` is about this transaction
  have hcommittable : Committable store revisionId env ↔ t.committable = true := by
    constructor
    · rintro ⟨t', store₂, hreconcile', ht'⟩
      obtain ⟨ht, -⟩ := Prod.mk.inj (Option.some.inj (hreconcile.symm.trans hreconcile'))
      rw [Option.some.inj ht]
      exact ht'
    · exact fun ht => ⟨t, store₁, hreconcile, ht⟩
  rw [hcommittable]
  dsimp only at h
  split at h
  next hready =>
    have ht : t.committable = true := by simpa [Transaction.truthy] using hready.1
    obtain ⟨record, -, h⟩ := Option.bind_eq_some_iff.mp h
    obtain ⟨⟨_, store₂⟩, hcommit, h⟩ := Option.bind_eq_some_iff.mp h
    obtain ⟨_, -, h⟩ := Option.bind_eq_some_iff.mp h
    obtain ⟨_, -, h⟩ := Option.bind_eq_some_iff.mp h
    obtain ⟨rfl, rfl⟩ := Prod.mk.inj (Option.some.inj h)
    have hrevision : ((some t).map (·.revisionId)).getD "" = revisionId := hid
    rw [hrevision] at hcommit
    exact ⟨iff_of_true rfl ht, fun _ => committed_commit hcommit, fun hnot => absurd ht hnot⟩
  next hready =>
    have ht : ¬ t.committable = true := by
      intro ht
      exact hready ⟨by simpa [Transaction.truthy] using ht, by simpa [hid] using hne⟩
    obtain ⟨_, -, h⟩ := Option.bind_eq_some_iff.mp h
    obtain ⟨rfl, rfl⟩ := Prod.mk.inj (Option.some.inj h)
    exact ⟨iff_of_false (by simp) ht, fun h => absurd h ht, fun _ => hcommitted⟩

end Netlab.Synchronization
