import Netlab.Prelude.Run
import Netlab.Synchronization.Committable

/-!
# Runs of the manager and the synchronizer

`apply` and `reconcile` change the store only by `mark_participant`, once for each answer that they
enter, and what they entered stays when a later participant call raises. So what they do is a list
of calls of the manager (`Action.ops`), and a run of both components is a run of the manager
(`perform_apply`).
-/

namespace Netlab.Synchronization

open Revisions

variable {F : Type}

section

variable [PyText F]

/-- The reports that the participant calls enter into the record, and the files after them, as far
as `apply` gets: it ends with a call that raises, and with the first one that is not accepted unless
that counts as pending. -/
def attempt (revisionId : String) (offlineIsPending : Bool) :
    List (Call F) → Watch F → List (String × Participant F) × Watch F
  | [], watch => ([], watch)
  | call :: calls, watch =>
      match call.ask watch with
      | none => ([], watch)
      | some (watch, answer) =>
          -- a participant that does not accept ends the attempt, unless it may be offline
          let others :=
            if !answer.accepted revisionId && !offlineIsPending then ([], watch)
            else attempt revisionId offlineIsPending calls watch
          if call.marks answer.ack then
            match entryOfAck answer.ack with
            -- marking raises, and what was marked before stays
            | none => ([], watch)
            | some entry => ((call.name, entry) :: others.1, others.2)
          else others

/-- The attempt of `apply` on a record. -/
def attemptOn (store : Store F) (record : Record F) (env : Environment F)
    (offlineIsPending : Bool) : List (String × Participant F) × Watch F :=
  attempt record.revisionId offlineIsPending (calls env record)
    { acks := store.acks, written := fun _ => false }

/-- Enter reports into the record of a revision. -/
def markOps (revisionId : String) (reports : List (String × Participant F)) : List (Op F) :=
  reports.map fun report => .mark revisionId report.1 report.2

/-- The ack files, as the participants left them. -/
def ackOps (watch : Watch F) : List (Op F) :=
  [.revisionRos, .ros, .sionna, .isaac].map fun file => .ackFile file (watch.acks file)

/-- A step of the manager or of the synchronizer. -/
inductive Action (F : Type)
  | manager (op : Op F)
  | apply (record : Record F) (env : Environment F) (offlineIsPending : Bool)
  | reconcile (revisionId : String) (env : Environment F)

/-- What `apply` does to the store. -/
def applyOps (store : Store F) (record : Record F) (env : Environment F)
    (offlineIsPending : Bool) : List (Op F) :=
  let (reports, watch) := attemptOn store record env offlineIsPending
  markOps record.revisionId reports ++ ackOps watch

/-- The revision that `reconcile` works on, if there is one. -/
def reconciled (store : Store F) (revisionId : String) : Option (Record F) :=
  let revisionId :=
    if revisionId = "" then (store.desired.map (·.revisionId)).getD "" else revisionId
  if revisionId = "" then none else store.read revisionId

/-- The calls of the manager that an action consists of. -/
def Action.ops (store : Store F) : Action F → List (Op F)
  | .manager op => [op]
  | .apply record env offlineIsPending => applyOps store record env offlineIsPending
  | .reconcile revisionId env =>
      match reconciled store revisionId with
      | some record => applyOps store record env true
      | none => []

/-- The store after an action. -/
def perform (uuid4 : IdSupply) (sha256Value : Json F → Option String) (store : Store F)
    (action : Action F) : Store F :=
  Run.run (Store.perform uuid4 sha256Value) store (action.ops store)

/-! ## The attempt and the call -/

/-- Entering an answer is a mark. -/
theorem Call.enter_eq {uuid4 : IdSupply} {sha256Value : Json F → Option String} {call : Call F}
    {store store' : Store F} {revisionId : String} {answer : Answer F} {entry : Participant F}
    (hmarks : call.marks answer.ack = true) (hentry : entryOfAck answer.ack = some entry)
    (h : call.enter store revisionId answer = some store') :
    store' = store.perform uuid4 sha256Value (.mark revisionId call.name entry) := by
  simp only [enter, hmarks, ↓reduceIte, hentry, Option.bind_eq_bind, Option.bind_some] at h
  rw [Store.perform, h, Option.getD_some]

/-- Calls that return have entered the reports of the attempt. -/
theorem applyCalls_attempt (uuid4 : IdSupply) (sha256Value : Json F → Option String)
    {revisionId : String} {offlineIsPending : Bool} {calls : List (Call F)}
    {store store' : Store F} {watch watch' : Watch F} {results : List (String × CallResult F)}
    (h : applyCalls revisionId offlineIsPending calls store watch =
      some (store', watch', results)) :
    (attempt revisionId offlineIsPending calls watch).2 = watch' ∧
      store' = Run.run (Store.perform uuid4 sha256Value) store
        (markOps revisionId (attempt revisionId offlineIsPending calls watch).1) := by
  induction calls generalizing store watch results with
  | nil =>
      obtain ⟨rfl, rfl, rfl⟩ := by simpa [applyCalls] using h
      exact ⟨rfl, rfl⟩
  | cons call calls ih =>
      obtain ⟨⟨watch₁, answer⟩, hask, h⟩ := Option.bind_eq_some_iff.mp h
      obtain ⟨store₁, henter, h⟩ := Option.bind_eq_some_iff.mp h
      -- what the other calls do
      have hothers : ∀ others,
          others = (if !answer.accepted revisionId && !offlineIsPending then ([], watch₁)
            else attempt revisionId offlineIsPending calls watch₁) →
          others.2 = watch' ∧ store' = Run.run (Store.perform uuid4 sha256Value) store₁
            (markOps revisionId others.1) := by
        rintro others rfl
        dsimp only at h
        split at h
        · rename_i hstop
          obtain ⟨rfl, rfl, rfl⟩ := by simpa using h
          rw [if_pos hstop]
          exact ⟨rfl, rfl⟩
        · rename_i hgo
          obtain ⟨⟨store₂, watch₂, rest⟩, hrest, h⟩ := Option.bind_eq_some_iff.mp h
          obtain ⟨rfl, rfl, rfl⟩ := by simpa using h
          rw [if_neg hgo]
          exact ih hrest
      obtain ⟨hwatch, hstore⟩ := hothers _ rfl
      simp only [attempt, hask]
      by_cases hmarks : call.marks answer.ack = true
      · rw [if_pos hmarks]
        cases hentry : entryOfAck answer.ack with
        | none => simp [Call.enter, hmarks, hentry] at henter
        | some entry =>
            refine ⟨hwatch, ?_⟩
            rw [hstore, call.enter_eq hmarks hentry henter]
            rfl
      · simp only [Call.enter, hmarks, Bool.false_eq_true, ↓reduceIte, Option.some.injEq] at henter
        subst henter
        rw [if_neg hmarks]
        exact ⟨hwatch, hstore⟩

omit [PyText F] in
/-- Writing all ack files leaves the rest of the store. -/
theorem run_ackOps (uuid4 : IdSupply) (sha256Value : Json F → Option String) (store : Store F)
    (watch : Watch F) :
    Run.run (Store.perform uuid4 sha256Value) store (ackOps watch) =
      { store with acks := watch.acks } := by
  have hacks : (Run.run (Store.perform uuid4 sha256Value) store (ackOps watch)).acks =
      watch.acks := by
    funext file
    cases file <;> rfl
  rw [← hacks]
  rfl

/-- A call that returns leaves the store that the manager reaches by the calls listed. -/
theorem perform_apply (uuid4 : IdSupply) (sha256Value : Json F → Option String)
    {store store' : Store F} {record : Record F} {env : Environment F} {offlineIsPending : Bool}
    {transaction : Transaction F}
    (h : apply store record env offlineIsPending = some (transaction, store')) :
    perform uuid4 sha256Value store (.apply record env offlineIsPending) = store' := by
  obtain ⟨⟨store₁, watch, results⟩, hcalls, h⟩ := Option.bind_eq_some_iff.mp h
  obtain ⟨current, -, h⟩ := Option.bind_eq_some_iff.mp h
  obtain ⟨status, -, h⟩ := Option.bind_eq_some_iff.mp h
  obtain ⟨-, rfl⟩ := Prod.mk.inj (Option.some.inj h)
  obtain ⟨hwatch, hstore⟩ := applyCalls_attempt uuid4 sha256Value hcalls
  rw [perform, Action.ops, applyOps, attemptOn, Run.run_append, run_ackOps, ← hstore, hwatch]

/-- `reconcile` is `apply` on the revision that it finds. -/
theorem perform_reconcile (uuid4 : IdSupply) (sha256Value : Json F → Option String)
    {store store' : Store F} {revisionId : String} {env : Environment F}
    {transaction : Option (Transaction F)}
    (h : reconcile store revisionId env = some (transaction, store')) :
    perform uuid4 sha256Value store (.reconcile revisionId env) = store' := by
  rw [reconcile] at h
  rw [perform, Action.ops, reconciled]
  dsimp only at h ⊢
  generalize (if revisionId = "" then (store.desired.map (·.revisionId)).getD "" else revisionId) =
    target at h ⊢
  by_cases hnone : target = ""
  · rw [if_pos hnone] at h ⊢
    obtain ⟨-, rfl⟩ := Prod.mk.inj (Option.some.inj h)
    rfl
  · rw [if_neg hnone] at h ⊢
    obtain ⟨record, hread, h⟩ := Option.bind_eq_some_iff.mp h
    obtain ⟨⟨transaction', store₁⟩, happly, h⟩ := Option.bind_eq_some_iff.mp h
    obtain ⟨-, rfl⟩ := Prod.mk.inj (Option.some.inj h)
    rw [hread]
    exact perform_apply uuid4 sha256Value happly

end

end Netlab.Synchronization
