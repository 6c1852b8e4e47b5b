import Netlab.Revisions.InSync
import Mathlib.Data.List.Induction

/-!
# Drafts and the order of their commits

A revision takes its parent when it is created, and it is committed later. `commit` compares the
parent with nothing, and it writes the desired file whatever is there. So the parent of a revision
is the one that was committed when it was drafted (`linear_history`), and the desired revision stays
the latest as long as only the latest revision is committed (`desired_latest`).
-/

namespace Netlab.Revisions

variable {F : Type}

/-- The id of the committed revision, or the empty text. -/
def Store.committedId (store : Store F) : String := (store.committed.map (·.revisionId)).getD ""

/-- `create` draws an id and takes the committed revision for the parent. -/
theorem Store.create_draft {uuid4 : IdSupply} {sha256Value : Json F → Option String}
    {store store' : Store F} {candidate : Json F} {required : List String} {record : Record F}
    (h : store.create uuid4 sha256Value candidate required = some (record, store')) :
    record.revisionId = uuid4.id store.draws ∧ record.parentRevisionId = store.committedId ∧
      store'.draws = store.draws + 1 := by
  cases hhashes : Hashing.componentHashes sha256Value candidate with
  | none => simp [create, hhashes] at h
  | some hashes =>
      simp only [create, hhashes, Option.bind_eq_bind, Option.bind_some, pure,
        Option.some.injEq, Prod.mk.injEq] at h
      obtain ⟨rfl, rfl⟩ := h
      exact ⟨rfl, rfl, rfl⟩

/-- A mark keeps the id and the parent of a record. -/
theorem Record.marked_identity (record : Record F) (participant : String) (entry : Participant F) :
    (record.marked participant entry).revisionId = record.revisionId ∧
      (record.marked participant entry).parentRevisionId = record.parentRevisionId := by
  cases hstate : entry.state <;> simp [marked, hstate, withParticipant]

/-! ## Drawn ids -/

/-- Every record is filed under an id that was drawn. -/
def Store.Drawn (uuid4 : IdSupply) (store : Store F) : Prop :=
  ∀ id record, store.read id = some record → ∃ n < store.draws, uuid4.id n = id

/-- The next id is not in use. -/
theorem Store.Drawn.read_next {uuid4 : IdSupply} {store : Store F} (h : store.Drawn uuid4) :
    store.read (uuid4.id store.draws) = none := by
  cases hread : store.read (uuid4.id store.draws) with
  | none => rfl
  | some record =>
      obtain ⟨n, hn, hid⟩ := h _ record hread
      exact absurd (uuid4.injective _ _ hid) (Nat.ne_of_lt hn)

/-- Where the record of a revision comes from: it was there with the same parent, or it is a draft
whose parent is the committed revision. -/
theorem Performed.read_cases {uuid4 : IdSupply} {sha256Value : Json F → Option String}
    {store store' : Store F} {op : Op F} (h : Performed uuid4 sha256Value store op store')
    {id : String} {record' : Record F} (hread : store'.read id = some record') :
    (∃ record, store.read id = some record ∧
        record'.parentRevisionId = record.parentRevisionId) ∨
      (id = uuid4.id store.draws ∧ record'.parentRevisionId = store.committedId ∧
        store'.draws = store.draws + 1) := by
  rw [Store.read] at hread
  cases h with
  | unchanged => exact Or.inl ⟨record', hread, rfl⟩
  | ackFile file content => exact Or.inl ⟨record', hread, rfl⟩
  -- a new record takes the next id and the committed revision as its parent
  | created create =>
      obtain ⟨-, -, hrecords, -, -⟩ := Store.create_spec create
      obtain ⟨hid, hparent, hdraws⟩ := Store.create_draft create
      rw [hrecords, Dict.get?_set] at hread
      split at hread
      · rename_i hnew
        obtain rfl := Option.some.inj hread
        exact Or.inr ⟨hnew.trans hid, hparent, hdraws⟩
      · exact Or.inl ⟨record', hread, rfl⟩
  -- marking and committing rewrite a record under its own id, parent included
  | @marked revisionId participant entry record known read =>
      obtain ⟨hid, hparent⟩ := record.marked_identity participant entry
      rw [Store.write_records, Dict.get?_set, hid, store.keyed revisionId record read] at hread
      split at hread
      · rename_i hold
        obtain rfl := Option.some.inj hread
        exact Or.inl ⟨record, hold ▸ read, hparent⟩
      · exact Or.inl ⟨record', hread, rfl⟩
  | @committed revisionId record read ready =>
      rw [Store.write_records, Dict.get?_set] at hread
      split at hread
      · rename_i hold
        obtain rfl := Option.some.inj hread
        exact Or.inl ⟨record, by rw [hold, store.keyed revisionId record read]; exact read, rfl⟩
      · exact Or.inl ⟨record', hread, rfl⟩
  | @rolledBack revisionId target record store₁ read create =>
      obtain ⟨-, -, hrecords, -, -⟩ := Store.create_spec create
      obtain ⟨hid, hparent, hdraws⟩ := Store.create_draft create
      rw [Store.write_records, hrecords, Dict.set_set, Dict.get?_set] at hread
      split at hread
      · rename_i hnew
        obtain rfl := Option.some.inj hread
        exact Or.inr ⟨hnew.trans hid, hparent, hdraws⟩
      · exact Or.inl ⟨record', hread, rfl⟩

/-- No call gives back an id. -/
theorem Performed.draws_le {uuid4 : IdSupply} {sha256Value : Json F → Option String}
    {store store' : Store F} {op : Op F} (h : Performed uuid4 sha256Value store op store') :
    store.draws ≤ store'.draws := by
  cases h with
  | created create => exact (Store.create_draft create).2.2 ▸ Nat.le_succ _
  | rolledBack read create => exact (Store.create_draft create).2.2 ▸ Nat.le_succ _
  | _ => exact Nat.le_refl _

theorem Store.Drawn.perform {uuid4 : IdSupply} {sha256Value : Json F → Option String}
    {store : Store F} (h : store.Drawn uuid4) (op : Op F) :
    (store.perform uuid4 sha256Value op).Drawn uuid4 := by
  have hperformed := store.performed uuid4 sha256Value op
  intro id record' hread
  rcases hperformed.read_cases hread with ⟨record, hold, -⟩ | ⟨rfl, -, hdraws⟩
  · obtain ⟨n, hn, hid⟩ := h id record hold
    exact ⟨n, hn.trans_le hperformed.draws_le, hid⟩
  · exact ⟨store.draws, by omega, rfl⟩

theorem drawn_run (uuid4 : IdSupply) (sha256Value : Json F → Option String) (ops : List (Op F)) :
    (Run.run (Store.perform uuid4 sha256Value) .empty ops).Drawn uuid4 :=
  Run.run_invariant (Store.Drawn uuid4) (fun _ op h => h.perform op)
    (fun _ _ h => by simp [Store.read, Store.empty] at h) ops

/-! ## The parent of a revision -/

/-- The parent of every record is the revision that was committed when the record was created. -/
theorem parent_eq_committedId (uuid4 : IdSupply) (sha256Value : Json F → Option String)
    (ops : List (Op F)) :
    let run := Run.run (Store.perform uuid4 sha256Value) Store.empty
    ∀ id record, (run ops).read id = some record →
      ∃ before op after, ops = before ++ op :: after ∧ (run before).read id = none ∧
        ((run (before ++ [op])).read id).isSome = true ∧
        record.parentRevisionId = (run before).committedId := by
  intro run
  induction ops using List.reverseRecOn with
  | nil =>
      intro id record hread
      simp [run, Store.read, Store.empty] at hread
  | append_singleton ops last ih =>
      intro id record hread
      have hlast : run (ops ++ [last]) = (run ops).perform uuid4 sha256Value last :=
        Run.run_append _ _ _ _
      rw [hlast] at hread
      -- the last operation has kept the record with its parent, or has drawn it
      rcases ((run ops).performed uuid4 sha256Value last).read_cases hread with
        ⟨record₀, hold, hparent⟩ | ⟨hnew, hparent, -⟩
      · obtain ⟨before, op, after, hops, hnone, hsome, hcommitted⟩ := ih id record₀ hold
        refine ⟨before, op, after ++ [last], ?_, hnone, hsome, hparent.trans hcommitted⟩
        rw [hops, List.append_assoc, List.cons_append]
      · refine ⟨ops, last, [], rfl, ?_, ?_, hparent⟩
        · rw [hnew]
          exact (drawn_run uuid4 sha256Value ops).read_next
        · rw [hlast, hread]
          rfl

/-- Whenever a commit succeeds, the parent of the revision is the one that was committed when it was
created, and so the one that was committed immediately before, if no call changed the committed
revision from the creation on. -/
theorem linear_history (uuid4 : IdSupply) (sha256Value : Json F → Option String)
    (ops : List (Op F)) (id : String) (record : Record F) (store' : Store F)
    (hcommit : (Run.run (Store.perform uuid4 sha256Value) Store.empty ops).commit id =
      some (record, store')) :
    let run := Run.run (Store.perform uuid4 sha256Value) Store.empty
    ∃ before op after, ops = before ++ op :: after ∧ (run before).read id = none ∧
      ((run (before ++ [op])).read id).isSome = true ∧
      record.parentRevisionId = (run before).committedId ∧
      (Run.AllSteps (Store.perform uuid4 sha256Value)
          (fun store op => (store.perform uuid4 sha256Value op).committed = store.committed)
          (run before) (op :: after) →
        record.parentRevisionId = (run ops).committedId) := by
  intro run
  -- the commit changes the status of the record, not its parent
  have hread : ∃ record₀, (run ops).read id = some record₀ ∧
      record.parentRevisionId = record₀.parentRevisionId := by
    simp only [Store.commit, Option.bind_eq_bind, Option.bind_eq_some_iff, pure,
      Option.some.injEq, Prod.mk.injEq] at hcommit
    obtain ⟨record₀, hread, -, -, rfl, -⟩ := hcommit
    exact ⟨record₀, hread, rfl⟩
  obtain ⟨record₀, hread, hparent⟩ := hread
  obtain ⟨before, op, after, hops, hnone, hsome, hcommitted⟩ :=
    parent_eq_committedId uuid4 sha256Value ops id record₀ hread
  refine ⟨before, op, after, hops, hnone, hsome, hparent.trans hcommitted, fun hkept => ?_⟩
  have hsame : (run ops).committed = (run before).committed := by
    have hrun : run ops = Run.run (Store.perform uuid4 sha256Value) (run before) (op :: after) := by
      rw [hops]
      exact Run.run_append _ _ _ _
    rw [hrun]
    exact Run.run_invariant_of_allSteps (fun store => store.committed = (run before).committed)
      (fun _ _ h hop => hop.trans h) rfl hkept
  rw [hparent, hcommitted, Store.committedId, Store.committedId, hsame]

/-- The acknowledgements of a revision of the empty configuration by all participants. -/
def acknowledgeAll (revisionId : String) : List (Op ℚ) :=
  requiredParticipants.map fun name =>
    .mark revisionId name { fullAck with observedRevision := revisionId }

/-- The manager with short ids, where every digest is `"h"`. -/
abbrev sampleRun (ops : List (Op ℚ)) : Store ℚ :=
  Run.run (Store.perform .unary fun _ => some "h") .empty ops

/-- A second revision is drafted after the first one was committed. -/
def successorRun : List (Op ℚ) :=
  commitRun ++ [.create (.obj []) requiredParticipants] ++ acknowledgeAll "xx"

/-- The second revision takes the first one for its parent. -/
theorem linear_history_successorRun :
    ∃ record store', (sampleRun successorRun).commit "xx" = some (record, store') ∧
      record.parentRevisionId = "x" ∧ ∃ before op after, successorRun = before ++ op :: after ∧
        (sampleRun before).read "xx" = none ∧
        record.parentRevisionId = (sampleRun before).committedId := by
  refine ⟨_, _, rfl, rfl, ?_⟩
  obtain ⟨before, op, after, hops, hnone, -, hparent, -⟩ :=
    linear_history .unary (fun _ => some "h") successorRun "xx" _ _ rfl
  exact ⟨before, op, after, hops, hnone, hparent⟩

/-- Two drafts with the same parent are committed one after the other: the parent of the second is
not the revision that it replaces. -/
theorem drafts_race :
    ¬ ∀ (ops : List (Op ℚ)) (id : String) (record : Record ℚ) (store' : Store ℚ),
      (sampleRun ops).commit id = some (record, store') →
        (store'.committed.map (·.revisionId)) ≠ (sampleRun ops).committed.map (·.revisionId) →
          record.parentRevisionId = (sampleRun ops).committedId := by
  intro hall
  have h := hall ([.create (.obj []) requiredParticipants, .create (.obj []) requiredParticipants] ++
    acknowledgeAll "x" ++ [.commit "x"] ++ acknowledgeAll "xx") "xx" _ _ rfl (by decide)
  revert h
  decide

/-! ## The desired revision -/

/-- A commit replaces a desired revision that was created later. -/
def Store.Regresses (uuid4 : IdSupply) (store : Store F) (op : Op F) : Prop :=
  ∃ id record store' d m n, op = .commit id ∧ store.commit id = some (record, store') ∧
    store.desired = some d ∧ record.revisionId = uuid4.id m ∧ d.revisionId = uuid4.id n ∧ m < n

/-- A commit that passes its gate is of the revision that was created last. -/
def Store.CommitsLatest (uuid4 : IdSupply) (store : Store F) (op : Op F) : Prop :=
  ∀ id record store', op = .commit id → store.commit id = some (record, store') →
    uuid4.id (store.draws - 1) = id

/-- The desired revision is the one that was created last. -/
structure Store.Latest (uuid4 : IdSupply) (store : Store F) : Prop where
  drawn : store.Drawn uuid4
  missing : store.desired = none → store.draws = 0
  desired : ∀ d, store.desired = some d → uuid4.id (store.draws - 1) = d.revisionId

/-- A commit that succeeds writes the desired file. -/
theorem Store.commit_desired {store store' : Store F} {id : String} {record : Record F}
    (h : store.commit id = some (record, store')) :
    record.revisionId = id ∧ (store.read id).isSome = true ∧ store'.desired = some record := by
  simp only [commit, Option.bind_eq_bind, Option.bind_eq_some_iff, pure, Option.some.injEq,
    Prod.mk.injEq] at h
  obtain ⟨record₀, hread, -, -, rfl, rfl⟩ := h
  exact ⟨store.keyed id record₀ hread, by rw [hread]; rfl, rfl⟩

/-- In a store whose desired revision is the latest, a commit goes back exactly when it is not of
the latest. -/
theorem Store.Latest.regresses_iff {uuid4 : IdSupply} {store : Store F} (h : store.Latest uuid4)
    (op : Op F) : ¬ store.Regresses uuid4 op ↔ store.CommitsLatest uuid4 op := by
  constructor
  · rintro hnot id record store' rfl hcommit
    obtain ⟨hid, hread, -⟩ := Store.commit_desired hcommit
    obtain ⟨record₀, hread⟩ := Option.isSome_iff_exists.mp hread
    obtain ⟨m, hm, hmid⟩ := h.drawn id record₀ hread
    cases hdesired : store.desired with
    | none =>
        have hzero := h.missing hdesired
        omega
    | some d =>
        by_contra hne
        have hlt : m < store.draws - 1 := by
          refine Nat.lt_of_le_of_ne (by omega) fun heq => hne ?_
          rw [← heq, hmid]
        exact hnot ⟨id, record, store', d, m, store.draws - 1, rfl, hcommit, hdesired,
          hid.trans hmid.symm, (h.desired d hdesired).symm, hlt⟩
  · rintro hlatest ⟨id, record, store', d, m, n, rfl, hcommit, hdesired, hm, hn, hlt⟩
    have hid := (Store.commit_desired hcommit).1
    have hsame : uuid4.id m = uuid4.id n := by
      rw [← hm, ← hn, hid, ← hlatest id record store' rfl hcommit, h.desired d hdesired]
    exact absurd (uuid4.injective _ _ hsame) (Nat.ne_of_lt hlt)

/-- A commit of the latest revision keeps the desired revision the latest, and so does every other
call. -/
theorem Store.Latest.perform {uuid4 : IdSupply} {sha256Value : Json F → Option String}
    {store : Store F} (h : store.Latest uuid4) {op : Op F} (hop : store.CommitsLatest uuid4 op) :
    (store.perform uuid4 sha256Value op).Latest uuid4 := by
  have hdrawn : (store.perform uuid4 sha256Value op).Drawn uuid4 := h.drawn.perform op
  have hperformed := store.performed uuid4 sha256Value op
  generalize store.perform uuid4 sha256Value op = store' at hdrawn hperformed ⊢
  cases hperformed with
  | unchanged => exact h
  | ackFile file content => exact ⟨hdrawn, h.missing, h.desired⟩
  | created create =>
      obtain ⟨-, -, -, hdesired, -⟩ := Store.create_spec create
      obtain ⟨hid, -, hdraws⟩ := Store.create_draft create
      refine ⟨hdrawn, fun hnone => ?_, fun d hd => ?_⟩
      · cases hdesired.symm.trans hnone
      · obtain rfl := Option.some.inj (hdesired.symm.trans hd)
        rw [hdraws, Nat.add_sub_cancel, hid]
  | marked known read => exact ⟨hdrawn, h.missing, h.desired⟩
  | @committed revisionId record read ready =>
      refine ⟨hdrawn, fun hnone => (by cases hnone), fun d hd => ?_⟩
      obtain rfl := Option.some.inj hd
      -- the commit makes its own record the desired one, so it has to be the latest
      have hcommit : (store.commit revisionId).isSome = true := by
        simp [Store.commit, read, ready]
      obtain ⟨result, hresult⟩ := Option.isSome_iff_exists.mp hcommit
      exact (hop revisionId result.1 result.2 rfl hresult).trans
        (store.keyed revisionId record read).symm
  | @rolledBack revisionId target record store₁ read create =>
      obtain ⟨-, -, -, hdesired, -⟩ := Store.create_spec create
      obtain ⟨hid, -, hdraws⟩ := Store.create_draft create
      refine ⟨hdrawn, fun hnone => ?_, fun d hd => ?_⟩
      · cases hdesired.symm.trans hnone
      · obtain rfl := Option.some.inj (hdesired.symm.trans hd)
        -- a rollback creates its record first, so the committed record is the latest one
        change uuid4.id (store₁.draws - 1) = record.revisionId
        rw [hdraws, Nat.add_sub_cancel, hid]

/-- In a run from the empty store, no commit replaces a desired revision that was created later,
exactly when every commit that passes its gate is of the revision created last; and then the desired
revision is the one created last. -/
theorem desired_latest (uuid4 : IdSupply) (sha256Value : Json F → Option String)
    (ops : List (Op F)) :
    let perform := Store.perform uuid4 sha256Value
    (Run.AllSteps perform (fun store op => ¬ store.Regresses uuid4 op) .empty ops ↔
        Run.AllSteps perform (Store.CommitsLatest uuid4) .empty ops) ∧
      (Run.AllSteps perform (Store.CommitsLatest uuid4) .empty ops →
        ∀ d, (Run.run perform .empty ops).desired = some d →
          uuid4.id ((Run.run perform .empty ops).draws - 1) = d.revisionId) := by
  intro perform
  have hempty : (Store.empty : Store F).Latest uuid4 :=
    ⟨fun _ _ h => by simp [Store.read, Store.empty] at h, fun _ => rfl, fun _ h => by cases h⟩
  refine ⟨Run.allSteps_iff_of_invariant (Store.Latest uuid4) (fun store op h => h.regresses_iff op)
    (fun _ _ h hop => h.perform hop) hempty, fun hops => ?_⟩
  exact (Run.run_invariant_of_allSteps (Store.Latest uuid4) (fun _ _ h hop => h.perform hop) hempty
    hops).desired

/-- The first of two drafts is committed after the second was created: the desired revision goes
back. -/
theorem desired_goes_back :
    ¬ ∀ (ops : List (Op ℚ)) (op : Op ℚ), ¬ (sampleRun ops).Regresses .unary op := by
  intro hall
  refine hall ([.create (.obj []) requiredParticipants, .create (.obj []) requiredParticipants] ++
    acknowledgeAll "x") (.commit "x") ⟨"x", _, _, _, 0, 1, rfl, rfl, rfl, ?_, ?_, by decide⟩
  · rfl
  · rfl

end Netlab.Revisions
