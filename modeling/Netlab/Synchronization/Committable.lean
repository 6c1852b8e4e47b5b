import Netlab.Revisions.Commit
import Netlab.Synchronization.Synchronizer

/-!
# When a transaction is committable

`apply` reads the verdict from the stored record. A participant that does not answer keeps the entry
that an earlier call left there, and an ack file that still names the revision from an earlier call
is taken for an answer. So a committable transaction can have pending participants.
`applyCalls_spec` computes the record after the calls from the record before them and the answers,
and `committable_current_iff` says exactly when a committable transaction rests on answers of this
very call.
-/

namespace Netlab.Synchronization

open Revisions

variable {F : Type} [PyText F]

/-- What the participants answered during a call of `apply`, as far as they were asked: the answer
and whether it is entered into the record. -/
structure Report (F : Type) where
  name : String
  answer : Answer F
  entered : Bool

/-- The answers to the participant calls. -/
def reports (revisionId : String) (offlineIsPending : Bool) :
    List (Call F) → Watch F → Option (List (Report F))
  | [], _ => some []
  | call :: calls, watch => do
      let (watch, answer) ← call.ask watch
      let report := { name := call.name, answer, entered := call.marks answer.ack }
      if !answer.accepted revisionId && !offlineIsPending then return [report]
      else return report :: (← reports revisionId offlineIsPending calls watch)

/-- The entry that the answers lead to for a participant. -/
def reportedEntry (reports : List (Report F)) (name : String) : Option (Participant F) :=
  (reports.find? fun report => report.name = name && report.entered).bind fun report =>
    entryOfAck report.answer.ack

/-- Some required participant has no matching acknowledgement: neither do the answers contain one,
nor does the record before the call hold one for a participant whose answer is not entered. -/
def Lacking (record : Record F) (reports : List (Report F)) : Prop :=
  ∃ name ∈ record.required,
    ((reportedEntry reports name).or (record.participants.get? name)).any record.Matches = false

/-- Every participant accepted the revision, and those required answered during the call. -/
structure Current (record : Record F) (reports : List (Report F)) : Prop where
  accepted : ∀ report ∈ reports, report.answer.accepted record.revisionId = true
  fresh : ∀ name ∈ record.required, ∃ report ∈ reports, report.name = name ∧
    report.answer.fresh = true

/-- What a committable transaction should guarantee for the participants required: no participant is
pending, and each one required acknowledged the revision during the call. -/
def Transaction.Current (transaction : Transaction F) (required : List String) : Prop :=
  transaction.committable = true → transaction.pending = [] ∧
    ∀ name ∈ required, ∃ result, (name, result) ∈ transaction.participants ∧
      result.accepted = true ∧ result.acknowledgement.fresh = true

/-! ## The record after the calls -/

/-- A record after reports were entered: only its participants, its state and its phase differ. -/
structure Entered (record record' : Record F) (entry : String → Option (Participant F)) :
    Prop where
  revisionId : record'.revisionId = record.revisionId
  hashes : record'.hashes = record.hashes
  required : record'.requiredParticipants = record.requiredParticipants
  participants : ∀ name, record'.participants.get? name =
    (entry name).or (record.participants.get? name)

omit [PyText F] in
theorem Entered.refl (record : Record F) : Entered record record fun _ => none :=
  ⟨rfl, rfl, rfl, fun _ => by simp⟩

omit [PyText F] in
theorem Entered.marked (record : Record F) (participant : String) (entry : Participant F) :
    Entered record (record.marked participant entry)
      fun name => if name = participant then some entry else none := by
  have hparticipants : (record.marked participant entry).participants =
      record.participants.set participant entry := by
    cases hstate : entry.state <;> simp [Record.marked, hstate, Record.withParticipant]
  refine ⟨?_, ?_, ?_, fun name => ?_⟩
  · cases hstate : entry.state <;> simp [Record.marked, hstate, Record.withParticipant]
  · cases hstate : entry.state <;> simp [Record.marked, hstate, Record.withParticipant]
  · cases hstate : entry.state <;> simp [Record.marked, hstate, Record.withParticipant]
  · rw [hparticipants, Dict.get?_set]
    split <;> simp

omit [PyText F] in
theorem Entered.trans {record₁ record₂ record₃ : Record F}
    {entry entry' : String → Option (Participant F)} (h₁₂ : Entered record₁ record₂ entry)
    (h₂₃ : Entered record₂ record₃ entry') :
    Entered record₁ record₃ fun name => (entry' name).or (entry name) where
  revisionId := h₂₃.revisionId.trans h₁₂.revisionId
  hashes := h₂₃.hashes.trans h₁₂.hashes
  required := h₂₃.required.trans h₁₂.required
  participants name := by rw [h₂₃.participants, h₁₂.participants, Option.or_assoc]

omit [PyText F] in
/-- The check of the acknowledgements after reports were entered. -/
theorem Entered.allRequiredAcknowledged {record record' : Record F}
    {entry : String → Option (Participant F)} (h : Entered record record' entry) :
    record'.allRequiredAcknowledged =
      record.required.all fun name =>
        ((entry name).or (record.participants.get? name)).any record.Matches := by
  have hrequired : record'.required = record.required := by
    simp only [Record.required, h.required]
  have hmatches : record'.Matches = record.Matches := by
    funext entry
    simp only [Record.Matches, h.revisionId, h.hashes]
  simp only [Record.allRequiredAcknowledged, hrequired, hmatches, h.participants]

omit [PyText F] in
/-- What a mark leaves under the revision id. -/
theorem read_markParticipant {store store' : Store F} {revisionId name : String}
    {entry : Participant F} {marked : Record F}
    (h : store.markParticipant revisionId name entry = some (marked, store')) :
    ∃ record, store.read revisionId = some record ∧
      store'.read revisionId = some (record.marked name entry) := by
  obtain ⟨_, _, h⟩ := Option.bind_eq_some_iff.mp h
  obtain ⟨record, hread, h⟩ := Option.bind_eq_some_iff.mp h
  obtain ⟨rfl, rfl⟩ := Prod.mk.inj (Option.some.inj h)
  have hid : (record.marked name entry).revisionId = revisionId :=
    (Entered.marked record name entry).revisionId.trans (store.keyed revisionId record hread)
  refine ⟨record, hread, ?_⟩
  rw [Store.read, Store.write_records, hid, Dict.get?_set_self]

/-- The names of the reports are those of the calls that were made. -/
theorem reports_name_mem {revisionId : String} {offlineIsPending : Bool} {calls : List (Call F)}
    {watch : Watch F} {answers : List (Report F)}
    (h : reports revisionId offlineIsPending calls watch = some answers) :
    ∀ report ∈ answers, ∃ call ∈ calls, call.name = report.name := by
  induction calls generalizing watch answers with
  | nil =>
      obtain rfl := Option.some.inj h
      simp
  | cons call calls ih =>
      obtain ⟨⟨watch', answer⟩, _, h⟩ := Option.bind_eq_some_iff.mp h
      dsimp only at h
      split at h
      · obtain rfl := Option.some.inj h
        simp
      · obtain ⟨rest, hrest, h⟩ := Option.bind_eq_some_iff.mp h
        obtain rfl := Option.some.inj h
        intro report hreport
        rcases List.mem_cons.mp hreport with rfl | hreport
        · exact ⟨call, List.mem_cons_self, rfl⟩
        · obtain ⟨call', hcall', hname⟩ := ih hrest report hreport
          exact ⟨call', List.mem_cons_of_mem _ hcall', hname⟩

private theorem reportedEntry_cons (report : Report F) (answers : List (Report F))
    (name : String) :
    reportedEntry (report :: answers) name =
      if report.name = name ∧ report.entered = true then entryOfAck report.answer.ack
      else reportedEntry answers name := by
  by_cases h : report.name = name ∧ report.entered = true
  · simp [reportedEntry, h]
  · have hfalse : (decide (report.name = name) && report.entered) = false := by
      simpa using h
    rw [reportedEntry, List.find?_cons, hfalse, if_neg h]
    rfl

/-- The record after one answer was entered. -/
theorem Call.read_enter {call : Call F} {store store' : Store F} {revisionId : String}
    {answer : Answer F} (h : call.enter store revisionId answer = some store')
    {record' : Record F} (hread : store'.read revisionId = some record') :
    ∃ record, store.read revisionId = some record ∧
      Entered record record' fun name =>
        if call.name = name ∧ call.marks answer.ack = true then entryOfAck answer.ack else none := by
  by_cases hmarks : call.marks answer.ack = true
  · simp only [enter, hmarks, ↓reduceIte, Option.bind_eq_bind, Option.bind_eq_some_iff,
      Option.map_eq_some_iff] at h
    obtain ⟨entry, hentry, ⟨marked, store₂⟩, hmarked, rfl⟩ := h
    obtain ⟨record, hrecord, hread₂⟩ := read_markParticipant hmarked
    obtain rfl := Option.some.inj (hread₂.symm.trans hread)
    refine ⟨record, hrecord, ?_⟩
    simpa only [hmarks, and_true, hentry, eq_comm] using Entered.marked record call.name entry
  · simp only [enter, hmarks, Bool.false_eq_true, ↓reduceIte, Option.some.injEq] at h
    subst h
    refine ⟨record', hread, ?_⟩
    simpa only [hmarks, Bool.false_eq_true, and_false, ↓reduceIte] using Entered.refl record'

/-- The transaction lists the answers, each accepted as `Answer.accepted` says, and the record read
afterwards is the record before with the reported entries. -/
theorem applyCalls_spec {revisionId : String} {offlineIsPending : Bool} {calls : List (Call F)}
    (hnames : (calls.map (·.name)).Nodup) {store store' : Store F} {watch watch' : Watch F}
    {results : List (String × CallResult F)}
    (h : applyCalls revisionId offlineIsPending calls store watch =
      some (store', watch', results)) :
    ∃ answers, reports revisionId offlineIsPending calls watch = some answers ∧
      results = answers.map (fun report => (report.name,
        { accepted := report.answer.accepted revisionId, acknowledgement := report.answer })) ∧
      ∀ record', store'.read revisionId = some record' →
        ∃ record, store.read revisionId = some record ∧
          Entered record record' (reportedEntry answers) := by
  induction calls generalizing store watch results with
  | nil =>
      obtain ⟨rfl, rfl, rfl⟩ := by simpa [applyCalls] using h
      exact ⟨[], rfl, rfl, fun record' hread => ⟨record', hread, .refl record'⟩⟩
  | cons call calls ih =>
      rw [List.map_cons, List.nodup_cons] at hnames
      obtain ⟨⟨watch₁, answer⟩, hask, h⟩ := Option.bind_eq_some_iff.mp h
      obtain ⟨store₁, hstore₁, h⟩ := Option.bind_eq_some_iff.mp h
      let report : Report F := ⟨call.name, answer, call.marks answer.ack⟩
      dsimp only at h
      split at h
      · rename_i hstop
        obtain ⟨rfl, rfl, rfl⟩ := by simpa using h
        refine ⟨[report], ?_, rfl, fun record' hread => ?_⟩
        · simp only [reports, hask, Option.bind_eq_bind, Option.bind_some]
          rw [if_pos hstop]
          rfl
        · obtain ⟨record, hrecord, hentered⟩ := call.read_enter hstore₁ hread
          refine ⟨record, hrecord, ?_⟩
          have heq : reportedEntry [report] = fun name =>
              if call.name = name ∧ call.marks answer.ack = true then entryOfAck answer.ack
              else none := by
            funext name
            rw [reportedEntry_cons]
            rfl
          exact heq ▸ hentered
      · rename_i hgo
        obtain ⟨⟨store₂, watch₂, rest⟩, hrest, h⟩ := Option.bind_eq_some_iff.mp h
        obtain ⟨rfl, rfl, rfl⟩ := by simpa using h
        obtain ⟨answers, hanswers, rfl, hafter⟩ := ih hnames.2 hrest
        refine ⟨report :: answers, ?_, rfl, fun record' hread => ?_⟩
        · simp only [reports, hask, Option.bind_eq_bind, Option.bind_some]
          rw [if_neg hgo, hanswers]
          rfl
        · obtain ⟨record₁, hread₁, hentered₁⟩ := hafter record' hread
          obtain ⟨record, hread₀, hentered⟩ := call.read_enter hstore₁ hread₁
          refine ⟨record, hread₀, ?_⟩
          have heq : reportedEntry (report :: answers) = fun name =>
              (reportedEntry answers name).or
                (if call.name = name ∧ call.marks answer.ack = true then entryOfAck answer.ack
                else none) := by
            funext name
            rw [reportedEntry_cons]
            by_cases hname : call.name = name
            · -- no later call is for this participant
              have hnone : reportedEntry answers name = none := by
                rw [reportedEntry, List.find?_eq_none.mpr, Option.bind_none]
                intro later hlater
                obtain ⟨call', hcall', hname'⟩ := reports_name_mem hanswers later hlater
                have hne : later.name ≠ name := fun heq =>
                  hnames.1 (List.mem_map.mpr ⟨call', hcall', by rw [hname', heq, hname]⟩)
                simp [hne]
              simp [report, hname, hnone]
            · simp [report, hname]
          exact heq ▸ hentered.trans hentered₁

/-! ## Transactions -/

/-- The transaction in terms of the calls and of the record read after them. -/
theorem apply_spec {store store' : Store F} {record : Record F} {env : Environment F}
    {offlineIsPending : Bool} {transaction : Transaction F}
    (h : apply store record env offlineIsPending = some (transaction, store')) :
    ∃ store₁ watch results current,
      applyCalls record.revisionId offlineIsPending (calls env record) store
          { acks := store.acks, written := fun _ => false } = some (store₁, watch, results) ∧
        store₁.read record.revisionId = some current ∧
        transaction.committable = current.allRequiredAcknowledged ∧
        transaction.pending = (results.filter fun r => !r.2.accepted).map Prod.fst ∧
        transaction.participants = results := by
  obtain ⟨⟨store₁, watch, results⟩, hcalls, h⟩ := Option.bind_eq_some_iff.mp h
  obtain ⟨current, hread, h⟩ := Option.bind_eq_some_iff.mp h
  obtain ⟨status, _, h⟩ := Option.bind_eq_some_iff.mp h
  obtain ⟨rfl, rfl⟩ := Prod.mk.inj (Option.some.inj h)
  exact ⟨store₁, watch, results, current, hcalls, hread, rfl, rfl, rfl⟩

/-- A transaction that `apply` returns meets the guarantee exactly when some required participant
has no matching acknowledgement, or every participant accepted the revision and those required
answered during the call. -/
theorem committable_current_iff {store store' : Store F} {record : Record F}
    {env : Environment F} {offlineIsPending : Bool} {transaction : Transaction F}
    (h : apply store record env offlineIsPending = some (transaction, store')) :
    ∃ stored answers, store.read record.revisionId = some stored ∧
      reports record.revisionId offlineIsPending (calls env record)
        { acks := store.acks, written := fun _ => false } = some answers ∧
      (transaction.Current stored.required ↔ Lacking stored answers ∨ Current stored answers) := by
  obtain ⟨store₁, watch, results, current, hcalls, hread, hcommittable, hpending, hresults⟩ :=
    apply_spec h
  obtain ⟨answers, hanswers, rfl, hafter⟩ := applyCalls_spec
    (by simp [calls, applyRos, applySionna, applyIsaac]) hcalls
  obtain ⟨stored, hstored, hentered⟩ := hafter current hread
  refine ⟨stored, answers, hstored, hanswers, ?_⟩
  have hid : stored.revisionId = record.revisionId := store.keyed _ _ hstored
  -- not committable: a required participant lacks an acknowledgement
  have hlacking : transaction.committable = true ↔ ¬ Lacking stored answers := by
    rw [hcommittable, hentered.allRequiredAcknowledged, List.all_eq_true]
    simp [Lacking]
  -- committable and current: nothing pending, and a fresh answer of each required one
  have hcurrent : (transaction.pending = [] ∧ ∀ name ∈ stored.required, ∃ result,
      (name, result) ∈ transaction.participants ∧ result.accepted = true ∧
        result.acknowledgement.fresh = true) ↔ Current stored answers := by
    rw [hpending, hresults]
    constructor
    · rintro ⟨hnil, hfresh⟩
      rw [List.map_eq_nil_iff, List.filter_eq_nil_iff] at hnil
      refine ⟨fun report hreport => ?_, fun name hname => ?_⟩
      · rw [hid]
        simpa using hnil _ (List.mem_map.mpr ⟨report, hreport, rfl⟩)
      · obtain ⟨result, hresult, _, hfresh⟩ := hfresh name hname
        obtain ⟨report, hreport, heq⟩ := List.mem_map.mp hresult
        obtain ⟨rfl, rfl⟩ := Prod.mk.inj heq
        exact ⟨report, hreport, rfl, hfresh⟩
    · rintro ⟨haccepted, hfresh⟩
      refine ⟨?_, fun name hname => ?_⟩
      · rw [List.map_eq_nil_iff, List.filter_eq_nil_iff]
        intro result hresult
        obtain ⟨report, hreport, rfl⟩ := List.mem_map.mp hresult
        simp [← hid, haccepted report hreport]
      · obtain ⟨report, hreport, rfl, hfresh⟩ := hfresh name hname
        refine ⟨_, List.mem_map.mpr ⟨report, hreport, rfl⟩, ?_, hfresh⟩
        rw [← hid]
        exact haccepted report hreport
  rw [Transaction.Current, hlacking, hcurrent]
  exact or_iff_not_imp_left.symm

/-! ## A participant that is gone -/

/-- The store with one revision `"x"` of the empty configuration, where every digest is `"h"`. -/
def draftStore : Store ℚ :=
  Run.run (Store.perform .unary fun _ => some "h") .empty
    [.create (.obj []) requiredParticipants]

/-- The revision of `draftStore`. -/
def draft : Record ℚ := draftStore.desired.get (by decide)

/-- An acknowledgement of `draft` with all of its hashes. -/
def draftAck : Json ℚ :=
  .obj [("revision_id", .str "x"), ("accepted", .bool true),
    ("observed_hashes", .obj (draft.hashes.entries.map fun e => (e.1, .str e.2)))]

/-- All participants acknowledge `draft`. -/
def reachable : Environment ℚ where
  ros := [fun file => if file = .ros then [(.ros, some draftAck)] else []]
  sionna := .ok draftAck
  isaac := [fun _ => [(.isaac, some draftAck)]]

/-- The acknowledgement files are as they were left, and `sionna` cannot be reached. -/
def sionnaGone : Environment ℚ where
  ros := [fun _ => []]
  sionna := .error "connection refused"
  isaac := [fun _ => []]

/-- What the calls left behind after all participants acknowledged. -/
def acknowledgedStore : Store ℚ :=
  ((apply draftStore draft reachable true).map Prod.snd).getD draftStore

/-- Where all participants answer, the transaction rests on current answers. -/
theorem committable_current_reachable :
    ∃ transaction store' stored answers,
      apply draftStore draft reachable true = some (transaction, store') ∧
      draftStore.read draft.revisionId = some stored ∧
      reports draft.revisionId true (calls reachable draft)
        { acks := draftStore.acks, written := fun _ => false } = some answers ∧
      (transaction.Current stored.required ↔
        Lacking stored answers ∨ Current stored answers) := by
  have hsome : (apply draftStore draft reachable true).isSome = true := by decide
  obtain ⟨⟨transaction, store'⟩, h⟩ := Option.isSome_iff_exists.mp hsome
  obtain ⟨stored, answers, hstored, hanswers, hiff⟩ := committable_current_iff h
  exact ⟨transaction, store', stored, answers, h, hstored, hanswers, hiff⟩

/-- After a call with everyone reachable, `apply` reports the revision as committable although
`sionna` is pending: its earlier acknowledgement still counts. -/
theorem committable_sionna_gone :
    ¬ ∀ (store store' : Store ℚ) (record stored : Record ℚ) (env : Environment ℚ)
        (offlineIsPending : Bool) (transaction : Transaction ℚ),
      apply store record env offlineIsPending = some (transaction, store') →
        store.read record.revisionId = some stored → transaction.Current stored.required := by
  intro hall
  have hresult : ((apply acknowledgedStore draft sionnaGone true).map
      fun r => (r.1.committable, r.1.pending)) = some (true, ["sionna"]) := by decide
  obtain ⟨⟨transaction, store'⟩, h, heq⟩ := Option.map_eq_some_iff.mp hresult
  have hread : (acknowledgedStore.read draft.revisionId).isSome = true := by decide
  obtain ⟨stored, hstored⟩ := Option.isSome_iff_exists.mp hread
  obtain ⟨hcommittable, hpending⟩ := Prod.mk.inj heq
  obtain ⟨hnil, _⟩ := hall _ _ _ _ _ _ _ h hstored hcommittable
  rw [hpending] at hnil
  cases hnil

end Netlab.Synchronization
