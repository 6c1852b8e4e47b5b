import Netlab.Config.ValidatedEdges
import Netlab.Relay.Fleet

/-!
# The two readers of branches

Branches are read from JSON twice: by the configuration tools (`sanitize_branches`) and by the relay
chain (`_sanitize_manual_branches`). The loops keep different books on the relays that they have
seen, the first one for each branch and over all branches, the second one only over all branches.
Both keep the first occurrences among the integers that are listed (`sanitizeBranches_false`,
`sanitizeManualBranches_eq`), so where relays may not be shared they read the same branches
(`branch_sanitizers_agree`).
-/

namespace Netlab

variable {F : Type} [PyText F] [PyFloat F]

/-- The relays that a fleet of the given size has. -/
def inFleet (relayCount idx : ℤ) : Bool := 1 ≤ idx ∧ idx ≤ relayCount

/-- Branches as a JSON value. -/
def branchesJson (rows : List (List ℤ)) : Json F := .arr (rows.map fun row => .arr (row.map .int))

/-- The branches that a value lists; what is no list has none. -/
def listedBranches : Json F → List (Json F)
  | .arr branches => branches
  | _ => []

theorem rawBranches_cons_arr (values branches : List (Json F)) :
    RelayChain.rawBranches (.arr (.arr values :: branches)) =
      values.filterMap Json.toInt? :: RelayChain.rawBranches (.arr branches) := rfl

/-! ## The configuration tools -/

/-- A branch is read as the first occurrences among its integers. Relays of earlier branches count
as seen unless they may be shared. -/
theorem sanitizeBranch_eq_firstRow (relayCount : ℤ) (allowShared : Bool) (used : List ℤ)
    (entries : List (Json F)) :
    sanitizeBranch relayCount allowShared used entries =
      List.firstRow (inFleet relayCount) (if allowShared then [] else used)
        (entries.filterMap Json.toInt?) := by
  induction entries using List.reverseRecOn with
  | nil => rfl
  | append_singleton entries raw ih =>
      rw [List.filterMap_append]
      cases hraw : raw.toInt? with
      | none => simpa [sanitizeBranch_concat_none hraw, hraw] using ih
      | some idx =>
          rw [sanitizeBranch_concat_some hraw, List.filterMap_cons_some hraw, List.filterMap_nil,
            List.firstRow_concat, ih]
          cases allowShared <;> simp only [inFleet] <;> grind

/-- Where relays are not shared, the branches are the rows of first occurrences. -/
theorem sanitizeBranches_false (relayCount : ℤ) (value : Json F) :
    sanitizeBranches relayCount false value =
      List.firstRows (inFleet relayCount) [] (RelayChain.rawBranches value) := by
  cases value with
  | arr branches =>
      have hfold : ∀ (used : List ℤ) (result : List (List ℤ)),
          (branches.foldl (sanitizeStep relayCount false) (used, result)).2 =
            result ++ List.firstRows (inFleet relayCount) used
              (RelayChain.rawBranches (.arr branches)) := by
        induction branches with
        | nil => simp [RelayChain.rawBranches, List.firstRows]
        | cons branch branches ih =>
            intro used result
            cases branch with
            | arr entries =>
                rw [List.foldl_cons, sanitizeStep, ih, rawBranches_cons_arr, List.firstRows,
                  sanitizeBranch_eq_firstRow]
                simp only [Bool.false_eq_true, if_false]
                split <;> simp [*]
            | _ => exact ih used result
      exact hfold [] []
  | _ => rfl

/-- Where relays may be shared, each branch is read on its own. -/
theorem sanitizeBranches_true (relayCount : ℤ) (value : Json F) :
    sanitizeBranches relayCount true value =
      ((RelayChain.rawBranches value).map (List.firstRow (inFleet relayCount) [])).filter
        fun row => row ≠ [] := by
  cases value with
  | arr branches =>
      have hfold : ∀ (used : List ℤ) (result : List (List ℤ)),
          (branches.foldl (sanitizeStep relayCount true) (used, result)).2 =
            result ++ ((RelayChain.rawBranches (.arr branches)).map
              (List.firstRow (inFleet relayCount) [])).filter fun row => row ≠ [] := by
        induction branches with
        | nil => simp [RelayChain.rawBranches]
        | cons branch branches ih =>
            intro used result
            cases branch with
            | arr entries =>
                rw [List.foldl_cons, sanitizeStep, ih, rawBranches_cons_arr, List.map_cons,
                  List.filter_cons, sanitizeBranch_eq_firstRow]
                simp only [if_true]
                split <;> simp_all
            | _ => exact ih used result
      exact hfold [] []
  | _ => rfl

/-! ## The relay chain -/

namespace RelayChain

/-- Read one value of a branch. The state holds the indices seen in all branches so far and the row
of the branch. -/
def manualStep (chain : RelayChain) (filterFailed : Bool) (state : List ℤ × List ℤ)
    (value : Json F) : List ℤ × List ℤ :=
  match value.toInt? with
  | none => state
  | some idx =>
      if idx ∉ missionIndices chain.droneCount ∨ (filterFailed ∧ idx ∈ chain.failedIndices) ∨
          (filterFailed ∧ idx ∈ chain.standbyIndices) ∨ idx ∈ state.1 then state
      else (state.1 ++ [idx], state.2 ++ [idx])

/-- Read one more branch. The state holds the indices seen so far and the rows read. -/
def manualBranchStep (chain : RelayChain) (filterFailed : Bool) (state : List ℤ × List (List ℤ)) :
    Json F → List ℤ × List (List ℤ)
  | .arr values =>
      let (seen, row) := values.foldl (chain.manualStep filterFailed) (state.1, [])
      (seen, if row = [] then state.2 else state.2 ++ [row])
  | _ => state

/-- The branches of a value, as the loops of the relay chain read them
(`_sanitize_manual_branches`). -/
def sanitizeManualBranches (chain : RelayChain) (filterFailed : Bool) : Json F → List (List ℤ)
  | .arr branches => (branches.foldl (chain.manualBranchStep filterFailed) ([], [])).2
  | _ => []

/-- The indices that are skipped besides those outside the fleet. -/
def excludedIndices (chain : RelayChain) (filterFailed : Bool) : List ℤ :=
  if filterFailed then chain.failedIndices ++ chain.standbyIndices else []

/-- Whether an index is read at all. -/
def readable (chain : RelayChain) (filterFailed : Bool) (idx : ℤ) : Bool :=
  1 ≤ idx ∧ idx ≤ chain.droneCount ∧ idx ∉ chain.excludedIndices filterFailed

/-- The row of a branch is made of its first occurrences, and what it keeps counts as seen. -/
theorem foldl_manualStep (chain : RelayChain) (filterFailed : Bool) (seen : List ℤ)
    (values : List (Json F)) :
    values.foldl (chain.manualStep filterFailed) (seen, []) =
      let row := List.firstRow (chain.readable filterFailed) seen (values.filterMap Json.toInt?)
      (seen ++ row, row) := by
  induction values using List.reverseRecOn with
  | nil => simp [List.firstRow]
  | append_singleton values value ih =>
      rw [List.foldl_append, ih, List.filterMap_append, List.foldl_cons, List.foldl_nil, manualStep]
      cases hvalue : value.toInt? with
      | none => simp [hvalue]
      | some idx =>
          rw [List.filterMap_cons_some hvalue, List.filterMap_nil, List.firstRow_concat]
          cases filterFailed <;>
            simp only [readable, excludedIndices, mem_missionIndices] <;> grind

/-- The loops of the relay chain keep the first occurrences over all branches. -/
theorem sanitizeManualBranches_eq (chain : RelayChain) (filterFailed : Bool) (value : Json F) :
    chain.sanitizeManualBranches filterFailed value =
      sanitizeRows chain.droneCount (chain.excludedIndices filterFailed) (rawBranches value) := by
  cases value with
  | arr branches =>
      have hfold : ∀ (seen : List ℤ) (clean : List (List ℤ)),
          (branches.foldl (chain.manualBranchStep filterFailed) (seen, clean)).2 =
            clean ++ List.firstRows (chain.readable filterFailed) seen
              (rawBranches (.arr branches)) := by
        induction branches with
        | nil => simp [rawBranches, List.firstRows]
        | cons branch branches ih =>
            intro seen clean
            cases branch with
            | arr values =>
                rw [List.foldl_cons, manualBranchStep, foldl_manualStep, ih, rawBranches_cons_arr,
                  List.firstRows]
                dsimp only
                split <;> simp [*]
            | _ => exact ih seen clean
      exact hfold [] []
  | _ => rfl

end RelayChain

/-! ## Both -/

theorem rawBranches_branchesJson (rows : List (List ℤ)) :
    RelayChain.rawBranches (branchesJson rows : Json F) = rows := by
  have hread : ∀ row : List ℤ, (row.map (Json.int : ℤ → Json F)).filterMap Json.toInt? = row := by
    intro row
    rw [List.filterMap_map]
    exact List.filterMap_some
  induction rows with
  | nil => rfl
  | cons row rows ih =>
      rw [branchesJson, List.map_cons, rawBranches_cons_arr, hread]
      exact congrArg _ ih

/-- Reading what was read changes nothing. -/
theorem sanitizeBranches_idem (relayCount : ℤ) (allowShared : Bool) (value : Json F) :
    sanitizeBranches relayCount allowShared
        (branchesJson (sanitizeBranches relayCount allowShared value) : Json F) =
      sanitizeBranches relayCount allowShared value := by
  cases allowShared with
  | false =>
      rw [sanitizeBranches_false, rawBranches_branchesJson, sanitizeBranches_false,
        List.firstRows_idem]
  | true =>
      rw [sanitizeBranches_true, rawBranches_branchesJson, sanitizeBranches_true]
      generalize hrows : ((RelayChain.rawBranches value).map
        (List.firstRow (inFleet relayCount) [])).filter (fun row => row ≠ []) = rows
      have hkept : ∀ row ∈ rows, List.firstRow (inFleet relayCount) [] row = row ∧ row ≠ [] := by
        intro row hrow
        rw [← hrows, List.mem_filter, List.mem_map] at hrow
        obtain ⟨⟨raw, -, rfl⟩, hne⟩ := hrow
        exact ⟨List.firstRow_firstRow _ raw, of_decide_eq_true hne⟩
      rw [List.map_congr_left fun row hrow => (hkept row hrow).1, List.map_id', List.filter_eq_self]
      exact fun row hrow => decide_eq_true (hkept row hrow).2

/-- Rows that are parts of the integers of the branches are parts of the branches. -/
theorem sublistForall₂_listedBranches {rows : List (List ℤ)} {value : Json F}
    (h : List.SublistForall₂ List.Sublist rows (RelayChain.rawBranches value)) :
    List.SublistForall₂ (fun row branch => ∃ entries, branch = Json.arr entries ∧
      row.Sublist (entries.filterMap Json.toInt?)) rows (listedBranches value) := by
  cases value with
  | arr branches =>
      rw [listedBranches]
      induction branches generalizing rows with
      | nil =>
          cases h
          exact .nil
      | cons branch branches ih =>
          cases branch with
          | arr entries =>
              rw [rawBranches_cons_arr] at h
              cases h with
              | nil => exact .nil
              | cons hrow hrest => exact .cons ⟨entries, rfl, hrow⟩ (ih hrest)
              | cons_right hrest => exact .cons_right (ih hrest)
          | _ => exact .cons_right (ih h)
  | _ =>
      cases h
      exact .nil

/-- Each branch that is read is a part of a listed one, and they come in the same order. -/
theorem sublistForall₂_sanitizeBranches (relayCount : ℤ) (allowShared : Bool) (value : Json F) :
    List.SublistForall₂ (fun row branch => ∃ entries, branch = Json.arr entries ∧
        row.Sublist (entries.filterMap Json.toInt?))
      (sanitizeBranches relayCount allowShared value) (listedBranches value) := by
  refine sublistForall₂_listedBranches ?_
  cases allowShared with
  | false => exact sanitizeBranches_false relayCount value ▸ List.sublistForall₂_firstRows _ _ _
  | true =>
      exact sanitizeBranches_true relayCount value ▸ List.sublistForall₂_map_firstRow _ _ _ _

/-- For every JSON value the two readers agree where relays are not shared; and with or without
sharing, reading is idempotent and yields non-empty parts of the listed branches, in order, of
distinct relays of the fleet. -/
theorem branch_sanitizers_agree (value : Json F) (n : ℤ) :
    (∀ chain : RelayChain, sanitizeBranches n false value =
      { chain with droneCount := n }.sanitizeManualBranches false value) ∧
    ∀ allowShared,
      sanitizeBranches n allowShared
          (branchesJson (sanitizeBranches n allowShared value) : Json F) =
        sanitizeBranches n allowShared value ∧
      (∀ row ∈ sanitizeBranches n allowShared value,
        row ≠ [] ∧ row.Nodup ∧ ∀ idx ∈ row, 1 ≤ idx ∧ idx ≤ n) ∧
      List.SublistForall₂ (fun row branch => ∃ entries, branch = Json.arr entries ∧
          row.Sublist (entries.filterMap Json.toInt?))
        (sanitizeBranches n allowShared value) (listedBranches value) := by
  refine ⟨fun chain => ?_, fun allowShared => ⟨sanitizeBranches_idem n allowShared value,
    fun row hrow => ⟨ne_nil_of_mem_sanitizeBranches hrow, nodup_of_mem_sanitizeBranches hrow,
      range_of_mem_sanitizeBranches hrow⟩,
    sublistForall₂_sanitizeBranches n allowShared value⟩⟩
  rw [sanitizeBranches_false, RelayChain.sanitizeManualBranches_eq]
  simp only [RelayChain.sanitizeRows, RelayChain.excludedIndices, Bool.false_eq_true, if_false,
    List.not_mem_nil, not_false_eq_true, and_true]
  rfl

end Netlab
