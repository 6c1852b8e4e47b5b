import Netlab.Prelude.Float
import Netlab.Prelude.RootedPaths
import Netlab.Models

/-!
# Configured edges

The edge set of a topology section, as `netlab/topology.py` reads it: branches of relay indices are
paths from the source, and a manual topology lists its edges. `validate_topology` works on the
sanitized branches, the previews on the branches as they are stored.
-/

namespace Netlab

variable {F : Type}

/-- How relays are arranged (`TopologyMode`). -/
inductive TopologyMode
  | chain
  | parallel
  | forest
  | manual
  deriving DecidableEq, Repr

/-- The wire text of a topology mode. -/
def TopologyMode.value : TopologyMode → String
  | chain => "chain"
  | parallel => "parallel"
  | forest => "forest"
  | manual => "manual"

/-- The mode with a given wire text. -/
def TopologyMode.ofValue? (text : String) : Option TopologyMode :=
  [chain, parallel, forest, manual].find? fun mode => mode.value = text

/-- The node name of a relay index. -/
def droneNode (index : ℤ) : String := "drone_" ++ toString index

theorem droneNode_injective : Function.Injective droneNode := by
  intro i j h
  have hlist := congrArg String.toList h
  rw [droneNode, droneNode, String.toList_append, String.toList_append,
    List.append_right_inj] at hlist
  exact intText_injective (String.toList_injective hlist)

theorem droneNode_ne_station (index : ℤ) : droneNode index ≠ "station" := by
  intro h
  have hhead := congrArg (fun s : String => s.toList.head?) h
  simp [droneNode] at hhead

variable [PyText F] [PyFloat F]

/-! ## Branches -/

/-- Read one branch: entries that are no integers, lie outside `1..relayCount`, repeat an entry of
the branch or, unless sharing is allowed, an earlier branch are skipped. -/
def sanitizeBranch (relayCount : ℤ) (allowShared : Bool) (used : List ℤ)
    (entries : List (Json F)) : List ℤ :=
  entries.foldl (fun branch raw =>
    match raw.toInt? with
    | some idx =>
        if idx < 1 ∨ relayCount < idx ∨ idx ∈ branch then branch
        else if !allowShared ∧ idx ∈ used then branch
        else branch ++ [idx]
    | none => branch) []

/-- An entry that is no integer is skipped. -/
theorem sanitizeBranch_concat_none {relayCount : ℤ} {allowShared : Bool} {used : List ℤ}
    {entries : List (Json F)} {raw : Json F} (h : raw.toInt? = none) :
    sanitizeBranch relayCount allowShared used (entries ++ [raw]) =
      sanitizeBranch relayCount allowShared used entries := by
  simp only [sanitizeBranch, List.foldl_append, List.foldl_cons, List.foldl_nil, h]

/-- An entry that is an integer is appended, if it is in range and not there yet. -/
theorem sanitizeBranch_concat_some {relayCount : ℤ} {allowShared : Bool} {used : List ℤ}
    {entries : List (Json F)} {raw : Json F} {idx : ℤ} (h : raw.toInt? = some idx) :
    sanitizeBranch relayCount allowShared used (entries ++ [raw]) =
      if idx < 1 ∨ relayCount < idx ∨ idx ∈ sanitizeBranch relayCount allowShared used entries then
        sanitizeBranch relayCount allowShared used entries
      else if !allowShared ∧ idx ∈ used then sanitizeBranch relayCount allowShared used entries
      else sanitizeBranch relayCount allowShared used entries ++ [idx] := by
  simp only [sanitizeBranch, List.foldl_append, List.foldl_cons, List.foldl_nil, h]
  rfl

/-- Read one more branch: what is no list is skipped, and so is a branch without a valid entry. The
state holds the relays used so far and the branches read. -/
def sanitizeStep (relayCount : ℤ) (allowShared : Bool) (result : List ℤ × List (List ℤ)) :
    Json F → List ℤ × List (List ℤ)
  | .arr entries =>
      let branch := sanitizeBranch relayCount allowShared result.1 entries
      (result.1 ++ branch, if branch = [] then result.2 else result.2 ++ [branch])
  | _ => result

/-- Read the branches of a topology (`sanitize_branches`). -/
def sanitizeBranches (relayCount : ℤ) (allowShared : Bool) : Json F → List (List ℤ)
  | .arr branches => (branches.foldl (sanitizeStep relayCount allowShared) ([], [])).2
  | _ => []

/-- The edges of one branch behind the node `prev`. -/
def branchEdges (prev : String) : List ℤ → List (String × String)
  | [] => []
  | idx :: rest => (prev, droneNode idx) :: branchEdges (droneNode idx) rest

/-- The edges of branches that start at a source (`branches_to_edges`). -/
def branchesToEdges (branches : List (List ℤ)) (source : String) : List (String × String) :=
  branches.flatMap (branchEdges source)

/-- The integers of a branch; every entry has to be one. -/
def branchInts? (branch : Json F) : Option (List ℤ) := do
  (← branch.elements?).mapM Json.toInt?

/-- The branches as `branches_to_edges` reads them from an unsanitized section. -/
def branchInts (branches : Json F) : Option (List (List ℤ)) := do
  (← branches.elements?).mapM branchInts?

/-- The edges of a manual topology: pairs of node names, or objects with a source and a
destination (`normalize_manual_edges`). Anything else is skipped. -/
def normalizeManualEdges : Json F → List (String × String)
  | .arr items => items.filterMap fun item => do
      let (src, dst) ←
        match item with
        | .arr [src, dst] => some (src, dst)
        -- an edge is a pair, or names its ends
        | .obj members =>
            let edge := Dict.ofList members
            some (edge.getD "src" .null, edge.getD "dst" .null)
        | _ => none
      let srcText := PyText.strip F (src.orElse (.str "")).toText
      let dstText := PyText.strip F (dst.orElse (.str "")).toText
      if srcText ≠ "" ∧ dstText ≠ "" then some (srcText, dstText) else none
  | _ => []

/-- What is read of a branch lists distinct relays of the inventory. -/
theorem sanitizeBranch_spec (relayCount : ℤ) (allowShared : Bool) (used : List ℤ)
    (entries : List (Json F)) : (sanitizeBranch relayCount allowShared used entries).Nodup ∧
      ∀ idx ∈ sanitizeBranch relayCount allowShared used entries, 1 ≤ idx ∧ idx ≤ relayCount := by
  induction entries using List.reverseRecOn with
  | nil => exact ⟨List.nodup_nil, by simp [sanitizeBranch]⟩
  | append_singleton entries raw ih =>
      obtain ⟨hnodup, hrange⟩ := ih
      cases hraw : raw.toInt? with
      | none => exact (sanitizeBranch_concat_none hraw).symm ▸ ⟨hnodup, hrange⟩
      | some idx =>
          rw [sanitizeBranch_concat_some hraw]
          split_ifs with hskip hused
          · exact ⟨hnodup, hrange⟩
          · exact ⟨hnodup, hrange⟩
          · obtain ⟨hlow, hhigh, hnew⟩ : ¬idx < 1 ∧ ¬relayCount < idx ∧ idx ∉ _ := by
              rwa [not_or, not_or] at hskip
            have hconcat := List.Nodup.concat hnew hnodup
            rw [List.concat_eq_append] at hconcat
            refine ⟨hconcat, fun i hi => ?_⟩
            rcases List.mem_append.mp hi with hmem | hmem
            · exact hrange i hmem
            · rw [List.mem_singleton.mp hmem]
              omega

/-- A branch that is read is not empty, and is what was read of some list. -/
theorem exists_of_mem_sanitizeBranches {relayCount : ℤ} {allowShared : Bool} {branches : Json F}
    {branch : List ℤ} (h : branch ∈ sanitizeBranches relayCount allowShared branches) :
    branch ≠ [] ∧ ∃ used entries,
      branch = sanitizeBranch relayCount allowShared used (entries : List (Json F)) := by
  cases branches with
  | arr items =>
      refine List.foldlRecOn (motive := fun state => ∀ b ∈ state.2, b ≠ [] ∧ ∃ used entries,
        b = sanitizeBranch relayCount allowShared used (entries : List (Json F))) items
        (sanitizeStep relayCount allowShared) (by simp) (fun state hstate raw _ => ?_) branch h
      cases raw with
      | arr entries =>
          intro b hb
          rw [sanitizeStep] at hb
          dsimp only at hb
          split at hb
          · exact hstate b hb
          · rename_i hne
            rcases List.mem_append.mp hb with hmem | hmem
            · exact hstate b hmem
            · rw [List.mem_singleton.mp hmem]
              exact ⟨hne, _, _, rfl⟩
      | _ => exact hstate
  | _ => simp [sanitizeBranches] at h

/-- A branch that is read is not empty. -/
theorem ne_nil_of_mem_sanitizeBranches {relayCount : ℤ} {allowShared : Bool} {branches : Json F}
    {branch : List ℤ} (h : branch ∈ sanitizeBranches relayCount allowShared branches) :
    branch ≠ [] :=
  (exists_of_mem_sanitizeBranches h).1

/-- A branch that is read lists no relay twice. -/
theorem nodup_of_mem_sanitizeBranches {relayCount : ℤ} {allowShared : Bool} {branches : Json F}
    {branch : List ℤ} (h : branch ∈ sanitizeBranches relayCount allowShared branches) :
    branch.Nodup := by
  obtain ⟨-, used, entries, rfl⟩ := exists_of_mem_sanitizeBranches h
  exact (sanitizeBranch_spec relayCount allowShared used entries).1

/-- A branch that is read lists relays of the inventory. -/
theorem range_of_mem_sanitizeBranches {relayCount : ℤ} {allowShared : Bool} {branches : Json F}
    {branch : List ℤ} (h : branch ∈ sanitizeBranches relayCount allowShared branches) :
    ∀ idx ∈ branch, 1 ≤ idx ∧ idx ≤ relayCount := by
  obtain ⟨-, used, entries, rfl⟩ := exists_of_mem_sanitizeBranches h
  exact (sanitizeBranch_spec relayCount allowShared used entries).2

/-- The edges of branches are the hops of the paths from the source. -/
theorem branchesToEdges_eq (branches : List (List ℤ)) (source : String) :
    branchesToEdges branches source =
      List.rootedHops source (branches.map fun branch => branch.map droneNode) := by
  have hbranch : ∀ (branch : List ℤ) (prev : String),
      branchEdges prev branch = List.hops (prev :: branch.map droneNode) := by
    intro branch
    induction branch with
    | nil => exact fun prev => rfl
    | cons idx rest ih => exact fun prev => congrArg _ (ih _)
  rw [branchesToEdges, List.rootedHops, List.flatMap_map]
  exact congrArg (fun edges => branches.flatMap edges) (funext fun branch => hbranch branch _)

end Netlab
