import Netlab.Config.Validation

/-!
# The edges of a configuration

The edge set that `validate_topology` checks for a configuration and the one that the previews
evaluate. The validator reads the branches through `sanitize_branches`, the previews as they are
stored; on a valid configuration there is nothing to sanitize, so both see the same edges
(`topologyEdges_eq`).
-/

namespace Netlab

variable {F : Type} [PyText F] [PyFloat F]

/-- The node from which the branches start. -/
def topologySource (topology : Dict String (Json F)) : String :=
  topology.getText "source" "station"

/-- The branches of a configuration, as the validator reads them. -/
def storedBranches (config : ExperimentConfig F) : List (List ℤ) :=
  sanitizeBranches (swarmCounts config.swarm).relay true
    (config.topology.getD "branches" (.arr []))

/-- The manual edges of a topology section. -/
def manualEdges (topology : Dict String (Json F)) : List (String × String) :=
  normalizeManualEdges (topology.getD "manual_edges" (.arr []))

/-- The edges that `validate_topology` checks. -/
def validatedEdges (config : ExperimentConfig F) : List (String × String) :=
  if topologyMode config.topology = "manual" ∧
      (config.topology.getD "manual_edges" (.arr [])).truthy then
    manualEdges config.topology
  else branchesToEdges (storedBranches config) (topologySource config.topology)

/-- The edges that the previews evaluate (`_topology_edges`). The mode is compared as it is
written. -/
def topologyEdges (topology : Dict String (Json F)) : Option (List (String × String)) :=
  if topology.getText "mode" "chain" = "manual" ∧
      (topology.getD "manual_edges" .null).truthy then
    some (manualEdges topology)
  else
    (branchInts (topology.getD "branches" (.arr []))).map fun branches =>
      branchesToEdges branches (topologySource topology)

/-! ## Valid branches -/

theorem issueIf_eq_nil {failed : Prop} [Decidable failed] {path code message : String} :
    issueIf failed path code message = [] ↔ ¬failed := by
  rw [issueIf]
  split <;> simp [*]

/-- A branch without issues lists distinct relays of the inventory. -/
theorem relayIssues_eq_nil {path : String} {relayCount : ℤ} {seen : List ℤ}
    {entries : List (Json F)} (h : relayIssues path relayCount seen entries = []) :
    ∃ row : List ℤ, entries.map Json.toInt? = row.map some ∧ row.length = entries.length ∧
      row.Nodup ∧ ∀ idx ∈ row, 1 ≤ idx ∧ idx ≤ relayCount ∧ idx ∉ seen := by
  induction entries generalizing seen with
  | nil => exact ⟨[], rfl, rfl, List.nodup_nil, by simp⟩
  | cons raw rest ih =>
      rw [relayIssues] at h
      cases hraw : raw.toInt? with
      | none => simp [hraw] at h
      | some idx =>
          simp only [hraw, List.append_eq_nil_iff, issueIf_eq_nil, not_or, not_lt] at h
          obtain ⟨⟨⟨hlow, hhigh⟩, hseen⟩, hrest⟩ := h
          obtain ⟨row, hmap, hlen, hnodup, hrow⟩ := ih hrest
          refine ⟨idx :: row, by simp [hraw, hmap], by simp [hlen],
            List.nodup_cons.mpr ⟨fun hmem => (hrow idx hmem).2.2 List.mem_cons_self, hnodup⟩, ?_⟩
          intro i hi
          rcases List.mem_cons.mp hi with rfl | hmem
          · exact ⟨hlow, hhigh, hseen⟩
          · obtain ⟨h1, h2, h3⟩ := hrow i hmem
            exact ⟨h1, h2, fun hs => h3 (List.mem_cons_of_mem _ hs)⟩

/-- A valid branch and the relays it lists. -/
structure BranchRow (relayCount : ℤ) (branch : Json F) (row : List ℤ) : Prop where
  /-- The entries are the relays. -/
  entries : ∃ entries, branch = .arr entries ∧ entries.map Json.toInt? = row.map some
  nonempty : row ≠ []
  nodup : row.Nodup
  inRange : ∀ idx ∈ row, 1 ≤ idx ∧ idx ≤ relayCount

theorem branchIssues_eq_nil {relayCount : ℤ} {bi : ℕ} {branch : Json F}
    (h : branchIssues relayCount bi branch = []) : ∃ row, BranchRow relayCount branch row := by
  unfold branchIssues at h
  dsimp only at h
  split at h
  · rename_i raw rest
    obtain ⟨row, hmap, hlen, hnodup, hrow⟩ := relayIssues_eq_nil h
    refine ⟨row, ⟨_, rfl, hmap⟩, ?_, hnodup, fun idx hidx => ?_⟩
    · exact List.ne_nil_of_length_pos (by simp [hlen])
    · exact ⟨(hrow idx hidx).1, (hrow idx hidx).2.1⟩
  · simp at h

/-- A valid branch is read as the relays it lists. -/
theorem BranchRow.sanitizeBranch_eq {relayCount : ℤ} {branch : Json F} {row used : List ℤ}
    {entries : List (Json F)} (h : BranchRow relayCount branch row)
    (hentries : branch = .arr entries) : sanitizeBranch relayCount true used entries = row := by
  obtain ⟨_, hbranch, hmap⟩ := h.entries
  obtain rfl := Json.arr.inj (hentries.symm.trans hbranch)
  have hnodup := h.nodup
  have hrange := h.inRange
  clear h hentries hbranch
  -- reading the entries one by one appends the relays in order
  induction row using List.reverseRecOn generalizing entries with
  | nil =>
      rw [List.map_nil, List.map_eq_nil_iff] at hmap
      rw [hmap]
      rfl
  | append_singleton row idx ih =>
      rw [List.map_append, List.map_singleton, List.map_eq_append_iff] at hmap
      obtain ⟨front, last, rfl, hfront, hlast⟩ := hmap
      obtain ⟨raw, rfl, hraw⟩ := List.map_eq_singleton_iff.mp hlast
      obtain ⟨hrow, -, hnew⟩ := List.nodup_append.mp hnodup
      have hread := ih hfront hrow fun i hi => hrange i (List.mem_append_left _ hi)
      obtain ⟨hlow, hhigh⟩ := hrange idx (List.mem_append_right _ List.mem_cons_self)
      have hkept : ¬(idx < 1 ∨ relayCount < idx ∨ idx ∈ row) := by
        rintro (hlt | hlt | hmem)
        · omega
        · omega
        · exact hnew idx hmem idx List.mem_cons_self rfl
      rw [sanitizeBranch_concat_some hraw, hread, if_neg hkept]
      rfl

/-- Valid branches are read as the rows they list. -/
theorem sanitizeBranches_eq {relayCount : ℤ} {branches : List (Json F)} {rows : List (List ℤ)}
    (h : List.Forall₂ (BranchRow relayCount) branches rows) :
    sanitizeBranches relayCount true (.arr branches) = rows := by
  have hfold : ∀ (used : List ℤ) (result : List (List ℤ)),
      (branches.foldl (sanitizeStep relayCount true) (used, result)).2 = result ++ rows := by
    induction h with
    | nil => simp
    | cons hrow _ ih =>
        intro used result
        obtain ⟨entries, rfl, _⟩ := hrow.entries
        rw [List.foldl_cons, sanitizeStep]
        simp only [hrow.sanitizeBranch_eq rfl, if_neg hrow.nonempty]
        rw [ih, List.append_assoc]
        rfl
  exact hfold [] []

/-- Valid branches are the rows they list when they are read without sanitizing. -/
theorem branchInts_eq {relayCount : ℤ} {branches : List (Json F)} {rows : List (List ℤ)}
    (h : List.Forall₂ (BranchRow relayCount) branches rows) :
    branchInts (.arr branches) = some rows := by
  have hread : ∀ (entries : List (Json F)) (row : List ℤ),
      entries.map Json.toInt? = row.map some → entries.mapM Json.toInt? = some row := by
    intro entries
    induction entries with
    | nil => intro row hmap; cases row <;> simp_all
    | cons raw rest ih =>
        intro row hmap
        cases row with
        | nil => simp at hmap
        | cons idx row =>
            rw [List.map_cons, List.map_cons, List.cons.injEq] at hmap
            simp [List.mapM_cons, hmap.1, ih row hmap.2]
  show branches.mapM branchInts? = some rows
  induction h with
  | nil => rfl
  | cons hrow _ ih =>
      obtain ⟨entries, rfl, hmap⟩ := hrow.entries
      have hbranch : branchInts? (.arr entries) = some _ := hread entries _ hmap
      simp [List.mapM_cons, hbranch, ih]

/-- The branches of a valid configuration outside manual mode. -/
theorem valid_branches {config : ExperimentConfig F} (hvalid : config.Valid)
    (hmode : topologyMode config.topology ≠ "manual") :
    ∃ branches rows, config.topology.getD "branches" (.arr []) = .arr branches ∧ branches ≠ [] ∧
      List.Forall₂ (BranchRow (swarmCounts config.swarm).relay) branches rows := by
  have hissues := (List.append_eq_nil_iff.mp hvalid.2).2
  rw [if_neg hmode] at hissues
  split at hissues
  · rename_i branch branches hbranches
    have hall : ∀ b ∈ branch :: branches,
        ∃ row, BranchRow (swarmCounts config.swarm).relay b row := by
      intro b hb
      obtain ⟨i, hi, rfl⟩ := List.mem_iff_getElem.mp hb
      refine @branchIssues_eq_nil F _ _ _ i _ (List.flatten_eq_nil_iff.mp hissues _ ?_)
      exact List.mem_iff_getElem.mpr ⟨i, by simpa using hi, List.getElem_mapIdx ..⟩
    choose! row hrow using hall
    refine ⟨_, (branch :: branches).map row, hbranches, by simp, ?_⟩
    exact List.forall₂_map_right_iff.mpr (List.forall₂_same.mpr hrow)
  · simp at hissues

/-- A valid configuration outside manual mode stores branches. -/
theorem storedBranches_ne_nil {config : ExperimentConfig F} (hvalid : config.Valid)
    (hmode : topologyMode config.topology ≠ "manual") : storedBranches config ≠ [] := by
  obtain ⟨branches, rows, hbranches, hne, hrows⟩ := valid_branches hvalid hmode
  rw [storedBranches, hbranches, sanitizeBranches_eq hrows]
  rintro rfl
  exact hne (List.forall₂_nil_right_iff.mp hrows)

/-- The mode of a valid configuration is one of the four. -/
theorem valid_mode {config : ExperimentConfig F} (hvalid : config.Valid) :
    topologyMode config.topology ∈ ["chain", "parallel", "forest", "manual"] := by
  have hissues := (List.append_eq_nil_iff.mp hvalid.2).1
  rw [issueIf_eq_nil] at hissues
  obtain ⟨mode, hmode⟩ := Option.ne_none_iff_exists'.mp hissues
  have hvalue := List.find?_some hmode
  rw [decide_eq_true_eq] at hvalue
  rw [← hvalue]
  cases mode <;> decide

/-- A valid manual configuration lists edges. -/
theorem valid_manualEdges {config : ExperimentConfig F} (hvalid : config.Valid)
    (hmode : topologyMode config.topology = "manual") :
    (config.topology.getD "manual_edges" (.arr [])).truthy = true := by
  have hissues := (List.append_eq_nil_iff.mp hvalid.2).2
  rw [if_pos hmode] at hissues
  split at hissues
  · rename_i hedges
    rw [hedges]
    rfl
  · simp at hissues

/-- On a valid configuration whose mode is written in lower case, the previews evaluate the edges
that the validator checks. -/
theorem topologyEdges_eq {config : ExperimentConfig F} (hvalid : config.Valid)
    (hlower : config.topology.getText "mode" "chain" = topologyMode config.topology) :
    topologyEdges config.topology = some (validatedEdges config) := by
  by_cases hmode : topologyMode config.topology = "manual"
  · have hedges := valid_manualEdges hvalid hmode
    have hedges' : (config.topology.getD "manual_edges" .null).truthy = true := by
      rw [Dict.getD] at hedges ⊢
      cases hget : config.topology.get? "manual_edges" with
      | none => simp [hget, Json.truthy] at hedges
      | some value => simpa [hget] using hedges
    rw [topologyEdges, if_pos ⟨hlower.trans hmode, hedges'⟩, validatedEdges,
      if_pos ⟨hmode, hedges⟩]
  · obtain ⟨branches, rows, hbranches, -, hrows⟩ := valid_branches hvalid hmode
    rw [topologyEdges, if_neg fun h => hmode (hlower ▸ h.1), validatedEdges,
      if_neg fun h => hmode h.1, storedBranches, hbranches, branchInts_eq hrows,
      sanitizeBranches_eq hrows]
    rfl

end Netlab
