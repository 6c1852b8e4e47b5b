import Netlab.Prelude.Hops
import Mathlib.Data.List.Induction
import Mathlib.Data.List.Nodup
import Mathlib.Data.List.Pairwise
import Mathlib.Logic.Relation

/-!
# Paths from a common root

`rootedHops root rows` lists the hops of the paths that start at `root` and follow the rows. When
no node lies on two rows, the hops determine the rows: other rows have the same set of hops exactly
when they are initial parts of these rows and all of these rows are among them
(`rootedHops_eq_iff`). Such hops are distinct, reach every node from the root and form no cycle.
-/

namespace List

variable {α : Type*}

/-- The hops of the paths from a root along the rows. -/
def rootedHops (root : α) (rows : List (List α)) : List (α × α) :=
  rows.flatMap fun row => hops (root :: row)

/-- The hops of a list are its pairs of neighbours. -/
theorem mem_hops_iff {l : List α} {a b : α} :
    (a, b) ∈ l.hops ↔ ∃ pre post, l = pre ++ a :: b :: post := by
  constructor
  · intro h
    induction l with
    | nil => simp at h
    | cons x l ih =>
        cases l with
        | nil => simp at h
        | cons y l =>
            rw [hops_cons_cons, mem_cons] at h
            rcases h with heq | hmem
            · obtain ⟨rfl, rfl⟩ := Prod.mk.injEq .. ▸ heq
              exact ⟨[], l, rfl⟩
            · obtain ⟨pre, post, hl⟩ := ih hmem
              exact ⟨x :: pre, post, by rw [hl, cons_append]⟩
  · rintro ⟨pre, post, rfl⟩
    induction pre with
    | nil => simp
    | cons x pre ih =>
        cases pre with
        | nil => simp
        | cons y pre => exact mem_cons_of_mem _ ih

theorem mem_rootedHops {root : α} {rows : List (List α)} {e : α × α} :
    e ∈ rootedHops root rows ↔ ∃ row ∈ rows, e ∈ hops (root :: row) :=
  mem_flatMap

/-- A path that is not empty leaves the root. -/
theorem exists_root_hop (root : α) {row : List α} (h : row ≠ []) :
    ∃ b, (root, b) ∈ hops (root :: row) := by
  obtain ⟨b, rest, rfl⟩ := exists_cons_of_ne_nil h
  exact ⟨b, mem_cons_self⟩

/-- A hop of a path leaves the root or a node of the path. -/
theorem hop_source {root a b : α} {row : List α} (h : (a, b) ∈ hops (root :: row)) :
    a = root ∨ a ∈ row := by
  obtain ⟨pre, post, hl⟩ := mem_hops_iff.mp h
  cases pre with
  | nil => exact Or.inl (cons.inj hl).1.symm
  | cons z pre =>
      refine Or.inr ?_
      rw [(cons.inj hl).2]
      simp

/-- A longer path has the hops of a shorter one. -/
theorem hops_subset_of_isPrefix {root : α} {row row' : List α} (h : row <+: row') {e : α × α}
    (he : e ∈ hops (root :: row)) : e ∈ hops (root :: row') := by
  obtain ⟨a, b⟩ := e
  obtain ⟨rest, rfl⟩ := h
  obtain ⟨pre, post, hl⟩ := mem_hops_iff.mp he
  exact mem_hops_iff.mpr ⟨pre, post ++ rest, by rw [← cons_append, hl]; simp⟩

/-- Of rows without a common node, the row of a node is unique. -/
theorem row_unique {rows : List (List α)} (h : rows.flatten.Nodup) {row row' : List α} {x : α}
    (hrow : row ∈ rows) (hrow' : row' ∈ rows) (hx : x ∈ row) (hx' : x ∈ row') : row = row' := by
  by_contra hne
  have : Std.Symm (@Disjoint α) := ⟨fun _ _ h _ hx hx' => h hx' hx⟩
  exact (nodup_flatten.mp h).2.forall hrow hrow' hne hx hx'

/-- In a row without repetitions what stands before and after a node is determined. -/
theorem split_unique {row pre post pre' post' : List α} {y : α} (h : row.Nodup)
    (hrow : row = pre ++ y :: post) (hrow' : row = pre' ++ y :: post') :
    pre = pre' ∧ post = post' := by
  have hy : y ∉ pre ++ post := (nodup_cons.mp (nodup_middle.mp (hrow ▸ h))).1
  rw [mem_append, not_or] at hy
  have heq := (append_cons_inj_of_notMem hy.1 hy.2).mp (hrow.symm.trans hrow')
  exact ⟨heq.1, heq.2.2⟩

section Disjoint

variable {root : α} {rows rows' : List (List α)}

/-- A path all of whose hops are hops of rows without a common node is an initial part of one of
them. -/
theorem prefix_of_hops (hnodup : rows.flatten.Nodup) (hroot : root ∉ rows.flatten)
    {path : List α} (hpath : path ≠ [])
    (h : ∀ e ∈ hops (root :: path), e ∈ rootedHops root rows) : ∃ row ∈ rows, path <+: row := by
  induction path using reverseRecOn with
  | nil => exact absurd rfl hpath
  | append_singleton path x ih =>
      rcases eq_nil_or_concat' path with rfl | ⟨init, y, rfl⟩
      · -- the first hop leaves the root, which lies on no row
        obtain ⟨row, hrow, hmem⟩ := mem_rootedHops.mp (h (root, x) (by simp))
        obtain ⟨pre, post, hl⟩ := mem_hops_iff.mp hmem
        cases pre with
        | nil => exact ⟨row, hrow, post, by simpa using (cons.inj hl).2.symm⟩
        | cons z pre =>
            refine absurd (mem_flatten.mpr ⟨row, hrow, ?_⟩) hroot
            rw [(cons.inj hl).2]
            simp
      · have hinit : ∀ e ∈ hops (root :: (init ++ [y])), e ∈ rootedHops root rows := fun e he =>
          h e (hops_subset_of_isPrefix (prefix_append _ _) he)
        obtain ⟨row, hrow, rest, hrest⟩ := ih (by simp) hinit
        have hlast : (y, x) ∈ hops (root :: (init ++ [y] ++ [x])) :=
          mem_hops_iff.mpr ⟨root :: init, [], by simp⟩
        obtain ⟨row', hrow', hmem⟩ := mem_rootedHops.mp (h (y, x) hlast)
        have hy : y ∈ row := by rw [← hrest]; simp
        obtain ⟨pre, post, hl⟩ := mem_hops_iff.mp hmem
        cases pre with
        | nil =>
            obtain rfl := (cons.inj hl).1
            exact absurd (mem_flatten.mpr ⟨row, hrow, hy⟩) hroot
        | cons z pre =>
            have hl' : row' = pre ++ y :: x :: post := (cons.inj hl).2
            obtain rfl : row = row' := row_unique hnodup hrow hrow' hy (by rw [hl']; simp)
            refine ⟨row, hrow, ?_⟩
            have hsplit : row = init ++ y :: rest := by rw [← hrest]; simp
            -- the node after `y` on the row is `x`
            obtain ⟨rfl, rfl⟩ := split_unique ((nodup_flatten.mp hnodup).1 row hrow) hsplit hl'
            exact ⟨post, by rw [hl']; simp⟩

/-- Rows have the same hops as rows without a common node exactly when each is an initial part of
one of these and these are all among them. -/
theorem rootedHops_eq_iff (hnodup : rows.flatten.Nodup) (hroot : root ∉ rows.flatten)
    (hne : ∀ row ∈ rows, row ≠ []) (hne' : ∀ row ∈ rows', row ≠ []) :
    (∀ e, e ∈ rootedHops root rows ↔ e ∈ rootedHops root rows') ↔
      (∀ row' ∈ rows', ∃ row ∈ rows, row' <+: row) ∧ ∀ row ∈ rows, row ∈ rows' := by
  constructor
  · intro h
    have hpre : ∀ row' ∈ rows', ∃ row ∈ rows, row' <+: row := fun row' hrow' =>
      prefix_of_hops hnodup hroot (hne' row' hrow') fun e he =>
        (h e).mpr (mem_rootedHops.mpr ⟨row', hrow', he⟩)
    refine ⟨hpre, fun row hrow => ?_⟩
    -- the last hop of a row is a hop of some other row, which then reaches the row's end
    obtain ⟨init, y, rfl⟩ := (eq_nil_or_concat' row).resolve_left (hne row hrow)
    obtain ⟨z, hz⟩ : ∃ z, (z, y) ∈ hops (root :: (init ++ [y])) := by
      rcases eq_nil_or_concat' init with rfl | ⟨init', z, rfl⟩
      · exact ⟨root, by simp⟩
      · exact ⟨z, mem_hops_iff.mpr ⟨root :: init', [], by simp⟩⟩
    obtain ⟨row', hrow', hmem⟩ :=
      mem_rootedHops.mp ((h (z, y)).mp (mem_rootedHops.mpr ⟨_, hrow, hz⟩))
    have hy : y ∈ row' := by
      obtain ⟨pre, post, hl⟩ := mem_hops_iff.mp hmem
      cases pre with
      | nil => rw [(cons.inj hl).2]; simp
      | cons w pre => rw [(cons.inj hl).2]; simp
    obtain ⟨row, hrow₂, hpre⟩ := hpre row' hrow'
    obtain rfl : init ++ [y] = row :=
      row_unique hnodup hrow hrow₂ (by simp) (hpre.subset hy)
    have hnd := (nodup_flatten.mp hnodup).1 _ hrow
    rcases prefix_concat_iff.mp hpre with heq | hshort
    · rwa [← heq]
    · -- a shorter part of the row does not contain its last node
      exact absurd (hshort.subset hy) fun hmem =>
        (nodup_append.mp hnd).2.2 y hmem y (by simp) rfl
  · rintro ⟨hpre, hall⟩ e
    simp only [mem_rootedHops]
    constructor
    · rintro ⟨row, hrow, he⟩
      exact ⟨row, hall row hrow, he⟩
    · rintro ⟨row', hrow', he⟩
      obtain ⟨row, hrow, hpre⟩ := hpre row' hrow'
      exact ⟨row, hrow, hops_subset_of_isPrefix hpre he⟩

/-- The hops of a path lead to its nodes behind the first one. -/
theorem map_snd_hops (a : α) (l : List α) : (hops (a :: l)).map Prod.snd = l := by
  induction l generalizing a with
  | nil => rfl
  | cons b l ih => rw [hops_cons_cons, map_cons, ih]

/-- The hops of rows lead to the nodes of the rows. -/
theorem map_snd_rootedHops (root : α) (rows : List (List α)) :
    (rootedHops root rows).map Prod.snd = rows.flatten := by
  simp only [rootedHops, map_flatMap, map_snd_hops, flatMap_id']

/-- Rows without a common node have no common hop. -/
theorem nodup_rootedHops (root : α) (hnodup : rows.flatten.Nodup) :
    (rootedHops root rows).Nodup :=
  Nodup.of_map Prod.snd (by rwa [map_snd_rootedHops])

/-- A hop leads forward in the list of all nodes. -/
theorem hop_sublist {a b : α} (h : (a, b) ∈ rootedHops root rows) :
    [a, b] <+ root :: rows.flatten := by
  obtain ⟨row, hrow, hhop⟩ := mem_rootedHops.mp h
  obtain ⟨pre, post, hl⟩ := mem_hops_iff.mp hhop
  have hpair : [a, b] <+ root :: row := by
    rw [hl]
    exact (sublist_append_left [a, b] post).trans (sublist_append_right pre _)
  exact hpair.trans ((sublist_flatten_of_mem hrow).cons_cons root)

/-- The hops of rows without a common node form no cycle. -/
theorem rootedHops_acyclic (hnodup : (root :: rows.flatten).Nodup) (a : α) :
    ¬Relation.TransGen (fun u v => (u, v) ∈ rootedHops root rows) a a := by
  classical
  -- positions in the list of all nodes increase along the hops
  have hpairwise : (root :: rows.flatten).Pairwise fun u v =>
      (root :: rows.flatten).idxOf u < (root :: rows.flatten).idxOf v := by
    rw [pairwise_iff_getElem]
    intro i j hi hj hij
    rwa [hnodup.idxOf_getElem, hnodup.idxOf_getElem]
  have hlt : ∀ {b}, Relation.TransGen (fun u v => (u, v) ∈ rootedHops root rows) a b →
      (root :: rows.flatten).idxOf a < (root :: rows.flatten).idxOf b := by
    intro b hab
    induction hab with
    | single hop => simpa using hpairwise.sublist (hop_sublist hop)
    | tail _ hop ih => exact Nat.lt_trans ih (by simpa using hpairwise.sublist (hop_sublist hop))
  exact fun h => Nat.lt_irrefl _ (hlt h)

/-- Every node of a row is reached from the root. -/
theorem reflTransGen_rootedHops {row : List α} (hrow : row ∈ rows) {x : α} (hx : x ∈ row) :
    Relation.ReflTransGen (fun u v => (u, v) ∈ rootedHops root rows) root x := by
  have hpath : ∀ (l : List α) (a : α), (∀ e ∈ hops (a :: l), e ∈ rootedHops root rows) →
      x ∈ a :: l → Relation.ReflTransGen (fun u v => (u, v) ∈ rootedHops root rows) a x := by
    intro l
    induction l with
    | nil =>
        intro a _ hmem
        rw [mem_singleton.mp hmem]
    | cons b l ih =>
        intro a hhops hmem
        rcases mem_cons.mp hmem with rfl | hmem
        · exact .refl
        · exact .head (hhops (a, b) mem_cons_self)
            (ih b (fun e he => hhops e (mem_cons_of_mem _ he)) hmem)
  exact hpath row root (fun e he => mem_rootedHops.mpr ⟨row, hrow, he⟩) (mem_cons_of_mem _ hx)

end Disjoint

end List
