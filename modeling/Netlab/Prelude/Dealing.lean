import Mathlib.Data.List.Forall2
import Mathlib.Data.List.Induction
import Mathlib.Data.List.Nodup

/-!
# Rows

Two operations on lists of rows. `firstRows keep seen rows` keeps of each row the elements that
satisfy `keep` and have not occurred before, and drops the rows that remain empty; keeping twice is
keeping what satisfies both conditions (`firstRows_firstRows`). `deal rows xs` appends the elements
of `xs` to the rows in turn, the way a loop over `rows[pos % len(rows)].append(x)` does. Row `i`
receives every element whose position is `i` modulo the number of rows (`deal_eq`), so dealing loses
no element and repeats none (`deal_flatten_perm`).
-/

namespace List

variable {α : Type*}

/-- The elements at the positions that are `i` modulo `k`, in order. -/
def stride (k i : ℕ) (xs : List α) : List α :=
  (xs.zipIdx.filter fun e => e.2 % k = i).map Prod.fst

/-- The elements of `xs` appended to the rows in turn, starting with the first row. -/
def deal (rows : List (List α)) (xs : List α) : List (List α) :=
  xs.zipIdx.foldl (fun rows e => rows.modify (e.2 % rows.length) (· ++ [e.1])) rows

@[simp] theorem deal_nil (rows : List (List α)) : deal rows [] = rows := rfl

theorem deal_concat (rows : List (List α)) (xs : List α) (x : α) :
    deal rows (xs ++ [x]) =
      (deal rows xs).modify (xs.length % (deal rows xs).length) (· ++ [x]) := by
  simp [deal, zipIdx_append]

@[simp] theorem length_deal (rows : List (List α)) (xs : List α) :
    (deal rows xs).length = rows.length := by
  induction xs using reverseRecOn with
  | nil => rfl
  | append_singleton xs x ih => rw [deal_concat, length_modify, ih]

@[simp] theorem stride_nil (k i : ℕ) : stride k i ([] : List α) = [] := rfl

theorem stride_concat (k i : ℕ) (xs : List α) (x : α) :
    stride k i (xs ++ [x]) = stride k i xs ++ if xs.length % k = i then [x] else [] := by
  rw [stride, zipIdx_append, filter_append, map_append, stride]
  congr 1
  by_cases h : xs.length % k = i <;> simp [h]

/-- A single row receives everything. -/
@[simp] theorem stride_one (xs : List α) : stride 1 0 xs = xs := by
  induction xs using reverseRecOn with
  | nil => rfl
  | append_singleton xs x ih => rw [stride_concat, ih, if_pos (Nat.mod_one _)]

theorem mem_of_mem_stride {k i : ℕ} {xs : List α} {x : α} (h : x ∈ stride k i xs) : x ∈ xs := by
  obtain ⟨e, he, rfl⟩ := mem_map.mp h
  exact fst_mem_of_mem_zipIdx (mem_filter.mp he).1

/-- The row at a position after dealing: its share is appended to it. -/
theorem getElem?_deal (rows : List (List α)) (xs : List α) (i : ℕ) :
    (deal rows xs)[i]? = rows[i]?.map fun row => row ++ stride rows.length i xs := by
  induction xs using reverseRecOn with
  | nil => simp
  | append_singleton xs x ih =>
      rw [deal_concat, getElem?_modify, ih, length_deal]
      cases hrow : rows[i]? with
      | none => rfl
      | some row =>
          by_cases h : xs.length % rows.length = i <;> simp [stride_concat, h]

/-- Dealing appends to each row its share. -/
theorem deal_eq (rows : List (List α)) (xs : List α) :
    deal rows xs = rows.zipIdx.map fun e => e.1 ++ stride rows.length e.2 xs := by
  apply ext_getElem?
  intro i
  rw [getElem?_deal, getElem?_map, getElem?_zipIdx]
  cases rows[i]? <;> simp

/-- A row after dealing is one of the rows with elements that were dealt to it. -/
theorem exists_of_mem_deal {rows : List (List α)} {xs row : List α} (h : row ∈ deal rows xs) :
    ∃ row' ∈ rows, ∃ share, row = row' ++ share ∧ ∀ x ∈ share, x ∈ xs := by
  rw [deal_eq] at h
  obtain ⟨e, he, rfl⟩ := mem_map.mp h
  exact ⟨e.1, fst_mem_of_mem_zipIdx he, _, rfl, fun _ => mem_of_mem_stride⟩

/-- Dealing to at least one row keeps every element exactly as often as it was there. -/
theorem deal_flatten_perm {rows : List (List α)} (hrows : rows ≠ []) (xs : List α) :
    (deal rows xs).flatten.Perm (rows.flatten ++ xs) := by
  induction xs using reverseRecOn with
  | nil => simp
  | append_singleton xs x ih =>
      have hlt : xs.length % (deal rows xs).length < (deal rows xs).length :=
        Nat.mod_lt _ (by simpa [Nat.pos_iff_ne_zero] using hrows)
      rw [deal_concat]
      obtain ⟨pre, row, post, hsplit, hlen, hmodify⟩ :=
        exists_of_modify (· ++ [x]) hlt
      rw [hmodify, ← append_assoc]
      refine Perm.trans ?_ (ih.append_right [x])
      rw [hsplit]
      simp only [flatten_append, flatten_cons, append_assoc]
      refine Perm.append_left pre.flatten (Perm.append_left row ?_)
      exact perm_append_comm

/-- A row receives something as long as there are as many elements as rows. -/
theorem stride_ne_nil {k i : ℕ} {xs : List α} (hi : i < k) (hk : k ≤ xs.length) :
    stride k i xs ≠ [] := by
  have hlt : i < xs.length := Nat.lt_of_lt_of_le hi hk
  have hmem : (xs[i], i) ∈ xs.zipIdx := by
    rw [mem_zipIdx_iff_getElem?, getElem?_eq_getElem hlt]
  refine ne_nil_of_mem (mem_map.mpr ⟨(xs[i], i), mem_filter.mpr ⟨hmem, ?_⟩, rfl⟩)
  simp [Nat.mod_eq_of_lt hi]

/-- Dealing to empty rows. -/
theorem deal_replicate (k : ℕ) (xs : List α) :
    deal (replicate k []) xs = (range k).map fun i => stride k i xs := by
  apply ext_getElem?
  intro i
  rw [getElem?_deal, getElem?_map, length_replicate, getElem?_replicate]
  by_cases h : i < k
  · simp [h]
  · simp [h]

/-- Rows that each receive a first element keep all elements. -/
theorem flatten_zipWith_cons_perm {heads : List α} {rows : List (List α)}
    (h : heads.length = rows.length) :
    (zipWith cons heads rows).flatten.Perm (heads ++ rows.flatten) := by
  induction heads generalizing rows with
  | nil =>
      rw [length_nil, eq_comm, length_eq_zero_iff] at h
      rw [h]
      exact Perm.refl _
  | cons x heads ih =>
      obtain ⟨row, rows, rfl⟩ := exists_cons_of_length_eq_add_one h.symm
      rw [length_cons, length_cons, Nat.add_right_cancel_iff] at h
      rw [zipWith_cons_cons, flatten_cons, flatten_cons, cons_append, cons_append]
      refine Perm.cons x (((ih h).append_left row).trans ?_)
      rw [← append_assoc, ← append_assoc]
      exact perm_append_comm.append_right _

/-! ## Removing an element -/

section FirstRows

variable [DecidableEq α]

/-- The elements of a row that satisfy `keep`, are not in `seen`, and occur for the first time. -/
def firstRow (keep : α → Bool) (seen row : List α) : List α :=
  row.foldl (fun kept x => if keep x ∧ x ∉ seen ∧ x ∉ kept then kept ++ [x] else kept) []

/-- The rows of first occurrences; what a row keeps counts as seen in the rows after it. -/
def firstRows (keep : α → Bool) (seen : List α) : List (List α) → List (List α)
  | [] => []
  | row :: rows =>
      let kept := firstRow keep seen row
      if kept = [] then firstRows keep seen rows
      else kept :: firstRows keep (seen ++ kept) rows

/-- The rows restricted to the elements that satisfy `keep` and are in no earlier row. -/
def takeRows (keep : α → Bool) (used : List α) : List (List α) → List (List α)
  | [] => []
  | row :: rows =>
      let taken := row.filter fun x => keep x ∧ x ∉ used
      if taken = [] then takeRows keep used rows
      else taken :: takeRows keep (used ++ taken) rows

variable {keep keep' : α → Bool} {seen used : List α}

/-- No row that is taken is empty, and it holds only elements that satisfy `keep`. -/
theorem of_mem_takeRows {rows : List (List α)} {row : List α} (h : row ∈ takeRows keep used rows) :
    row ≠ [] ∧ ∀ x ∈ row, keep x = true := by
  induction rows generalizing used with
  | nil => cases h
  | cons first rows ih =>
      rw [takeRows] at h
      split at h
      · exact ih h
      · rename_i hne
        rcases mem_cons.mp h with rfl | hrest
        · exact ⟨hne, fun x hx => (of_decide_eq_true (mem_filter.mp hx).2).1⟩
        · exact ih hrest

theorem firstRow_concat (keep : α → Bool) (seen row : List α) (x : α) :
    firstRow keep seen (row ++ [x]) =
      if keep x ∧ x ∉ seen ∧ x ∉ firstRow keep seen row then firstRow keep seen row ++ [x]
      else firstRow keep seen row := by
  rw [firstRow, foldl_append]
  rfl

theorem mem_firstRow {row : List α} {x : α} (h : x ∈ firstRow keep seen row) :
    keep x = true ∧ x ∉ seen ∧ x ∈ row := by
  induction row using reverseRecOn with
  | nil => simp [firstRow] at h
  | append_singleton row y ih =>
      rw [firstRow_concat] at h
      split at h
      · rename_i hy
        rcases mem_append.mp h with hmem | hmem
        · obtain ⟨h1, h2, h3⟩ := ih hmem
          exact ⟨h1, h2, mem_append_left _ h3⟩
        · rw [mem_singleton] at hmem
          subst hmem
          exact ⟨hy.1, hy.2.1, by simp⟩
      · obtain ⟨h1, h2, h3⟩ := ih h
        exact ⟨h1, h2, mem_append_left _ h3⟩

theorem nodup_firstRow (keep : α → Bool) (seen row : List α) : (firstRow keep seen row).Nodup := by
  induction row using reverseRecOn with
  | nil => exact nodup_nil
  | append_singleton row y ih =>
      rw [firstRow_concat]
      split
      · rename_i hy
        refine nodup_append.mpr ⟨ih, nodup_singleton y, fun a ha b hb => ?_⟩
        rw [mem_singleton.mp hb]
        rintro rfl
        exact hy.2.2 ha
      · exact ih

/-- Of a row without repetitions, the first occurrences are a restriction. -/
theorem firstRow_eq_filter {row : List α} (h : row.Nodup) :
    firstRow keep seen row = row.filter fun x => keep x ∧ x ∉ seen := by
  induction row using reverseRecOn with
  | nil => rfl
  | append_singleton row y ih =>
      obtain ⟨hrow, -, hdisjoint⟩ := nodup_append.mp h
      have hy : y ∉ firstRow keep seen row := fun hmem =>
        hdisjoint y (mem_firstRow hmem).2.2 y (by simp) rfl
      rw [firstRow_concat, filter_append, ih hrow]
      rw [ih hrow] at hy
      by_cases hkeep : keep y ∧ y ∉ seen
      · rw [if_pos ⟨hkeep.1, hkeep.2, hy⟩]
        simp [hkeep]
      · rw [if_neg fun hc => hkeep ⟨hc.1, hc.2.1⟩]
        simp only [filter_cons, filter_nil, hkeep, decide_false, Bool.false_eq_true, if_false,
          append_nil]

/-- Restricting the first occurrences is keeping what satisfies both conditions. -/
theorem filter_firstRow {row : List α}
    (h : ∀ x, keep' x = true → (x ∈ seen ↔ x ∈ used)) :
    (firstRow keep seen row).filter keep' = firstRow (fun x => keep x && keep' x) used row := by
  induction row using reverseRecOn with
  | nil => rfl
  | append_singleton row y ih =>
      rw [firstRow_concat, firstRow_concat, ← ih]
      by_cases hy : keep' y = true
      · simp only [mem_filter, hy, and_true, Bool.and_true, h y hy]
        split <;> simp [hy]
      · split <;> simp [hy]

theorem firstRows_eq_takeRows {rows : List (List α)} (h : ∀ row ∈ rows, row.Nodup) :
    firstRows keep seen rows = takeRows keep seen rows := by
  induction rows generalizing seen with
  | nil => rfl
  | cons row rows ih =>
      simp only [firstRows, takeRows, firstRow_eq_filter (h row mem_cons_self)]
      rw [ih fun r hr => h r (mem_cons_of_mem _ hr), ih fun r hr => h r (mem_cons_of_mem _ hr)]

theorem nodup_of_mem_firstRows {rows : List (List α)} {row : List α}
    (h : row ∈ firstRows keep seen rows) : row.Nodup := by
  induction rows generalizing seen with
  | nil => simp [firstRows] at h
  | cons r rows ih =>
      simp only [firstRows] at h
      split at h
      · exact ih h
      · rcases mem_cons.mp h with rfl | hmem
        · exact nodup_firstRow _ _ _
        · exact ih hmem

/-- What the rows of first occurrences keep satisfies the condition and has not been seen. -/
theorem of_mem_flatten_firstRows {rows : List (List α)} {x : α}
    (h : x ∈ (firstRows keep seen rows).flatten) : keep x = true ∧ x ∉ seen := by
  induction rows generalizing seen with
  | nil => simp [firstRows] at h
  | cons row rows ih =>
      simp only [firstRows] at h
      split at h
      · exact ih h
      · rcases mem_append.mp (flatten_cons ▸ h) with hmem | hmem
        · exact ⟨(mem_firstRow hmem).1, (mem_firstRow hmem).2.1⟩
        · obtain ⟨hkeep, hseen⟩ := ih hmem
          exact ⟨hkeep, fun hx => hseen (mem_append_left _ hx)⟩

/-- Over all rows of first occurrences nothing occurs twice. -/
theorem nodup_flatten_firstRows (keep : α → Bool) (seen : List α) (rows : List (List α)) :
    (firstRows keep seen rows).flatten.Nodup := by
  induction rows generalizing seen with
  | nil => exact nodup_nil
  | cons row rows ih =>
      simp only [firstRows]
      split
      · exact ih seen
      · -- what the first row keeps counts as seen in the rows after it
        rw [flatten_cons]
        refine nodup_append.mpr ⟨nodup_firstRow keep seen row, ih _, fun x hx y hy => ?_⟩
        rintro rfl
        exact (of_mem_flatten_firstRows hy).2 (mem_append_right _ hx)

/-- Taking from rows of first occurrences is keeping what satisfies both conditions. -/
theorem takeRows_firstRows {rows : List (List α)}
    (h : ∀ x, keep' x = true → (x ∈ seen ↔ x ∈ used)) :
    takeRows keep' used (firstRows keep seen rows) =
      firstRows (fun x => keep x && keep' x) used rows := by
  induction rows generalizing seen used with
  | nil => rfl
  | cons row rows ih =>
      -- what is taken from the row is what the row would have kept
      have htaken : ((firstRow keep seen row).filter fun x => keep' x ∧ x ∉ used) =
          firstRow (fun x => keep x && keep' x) used row := by
        rw [← filter_firstRow h]
        refine filter_congr fun x hx => ?_
        by_cases hk : keep' x = true
        · have hx' : x ∉ used := fun hu => (mem_firstRow hx).2.1 ((h x hk).mpr hu)
          simp [hk, hx']
        · simp [hk]
      by_cases hrow : firstRow keep seen row = []
      · -- a row of which nothing is left is skipped by both
        have hnone : firstRow (fun x => keep x && keep' x) used row = [] := by
          rw [← filter_firstRow h, hrow, filter_nil]
        simp only [firstRows, hrow, hnone, if_true]
        exact ih h
      · have hseen : ∀ x, keep' x = true → (x ∈ seen ++ firstRow keep seen row ↔
            x ∈ used ++ firstRow (fun x => keep x && keep' x) used row) := by
          intro x hx
          rw [mem_append, mem_append, h x hx, ← filter_firstRow h, mem_filter]
          simp [hx]
        simp only [firstRows, if_neg hrow, takeRows, htaken]
        split
        · rename_i hnone
          refine ih fun x hx => ?_
          simpa [hnone] using hseen x hx
        · exact congrArg _ (ih hseen)

/-- Keeping twice. -/
theorem firstRows_firstRows (keep keep' : α → Bool) (rows : List (List α)) :
    firstRows keep' [] (firstRows keep [] rows) =
      firstRows (fun x => keep x && keep' x) [] rows := by
  rw [firstRows_eq_takeRows fun row => nodup_of_mem_firstRows]
  exact takeRows_firstRows fun _ _ => Iff.rfl

theorem firstRow_sublist (keep : α → Bool) (seen row : List α) :
    (firstRow keep seen row).Sublist row := by
  induction row using reverseRecOn with
  | nil => exact Sublist.refl _
  | append_singleton row x ih =>
      rw [firstRow_concat]
      split
      · exact ih.append (Sublist.refl _)
      · exact ih.trans (sublist_append_left _ _)

/-- The rows of first occurrences are parts of rows that come in the same order. -/
theorem sublistForall₂_firstRows (keep : α → Bool) (seen : List α) (rows : List (List α)) :
    SublistForall₂ Sublist (firstRows keep seen rows) rows := by
  induction rows generalizing seen with
  | nil => exact .nil
  | cons row rows ih =>
      rw [firstRows]
      split
      · exact .cons_right (ih seen)
      · exact .cons (firstRow_sublist keep seen row) (ih _)

/-- The same for the rows that are read on their own, of which some are dropped. -/
theorem sublistForall₂_map_firstRow (keep : α → Bool) (seen : List α) (p : List α → Bool)
    (rows : List (List α)) :
    SublistForall₂ Sublist ((rows.map (firstRow keep seen)).filter p) rows := by
  induction rows with
  | nil => exact .nil
  | cons row rows ih =>
      rw [map_cons, filter_cons]
      split
      · exact .cons (firstRow_sublist keep seen row) ih
      · exact .cons_right ih

/-- Keeping again changes nothing. -/
theorem firstRows_idem (keep : α → Bool) (rows : List (List α)) :
    firstRows keep [] (firstRows keep [] rows) = firstRows keep [] rows := by
  rw [firstRows_firstRows]
  simp only [Bool.and_self]

/-- Keeping again changes nothing in a single row either. -/
theorem firstRow_firstRow (keep : α → Bool) (row : List α) :
    firstRow keep [] (firstRow keep [] row) = firstRow keep [] row := by
  rw [firstRow_eq_filter (nodup_firstRow keep [] row), filter_eq_self]
  intro x hx
  simpa using (mem_firstRow hx).1

end FirstRows

end List
