import Netlab.Telemetry.Collect

/-!
# What is shown of the metric samples

`collect` is meant to show the newest data (`KeepsNewest`): no row of a file is left out for a row
of a file that comes later in the order, and fresh samples at the end of the first file make the
source live. It does as long as the files that are read fit together (`Fits`). Otherwise the last
file that is read brings more rows than there is room for, and the rows that make room are those of
the first file.
-/

namespace Netlab.Telemetry

variable {F : Type}

/-! ## Rows and the files they come from -/

/-- A row comes from a file, by the column that says so. -/
def fromFile (file : MetricFile) (row : Row F) : Bool :=
  match row.get? sourceColumn with
  | some (.str name) => name = file.name
  | _ => false

/-- How many of the rows come from a file. -/
def keptFrom (file : MetricFile) (rows : List (Row F)) : ℕ := rows.countP (fromFile file)

/-- The number of rows in files. -/
def size (files : List MetricFile) : ℕ := (files.map fun file => file.records.length).sum

/-- With a limit, the last items are at most as many. -/
theorem lastItems_eq {α : Type} {limit : ℕ} (hlimit : 1 ≤ limit) (xs : List α) :
    lastItems (limit : ℤ) xs = xs.drop (xs.length - limit) := by
  rw [lastItems, if_pos (by omega), Int.toNat_natCast]

theorem length_lastItems {α : Type} {limit : ℕ} (hlimit : 1 ≤ limit) (xs : List α) :
    (lastItems (limit : ℤ) xs).length = min xs.length limit := by
  rw [lastItems_eq hlimit, List.length_drop]
  omega

/-- What is not too long is kept as a whole. -/
theorem lastItems_eq_self {α : Type} {limit : ℕ} (hlimit : 1 ≤ limit) {xs : List α}
    (h : xs.length ≤ limit) : lastItems (limit : ℤ) xs = xs := by
  rw [lastItems_eq hlimit, Nat.sub_eq_zero_of_le h, List.drop_zero]

section

variable [PyText F] [PyFloat F]

theorem length_labelledTail {limit : ℕ} (hlimit : 1 ≤ limit) (file : MetricFile) :
    (labelledTail file limit : List (Row F)).length = min file.records.length limit := by
  rw [labelledTail, List.length_map, readCsvTail, List.length_map, length_lastItems hlimit]

/-- The rows of a file say that they come from it. -/
theorem fromFile_labelledTail {file other : MetricFile} {limit : ℤ} {row : Row F}
    (h : row ∈ labelledTail file limit) : fromFile other row = decide (file.name = other.name) := by
  obtain ⟨read, -, rfl⟩ := List.mem_map.mp h
  rw [fromFile, Dict.get?_set_self]

/-- Rows of other files. -/
theorem keptFrom_eq_zero {file : MetricFile} {limit : ℤ} {files : List MetricFile}
    (h : ∀ other ∈ files, other.name ≠ file.name) :
    keptFrom file (files.flatMap fun other => (labelledTail other limit : List (Row F))) = 0 := by
  rw [keptFrom, List.countP_eq_zero]
  intro row hrow
  obtain ⟨other, hother, hmem⟩ := List.mem_flatMap.mp hrow
  rw [fromFile_labelledTail hmem]
  simpa using h other hother

/-- Of files with different names, the rows of one are those at its end. -/
theorem keptFrom_flatMap {file : MetricFile} {limit : ℕ} (hlimit : 1 ≤ limit)
    {before after : List MetricFile} (h : ((before ++ file :: after).map MetricFile.name).Nodup) :
    keptFrom file ((before ++ file :: after).flatMap fun other =>
      (labelledTail other limit : List (Row F))) = min file.records.length limit := by
  rw [List.map_append, List.map_cons, List.nodup_append, List.nodup_cons] at h
  obtain ⟨-, ⟨hafter, -⟩, hbefore⟩ := h
  have hself : (labelledTail file limit : List (Row F)).countP (fromFile file) =
      min file.records.length limit := by
    rw [← length_labelledTail (F := F) hlimit, List.countP_eq_length]
    intro row hrow
    rw [fromFile_labelledTail hrow, decide_eq_true rfl]
  have hnone : ∀ others : List MetricFile, (∀ other ∈ others, other.name ≠ file.name) →
      (others.flatMap fun other => (labelledTail other limit : List (Row F))).countP
        (fromFile file) = 0 := fun others hothers => keptFrom_eq_zero hothers
  rw [keptFrom, List.flatMap_append, List.flatMap_cons, List.countP_append, List.countP_append, hself,
    hnone before fun other hother => hbefore _ (List.mem_map_of_mem hother) _ List.mem_cons_self,
    hnone after fun other hother heq => hafter (heq ▸ List.mem_map_of_mem hother)]
  omega

/-- Files that together stay below the limit are read as a whole. -/
theorem length_flatMap_of_lt {limit : ℕ} (hlimit : 1 ≤ limit) {files : List MetricFile}
    (h : (files.flatMap fun file => (labelledTail file limit : List (Row F))).length < limit) :
    (files.flatMap fun file => (labelledTail file limit : List (Row F))).length = size files ∧
      ∀ file ∈ files, file.records.length < limit := by
  induction files with
  | nil => exact ⟨rfl, by simp⟩
  | cons file files ih =>
      rw [List.flatMap_cons, List.length_append, length_labelledTail hlimit] at h ⊢
      obtain ⟨hlength, hshort⟩ := ih (by omega)
      refine ⟨?_, fun other hother => ?_⟩
      · rw [hlength, size, size, List.map_cons, List.sum_cons]
        omega
      · rcases List.mem_cons.mp hother with rfl | hother
        · omega
        · exact hshort other hother

theorem length_flatMap_of_size_lt {limit : ℕ} (hlimit : 1 ≤ limit) {files : List MetricFile}
    (h : size files < limit) :
    (files.flatMap fun file => (labelledTail file limit : List (Row F))).length = size files := by
  induction files with
  | nil => rfl
  | cons file files ih =>
      rw [size, List.map_cons, List.sum_cons] at h ⊢
      rw [List.flatMap_cons, List.length_append, length_labelledTail hlimit, ih (by rw [size]; omega),
        size]
      omega

/-! ## Which files are read -/

/-- The rows that are gathered are those of the files up to the first one with which there are
enough. -/
theorem gather_spec {limit : ℕ} (files : List MetricFile) {rows : List (Row F)}
    (h : rows.length < limit) :
    ∃ read unread, files = read ++ unread ∧
      gather (limit : ℤ) files rows = rows ++ read.flatMap (fun file => labelledTail file limit) ∧
      ∀ before file after, read = before ++ file :: after →
        rows.length +
          (before.flatMap fun file => (labelledTail file limit : List (Row F))).length < limit := by
  induction files generalizing rows with
  | nil => exact ⟨[], [], rfl, by simp [gather], by simp⟩
  | cons file files ih =>
      rw [gather]
      split
      · -- the first file is enough
        refine ⟨[file], files, rfl, by simp, fun before other after heq => ?_⟩
        cases before with
        | nil => simpa using h
        | cons first before => simp at heq
      · rename_i hroom
        obtain ⟨read, unread, rfl, hgather, hbelow⟩ :=
          @ih (rows ++ labelledTail file limit) (by exact_mod_cast not_le.mp hroom)
        refine ⟨file :: read, unread, rfl, ?_, fun before other after heq => ?_⟩
        · rw [hgather, List.flatMap_cons, List.append_assoc]
        · cases before with
          | nil => simpa using h
          | cons first before =>
              obtain ⟨rfl, hread⟩ := List.cons.inj heq
              have hother := hbelow before other after hread
              rw [List.length_append] at hother
              rw [List.flatMap_cons, List.length_append]
              omega

/-- As long as there are not enough rows the next file is read. -/
theorem gather_append {limit : ℕ} (files rest : List MetricFile) {rows : List (Row F)}
    (h : rows.length +
      (files.flatMap fun file => (labelledTail file limit : List (Row F))).length < limit) :
    gather (limit : ℤ) (files ++ rest) rows =
      gather (limit : ℤ) rest (rows ++ files.flatMap fun file => labelledTail file limit) := by
  induction files generalizing rows with
  | nil => simp
  | cons file files ih =>
      rw [List.flatMap_cons, List.length_append] at h
      rw [List.cons_append, gather]
      rw [if_neg (by rw [List.length_append]; push_cast; omega), ih (by rw [List.length_append]; omega),
        List.flatMap_cons, List.append_assoc]

/-- With the rows of the next file there are enough. -/
theorem gather_cons_of_le {limit : ℕ} (file : MetricFile) (files : List MetricFile)
    {rows : List (Row F)}
    (h : limit ≤ rows.length + (labelledTail file limit : List (Row F)).length) :
    gather (limit : ℤ) (file :: files) rows = rows ++ labelledTail file limit := by
  rw [gather]
  rw [if_pos (by rw [List.length_append]; exact_mod_cast h)]

/-- The rows that are there already come first. -/
theorem prefix_gather (limit : ℤ) (files : List MetricFile) (rows : List (Row F)) :
    rows <+: gather limit files rows := by
  induction files generalizing rows with
  | nil => exact List.prefix_refl rows
  | cons file files ih =>
      rw [gather]
      split
      · exact List.prefix_append _ _
      · exact (List.prefix_append _ _).trans (ih _)

/-! ## The order of the files -/

omit [PyText F] [PyFloat F] in
/-- No two files in the order have one name. -/
theorem MetricFiles.nodup_sorted (found : MetricFiles) :
    (found.sorted.map MetricFile.name).Nodup := by
  have hperm := List.perm_insertionSort (fun a b : MetricFile => b.mtime ≤ a.mtime) found.files
  have hnodup := (hperm.map MetricFile.name).nodup_iff.mpr found.nodup
  rw [sorted]
  split
  · rename_i canonical hcanonical
    have hname : canonical.name = canonicalMetric := by simpa using List.find?_some hcanonical
    rw [List.map_cons, List.nodup_cons]
    refine ⟨fun hmem => ?_, hnodup.sublist (List.filter_sublist.map _)⟩
    obtain ⟨file, hfile, heq⟩ := List.mem_map.mp hmem
    exact of_decide_eq_true (List.mem_filter.mp hfile).2 (heq.trans hname)
  · exact hnodup

/-- The files that are looked at leave room for each other: of the rows of the first files that are
fewer than the limit, and of those of the next file, there are not more than the limit. -/
def Fits (found : MetricFiles) (limit : ℤ) : Prop :=
  ∀ before file after, found.sorted.take 4 = before ++ file :: after →
    (size before : ℤ) < limit →
      size before + min (file.records.length : ℤ) limit ≤ limit

/-- The rows that are gathered before they are cut off. -/
abbrev gathered (found : MetricFiles) (limit : ℤ) : List (Row F) :=
  gather limit (found.sorted.take 4) []

/-- When the files fit there are not too many rows. -/
theorem Fits.length_gathered_le {found : MetricFiles} {limit : ℕ} (hlimit : 1 ≤ limit)
    (h : Fits found limit) : (gathered found limit : List (Row F)).length ≤ limit := by
  obtain ⟨read, unread, hsplit, hgather, hbelow⟩ :=
    @gather_spec F _ _ limit (found.sorted.take 4) [] hlimit
  rw [gathered, hgather, List.nil_append]
  rcases List.eq_nil_or_concat' read with rfl | ⟨before, file, rfl⟩
  · simp
  · have hbefore := hbelow before file [] rfl
    rw [List.length_nil, Nat.zero_add] at hbefore
    obtain ⟨hlength, -⟩ := length_flatMap_of_lt hlimit hbefore
    rw [hlength] at hbefore
    have hroom := h before file unread (by rw [hsplit, List.append_assoc]; rfl)
      (by exact_mod_cast hbefore)
    rw [List.flatMap_append, List.length_append, hlength, List.flatMap_singleton,
      length_labelledTail hlimit]
    omega

/-! ## What should be shown -/

/-- A row is not older than samples may be. -/
def Fresh (staleAfter now : F) (row : Row F) : Prop :=
  ∃ t age, timestamp row = some t ∧ ageAt now t = some age ∧ PyFloat.le age staleAfter = true

/-- The newest data is shown. -/
structure KeepsNewest (found : MetricFiles) (latestStatus : Dict String (Json F)) (limit : ℤ)
    (staleAfter now : F) : Prop where
  /-- no row of a file is left out while one of a later file is shown -/
  preferred : ∀ before file after, found.sorted = before ++ file :: after → ∀ other ∈ after,
    0 < keptFrom other (collect found latestStatus limit staleAfter now).rows →
      keptFrom file (collect found latestStatus limit staleAfter now).rows = file.records.length
  /-- there are not more rows than the limit -/
  bounded : ((collect found latestStatus limit staleAfter now).rows.length : ℤ) ≤ limit
  /-- a fresh row at the end of the first file makes the source live -/
  live : ∀ file after, found.sorted = file :: after →
    (∃ row ∈ (readCsvTail file limit : List (Row F)), Fresh staleAfter now row) →
      (collect found latestStatus limit staleAfter now).source.source = .live

/-- When a row at the end of the first file is fresh, the first timestamp there that can be read is
a number. -/
def Timed (found : MetricFiles) (limit : ℤ) (staleAfter now : F) : Prop :=
  ∀ file after, found.sorted = file :: after →
    (∃ row ∈ (readCsvTail file limit : List (Row F)), Fresh staleAfter now row) →
      ∀ t, ((readCsvTail file limit : List (Row F)).filterMap timestamp).head? = some t →
        PyFloat.le t t = true

/-- When the files fit nothing is cut off. -/
theorem Fits.rows_collect {found : MetricFiles} {limit : ℕ} (hlimit : 1 ≤ limit)
    (h : Fits found limit) (latestStatus : Dict String (Json F)) (staleAfter now : F) :
    (collect found latestStatus limit staleAfter now).rows = gathered found limit :=
  lastItems_eq_self hlimit (h.length_gathered_le hlimit)

/-- Before rows are cut off, no row of a file is left out for one of a later file. -/
theorem preferred_gathered {found : MetricFiles} {limit : ℕ} (hlimit : 1 ≤ limit)
    {before : List MetricFile} {file other : MetricFile} {after : List MetricFile}
    (hsorted : found.sorted = before ++ file :: after) (hother : other ∈ after)
    (hkept : 0 < keptFrom other (gathered found limit : List (Row F))) :
    keptFrom file (gathered found limit : List (Row F)) = file.records.length := by
  have hnodup := found.nodup_sorted
  obtain ⟨read, unread, hsplit, hgather, hbelow⟩ :=
    @gather_spec F _ _ limit (found.sorted.take 4) [] hlimit
  rw [gathered, hgather, List.nil_append] at hkept ⊢
  -- the later file was read, so it is not too far down
  have hprefix : read ++ (unread ++ found.sorted.drop 4) = before ++ file :: after := by
    rw [← List.append_assoc, ← hsplit, List.take_append_drop, hsorted]
  have hread : ∃ name ∈ read.map MetricFile.name, name = other.name := by
    by_contra hnone
    push Not at hnone
    have hzero := @keptFrom_eq_zero F _ _ other limit read fun f hf =>
      hnone _ (List.mem_map_of_mem hf)
    omega
  rw [hsorted] at hnodup
  obtain ⟨_, hname, rfl⟩ := hread
  have hlong : before.length < read.length := by
    by_contra hshort
    have hsub : read <+: before := by
      refine List.prefix_of_prefix_length_le ⟨_, hprefix⟩ (List.prefix_append _ _) (by omega)
    rw [List.map_append, List.nodup_append] at hnodup
    exact hnodup.2.2 _ ((hsub.map MetricFile.name).subset hname) _
      (List.mem_map_of_mem (List.mem_cons_of_mem _ hother)) rfl
  obtain ⟨between, rfl⟩ : ∃ between, read = before ++ file :: between := by
    have hcons : before ++ [file] <+: read := by
      refine @List.prefix_of_prefix_length_le _ _ _ (before ++ file :: after) ?_ ⟨_, hprefix⟩ ?_
      · exact ⟨after, by simp⟩
      · simpa using hlong
    obtain ⟨between, hbetween⟩ := hcons
    exact ⟨between, by rw [← hbetween]; simp⟩
  have hafter : after = between ++ (unread ++ found.sorted.drop 4) := by
    simpa using hprefix.symm
  -- so it was read after the file in question, which is therefore read as a whole
  have hbetween : other ∈ between := by
    rw [hafter] at hnodup hother
    rw [List.map_append, List.map_cons, List.mem_append, List.mem_cons] at hname
    rw [List.map_append, List.map_cons, List.map_append, List.nodup_append, List.nodup_cons] at hnodup
    rcases List.mem_append.mp hother with hmem | hmem
    · exact hmem
    · rcases hname with hname | hname | hname
      · exact absurd rfl (hnodup.2.2 _ hname other.name
          (List.mem_cons_of_mem _ (List.mem_append_right _ (List.mem_map_of_mem hmem))))
      · exact absurd (hname ▸ List.mem_append_right _ (List.mem_map_of_mem hmem)) hnodup.2.1.1
      · exact absurd rfl ((List.nodup_append.mp hnodup.2.1.2).2.2 _ hname _ (List.mem_map_of_mem hmem))
  obtain ⟨first, last, rfl⟩ := List.append_of_mem hbetween
  have hlt := hbelow (before ++ file :: first) other last (by simp)
  rw [List.length_nil, Nat.zero_add] at hlt
  obtain ⟨-, hshort⟩ := length_flatMap_of_lt hlimit hlt
  have hfile := hshort file (by simp)
  rw [keptFrom_flatMap hlimit]
  · omega
  · refine hnodup.sublist (List.Sublist.map _ ?_)
    rw [← hprefix]
    exact List.sublist_append_left _ _

/-- When some file brings too many rows, rows of the first file are left out for it. -/
theorem fits_of_preferred {found : MetricFiles} {limit : ℕ} (hlimit : 1 ≤ limit)
    (h : ∀ before file after, found.sorted = before ++ file :: after → ∀ other ∈ after,
      0 < keptFrom other (lastItems (limit : ℤ) (gathered found limit) : List (Row F)) →
        keptFrom file (lastItems (limit : ℤ) (gathered found limit) : List (Row F)) =
          file.records.length) : Fits found limit := by
  intro before file after htake hsize
  by_contra hover
  have hlength : (before.flatMap fun file => (labelledTail file limit : List (Row F))).length =
      size before := length_flatMap_of_size_lt hlimit (by exact_mod_cast hsize)
  have hfile : (labelledTail file limit : List (Row F)).length = min file.records.length limit :=
    length_labelledTail hlimit file
  -- the file is read, and there are too many rows
  have hgathered : (gathered found limit : List (Row F)) =
      before.flatMap (fun file => labelledTail file limit) ++ labelledTail file limit := by
    rw [gathered, htake, gather_append _ _ (by rw [hlength, List.length_nil]; omega), List.nil_append,
      gather_cons_of_le _ _ (by rw [hlength, hfile]; omega)]
  have hsorted : found.sorted = before ++ file :: (after ++ found.sorted.drop 4) := by
    rw [← List.cons_append, ← List.append_assoc, ← htake, List.take_append_drop]
  have hnodup := found.nodup_sorted
  rw [hsorted] at hnodup
  -- the first row is one that is cut off
  obtain ⟨row, rows, hrows⟩ : ∃ row rows,
      (before.flatMap fun file => (labelledTail file limit : List (Row F))) = row :: rows := by
    refine List.exists_cons_of_ne_nil fun hnil => ?_
    rw [hnil] at hlength
    rw [List.length_nil] at hlength
    omega
  obtain ⟨first, hfirst, hrow⟩ := List.mem_flatMap.mp
    (hrows ▸ List.mem_cons_self : row ∈ before.flatMap fun file => labelledTail file limit)
  obtain ⟨pre, post, rfl⟩ := List.append_of_mem hfirst
  have hfull := length_flatMap_of_lt (F := F) hlimit (by rw [hlength]; exact_mod_cast hsize)
  have hwhole := hfull.2 first hfirst
  have hlast : lastItems (limit : ℤ) (gathered found limit : List (Row F)) =
      rows.drop (size (pre ++ first :: post) + min file.records.length limit - limit - 1) ++
        labelledTail file limit := by
    rw [lastItems_eq hlimit, hgathered, List.length_append, hlength, hfile, hrows, List.cons_append]
    obtain ⟨excess, hexcess⟩ : ∃ excess,
        size (pre ++ first :: post) + min file.records.length limit - limit = excess + 1 :=
      ⟨_, (Nat.succ_pred_eq_of_pos (by omega)).symm⟩
    have hcount : rows.length + 1 = size (pre ++ first :: post) := by rw [← hlength, hrows]; rfl
    rw [hexcess, List.drop_succ_cons, Nat.add_sub_cancel, List.drop_append_of_le_length (by omega)]
  have hkept := h pre first (post ++ file :: (after ++ found.sorted.drop 4))
    (hsorted.trans (by simp)) file (by simp) (by
      rw [hlast, keptFrom, List.countP_append]
      refine Nat.add_pos_right _ ?_
      have hall : (labelledTail file limit : List (Row F)).countP (fromFile file) =
          (labelledTail file limit : List (Row F)).length := by
        rw [List.countP_eq_length]
        intro row hrow
        rw [fromFile_labelledTail hrow, decide_eq_true rfl]
      rw [hall, hfile]
      omega)
  -- but the other rows hold one row less of its file
  have hcountAll : keptFrom first ((pre ++ first :: post).flatMap fun other =>
      (labelledTail other limit : List (Row F))) = min first.records.length limit := by
    refine keptFrom_flatMap hlimit (hnodup.sublist (List.Sublist.map _ ?_))
    exact List.sublist_append_left _ _
  rw [hrows, keptFrom, List.countP_cons_of_pos (by rw [fromFile_labelledTail hrow, decide_eq_true rfl])]
    at hcountAll
  have hnone : (labelledTail file limit : List (Row F)).countP (fromFile first) = 0 := by
    rw [List.countP_eq_zero]
    intro other hother
    rw [fromFile_labelledTail hother, decide_eq_true_eq]
    intro hname
    rw [List.map_append, List.nodup_append] at hnodup
    exact hnodup.2.2 _ (List.mem_map_of_mem hfirst) _ (by simp) hname.symm
  have hdrop : (rows.drop (size (pre ++ first :: post) + min file.records.length limit -
      limit - 1)).countP (fromFile first) ≤ rows.countP (fromFile first) :=
    (List.drop_sublist _ _).countP_le
  rw [hlast, keptFrom, List.countP_append, hnone] at hkept
  omega

/-! ## Fresh samples -/

/-- The label of a row does not touch its timestamp. -/
theorem timestamp_labelled (row : Row F) (name : Json F) :
    timestamp (row.set sourceColumn name) = timestamp row := by
  rw [timestamp, Dict.getFloat, Dict.getD, Dict.get?_set_of_ne _ _ (by decide), timestamp,
    Dict.getFloat, Dict.getD]

/-- The timestamps of the labelled rows are those of the file. -/
theorem timestamps_labelledTail (file : MetricFile) (limit : ℤ) :
    (labelledTail file limit : List (Row F)).filterMap timestamp =
      (readCsvTail file limit).filterMap timestamp := by
  rw [labelledTail, List.filterMap_map]
  congr 1
  funext row
  exact timestamp_labelled row _

section

variable [PyFloat.Ordered F] [PyFloat.Timed F]

omit [PyText F]

/-- The latest of several timestamps, when it starts with a number: it is a number, and no number
among them is later. -/
theorem le_latest (timestamps : List F) {t : F} (ht : PyFloat.le t t = true) :
    PyFloat.le t (timestamps.foldl PyFloat.max t) = true ∧
      ∀ u ∈ timestamps, PyFloat.le u u = true →
        PyFloat.le u (timestamps.foldl PyFloat.max t) = true := by
  induction timestamps generalizing t with
  | nil => exact ⟨ht, by simp⟩
  | cons v timestamps ih =>
      rw [List.foldl_cons]
      -- the later of the two is a number and not before either
      have hlater : PyFloat.le (PyFloat.max t v) (PyFloat.max t v) = true ∧
          PyFloat.le t (PyFloat.max t v) = true ∧
          (PyFloat.le v v = true → PyFloat.le v (PyFloat.max t v) = true) := by
        rw [PyFloat.max]
        split
        · rename_i hlt
          have hle := PyFloat.Ordered.le_of_lt hlt
          exact ⟨(PyFloat.Timed.number_of_le hle).2, hle, id⟩
        · rename_i hlt
          refine ⟨ht, ht, fun hv => ?_⟩
          exact PyFloat.Comparable.le_of_not_lt (PyFloat.Ordered.total hv ht)
            (Bool.eq_false_of_not_eq_true hlt)
      obtain ⟨hnumber, hle, hnext⟩ := hlater
      obtain ⟨hbest, hall⟩ := ih hnumber
      refine ⟨PyFloat.Ordered.le_trans hle hbest, fun u hu hself => ?_⟩
      rcases List.mem_cons.mp hu with rfl | hu
      · exact PyFloat.Ordered.le_trans (hnext hself) hbest
      · exact hall u hu hself

/-- A first timestamp that is no number stays. -/
theorem latest_of_not_number (timestamps : List F) {t : F} (ht : PyFloat.le t t = false) :
    timestamps.foldl PyFloat.max t = t := by
  induction timestamps with
  | nil => rfl
  | cons v timestamps ih =>
      have hlt : PyFloat.lt t v = false := by
        by_contra hlt
        have hle := PyFloat.Ordered.le_of_lt (Bool.eq_true_of_not_eq_false hlt)
        exact Bool.false_ne_true (ht.symm.trans (PyFloat.Timed.number_of_le hle).1)
      rw [List.foldl_cons, PyFloat.max, if_neg (by simp [hlt]), ih]

/-- What is later than something fresh is fresh. -/
theorem fresh_of_le {staleAfter now t latest age : F} (hnow : PyFloat.isFinite now = true)
    (hage : ageAt now t = some age) (hfresh : PyFloat.le age staleAfter = true)
    (hle : PyFloat.le t latest = true) :
    (ageAt now latest).any (fun age => PyFloat.le age staleAfter) = true := by
  rw [ageAt] at hage
  split at hage
  · rename_i hpos
    obtain rfl := Option.some.inj hage
    rw [ageAt, if_pos (PyFloat.Ordered.lt_of_lt_of_le hpos hle), Option.any_some]
    -- less time has passed since
    have hsub := PyFloat.Timed.sub_le hnow hle
    rw [PyFloat.max] at hfresh ⊢
    split
    · rename_i hlt
      rw [if_pos (PyFloat.Ordered.lt_of_lt_of_le hlt hsub)] at hfresh
      exact PyFloat.Ordered.le_trans hsub hfresh
    · split at hfresh
      · rename_i hlt
        exact PyFloat.Ordered.le_trans (PyFloat.Ordered.le_of_lt hlt) hfresh
      · exact hfresh
  · cases hage

end

/-- The source is live exactly if the latest timestamp is not older than samples may be. -/
theorem classifySource_live_iff {rows : List (Row F)} (hrows : rows ≠ [])
    (latestStatus : Dict String (Json F)) (staleAfter now : F) :
    (classifySource rows latestStatus staleAfter now).source = .live ↔
      (ageAt now (latestOf (rows.filterMap timestamp))).any
        (fun age => PyFloat.le age staleAfter) = true := by
  rw [classifySource, if_pos hrows]
  dsimp only
  split
  · rename_i hlive
    exact iff_of_true rfl hlive
  · rename_i hstale
    exact iff_of_false (by simp) hstale

/-- The rows at the end of the first file are gathered first. -/
theorem timestamps_gathered {found : MetricFiles} {file : MetricFile} {after : List MetricFile}
    (hsorted : found.sorted = file :: after) (limit : ℤ) :
    ∃ others, (gathered found limit : List (Row F)).filterMap timestamp =
      (readCsvTail file limit).filterMap timestamp ++ others := by
  have hprefix : (labelledTail file limit : List (Row F)) <+: gathered found limit := by
    rw [gathered, hsorted, List.take_succ_cons, gather, List.nil_append]
    split
    · exact List.prefix_refl _
    · exact prefix_gather _ _ _
  obtain ⟨others, hothers⟩ := hprefix.filterMap timestamp
  exact ⟨others, by rw [← hothers, timestamps_labelledTail]⟩

/-- The newest data is shown if and only if the files that are read fit together and, when there are
fresh samples, the timestamps of the first file begin with a number. -/
theorem keepsNewest_iff [PyFloat.Ordered F] [PyFloat.Timed F] (found : MetricFiles)
    (latestStatus : Dict String (Json F)) {limit : ℤ} (hlimit : 1 ≤ limit) (staleAfter : F) {now : F}
    (hnow : PyFloat.isFinite now = true) :
    KeepsNewest found latestStatus limit staleAfter now ↔
      Fits found limit ∧ Timed found limit staleAfter now := by
  obtain ⟨limit, rfl⟩ := Int.eq_ofNat_of_zero_le (by omega : 0 ≤ limit)
  have hlimit : 1 ≤ limit := by exact_mod_cast hlimit
  -- when the files fit, the fresh row is among those that are classified
  have hlive : Fits found limit → ∀ file after, found.sorted = file :: after →
      (∃ row ∈ (readCsvTail file limit : List (Row F)), Fresh staleAfter now row) →
      ((collect found latestStatus limit staleAfter now).source.source = .live ↔
        ∀ t, ((readCsvTail file limit : List (Row F)).filterMap timestamp).head? = some t →
          PyFloat.le t t = true) := by
    rintro hfits file after hsorted ⟨row, hrow, t, age, ht, hage, hfresh⟩
    obtain ⟨others, hothers⟩ := timestamps_gathered (F := F) hsorted limit
    have hmem : t ∈ (readCsvTail file limit : List (Row F)).filterMap timestamp :=
      List.mem_filterMap.mpr ⟨row, hrow, ht⟩
    have hne : (gathered found limit : List (Row F)) ≠ [] := by
      intro hnil
      rw [hnil, List.filterMap_nil] at hothers
      rw [(List.append_eq_nil_iff.mp hothers.symm).1] at hmem
      cases hmem
    have hsource : (collect found latestStatus limit staleAfter now).source =
        classifySource (gathered found limit) latestStatus staleAfter now :=
      congrArg (fun rows => classifySource rows latestStatus staleAfter now)
        (lastItems_eq_self hlimit (hfits.length_gathered_le hlimit))
    rw [hsource, classifySource_live_iff hne, hothers]
    obtain ⟨first, rest, hfirst⟩ := List.exists_cons_of_ne_nil (List.ne_nil_of_mem hmem)
    rw [hfirst, List.cons_append, List.head?_cons, latestOf]
    constructor
    · intro hany t heq
      obtain rfl := Option.some.inj heq
      by_contra hnot
      have hnumber := Bool.eq_false_of_not_eq_true hnot
      rw [latest_of_not_number _ hnumber, ageAt] at hany
      split at hany
      · rename_i hpos
        exact hnot (PyFloat.Timed.number_of_le (PyFloat.Ordered.le_of_lt hpos)).2
      · cases hany
    · intro hnumber
      obtain ⟨hbest, hall⟩ := le_latest (rest ++ others) (hnumber first rfl)
      -- a fresh timestamp is positive, so it is a number
      have hpos : PyFloat.lt 0.0 t = true := by
        by_contra hnot
        rw [ageAt, if_neg hnot] at hage
        cases hage
      have hself := (PyFloat.Timed.number_of_le (PyFloat.Ordered.le_of_lt hpos)).2
      rw [hfirst] at hmem
      rcases List.mem_cons.mp hmem with rfl | hmem
      · exact fresh_of_le hnow hage hfresh hbest
      · exact fresh_of_le hnow hage hfresh (hall t (List.mem_append_left _ hmem) hself)
  constructor
  · intro h
    have hfits : Fits found limit := fits_of_preferred hlimit h.preferred
    exact ⟨hfits, fun file after hsorted hfresh =>
      (hlive hfits file after hsorted hfresh).mp (h.live file after hsorted hfresh)⟩
  · rintro ⟨hfits, htimed⟩
    refine ⟨fun before file after hsorted other hother hkept => ?_, ?_, fun file after hsorted hfresh =>
      (hlive hfits file after hsorted hfresh).mpr (htimed file after hsorted hfresh)⟩
    · rw [hfits.rows_collect hlimit] at hkept ⊢
      exact preferred_gathered hlimit hsorted hother hkept
    · show ((lastItems (limit : ℤ) _).length : ℤ) ≤ limit
      rw [length_lastItems hlimit]
      omega

/-! ## Two files -/

/-- A file with one record for each timestamp. -/
def sampleFile (name : String) (mtime : ℚ) (timestamps : List String) : MetricFile where
  name
  mtime
  records := timestamps.map fun t => .ofList [("timestamp", some t)]

end

/-- The canonical file with two rows, and an older file with three rows. -/
def sampleFiles : MetricFiles where
  files := [sampleFile "old_link_metrics.csv" 1 ["1", "2", "3"],
    sampleFile "snaas_link_metrics.csv" 9 ["8", "9"]]
  nodup := by decide

/-- With room for five rows all are shown. -/
theorem keepsNewest_iff_sample : KeepsNewest sampleFiles .empty 5 (3 : ℚ) 10 ↔
    Fits sampleFiles 5 ∧ Timed sampleFiles 5 (3 : ℚ) 10 :=
  keepsNewest_iff sampleFiles .empty (by decide) 3 rfl

/-- With room for four rows the first row of the canonical file is left out for the rows of the
older file. -/
theorem keepsNewest_fails_sample : ¬∀ (found : MetricFiles) (latestStatus : Dict String (Json ℚ))
    (limit : ℤ) (staleAfter now : ℚ), 1 ≤ limit →
      KeepsNewest found latestStatus limit staleAfter now := by
  intro hall
  have h := (hall sampleFiles .empty 4 3 10 (by decide)).preferred []
    (sampleFile "snaas_link_metrics.csv" 9 ["8", "9"])
    [sampleFile "old_link_metrics.csv" 1 ["1", "2", "3"]] rfl
    (sampleFile "old_link_metrics.csv" 1 ["1", "2", "3"]) (by simp)
  have hkept : 0 < keptFrom (sampleFile "old_link_metrics.csv" 1 ["1", "2", "3"])
        (collect sampleFiles .empty 4 (3 : ℚ) 10).rows ∧
      keptFrom (sampleFile "snaas_link_metrics.csv" 9 ["8", "9"])
        (collect sampleFiles .empty 4 (3 : ℚ) 10).rows = 1 := by
    decide +kernel
  have htwo := h hkept.1
  rw [hkept.2] at htwo
  exact absurd htwo (by decide)

end Netlab.Telemetry
