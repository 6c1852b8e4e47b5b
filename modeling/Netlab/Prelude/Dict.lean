import Mathlib.Algebra.GroupWithZero.Nat
import Mathlib.Data.List.Basic
import Mathlib.Data.List.Nodup
import Mathlib.Tactic.Common

/-!
# Insertion-ordered dictionaries

A finite map that keeps its keys in the order of their first insertion. Storing under a key that is
already present replaces the value in place, storing under a new key appends it. The entries carry
a proof that no key occurs twice, so that looking a key up and being an entry are the same thing
(`get?_eq_some_iff`).
-/

/-- A finite map whose keys are listed once each, in the order of their first insertion. -/
structure Dict (α β : Type*) where
  /-- The key-value pairs, oldest key first. -/
  entries : List (α × β)
  /-- No key is listed twice. -/
  nodup : (entries.map Prod.fst).Nodup

namespace Dict

variable {α β : Type*}

@[ext] theorem ext {d d' : Dict α β} (h : d.entries = d'.entries) : d = d' := by
  cases d; cases d'; simp_all

/-- The dictionary without keys. -/
def empty : Dict α β := ⟨[], List.nodup_nil⟩

/-- The keys, in insertion order. -/
def keys (d : Dict α β) : List α := d.entries.map Prod.fst

/-- The values, in the order of their keys. -/
def values (d : Dict α β) : List β := d.entries.map Prod.snd

@[simp] theorem entries_empty : (empty : Dict α β).entries = [] := rfl

/-- The sum of a quantity over the values. -/
def sum (f : β → ℕ) (d : Dict α β) : ℕ := (d.entries.map fun e => f e.2).sum

@[simp] theorem sum_empty (f : β → ℕ) : (empty : Dict α β).sum f = 0 := rfl

variable [DecidableEq α]

/-- The value stored under a key. -/
def get? (d : Dict α β) (k : α) : Option β := d.entries.lookup k

/-- Store `v` under `k`: in place when the key is present, at the end otherwise. -/
def set (d : Dict α β) (k : α) (v : β) : Dict α β :=
  if h : k ∈ d.entries.map Prod.fst then
    { entries := d.entries.map fun e => if e.1 = k then (k, v) else e
      nodup := by
        have hkeys : (d.entries.map fun e => if e.1 = k then (k, v) else e).map Prod.fst =
            d.entries.map Prod.fst := by
          rw [List.map_map]
          refine List.map_congr_left fun e _ => ?_
          by_cases hk : e.1 = k <;> simp [hk]
        rw [hkeys]
        exact d.nodup }
  else
    { entries := d.entries ++ [(k, v)]
      nodup := by
        rw [List.map_append, List.map_singleton]
        exact List.nodup_append_comm.mp (List.nodup_cons.mpr ⟨h, d.nodup⟩) }

/-- The dictionary that stores the given pairs one after the other. -/
def ofList (entries : List (α × β)) : Dict α β :=
  entries.foldl (fun d e => d.set e.1 e.2) empty

private theorem lookup_eq_some_iff {l : List (α × β)} (hl : (l.map Prod.fst).Nodup)
    {k : α} {v : β} : l.lookup k = some v ↔ (k, v) ∈ l := by
  induction l with
  | nil => simp
  | cons e l ih =>
      obtain ⟨k', v'⟩ := e
      rw [List.map_cons, List.nodup_cons] at hl
      rw [List.lookup_cons, List.mem_cons]
      by_cases h : k = k'
      · subst h
        have hnot : (k, v) ∉ l := fun hmem => hl.1 (List.mem_map.mpr ⟨(k, v), hmem, rfl⟩)
        simp [hnot, eq_comm]
      · have hne : (k == k') = false := by simpa using h
        simp [hne, ih hl.2, h]

/-- A key is mapped to a value exactly when the pair is an entry. -/
theorem get?_eq_some_iff {d : Dict α β} {k : α} {v : β} :
    d.get? k = some v ↔ (k, v) ∈ d.entries :=
  lookup_eq_some_iff d.nodup

/-- A key is listed exactly when it is mapped to some value. -/
theorem mem_keys_iff {d : Dict α β} {k : α} : k ∈ d.keys ↔ ∃ v, d.get? k = some v := by
  simp [keys, get?_eq_some_iff]

@[simp] theorem get?_empty (k : α) : (empty : Dict α β).get? k = none := rfl

theorem entries_set_of_mem {d : Dict α β} {k : α} (v : β) (h : k ∈ d.keys) :
    (d.set k v).entries = d.entries.map fun e => if e.1 = k then (k, v) else e := by
  have h' : k ∈ d.entries.map Prod.fst := h
  simp only [set, h', ↓reduceDIte]

theorem entries_set_of_not_mem {d : Dict α β} {k : α} (v : β) (h : k ∉ d.keys) :
    (d.set k v).entries = d.entries ++ [(k, v)] := by
  have h' : k ∉ d.entries.map Prod.fst := h
  simp only [set, h', ↓reduceDIte]

/-- Storing under a present key keeps the keys and their order. -/
theorem keys_set_of_mem {d : Dict α β} {k : α} (v : β) (h : k ∈ d.keys) :
    (d.set k v).keys = d.keys := by
  rw [keys, entries_set_of_mem v h, List.map_map]
  refine List.map_congr_left fun e _ => ?_
  by_cases hk : e.1 = k <;> simp [hk]

/-- The entries after a store are the new pair and the old ones under other keys. -/
theorem mem_entries_set {d : Dict α β} {k k' : α} {v v' : β} :
    (k', v') ∈ (d.set k v).entries ↔
      (k' = k ∧ v' = v) ∨ (k' ≠ k ∧ (k', v') ∈ d.entries) := by
  -- a key that is there keeps its place, and a new one goes to the end
  by_cases h : k ∈ d.keys
  · rw [entries_set_of_mem v h, List.mem_map]
    constructor
    · rintro ⟨⟨k₀, v₀⟩, hmem, heq⟩
      by_cases hk : k₀ = k
      · rw [if_pos hk, Prod.mk.injEq] at heq
        exact Or.inl ⟨heq.1.symm, heq.2.symm⟩
      · rw [if_neg hk, Prod.mk.injEq] at heq
        obtain ⟨rfl, rfl⟩ := heq
        exact Or.inr ⟨hk, hmem⟩
    · rintro (⟨rfl, rfl⟩ | ⟨hne, hmem⟩)
      · obtain ⟨⟨k₀, v₀⟩, hmem, rfl⟩ := List.mem_map.mp h
        exact ⟨(k₀, v₀), hmem, by simp⟩
      · exact ⟨(k', v'), hmem, by simp [hne]⟩
  · rw [entries_set_of_not_mem v h, List.mem_append, List.mem_singleton, Prod.mk.injEq]
    constructor
    · rintro (hmem | heq)
      · refine Or.inr ⟨?_, hmem⟩
        rintro rfl
        exact h (List.mem_map.mpr ⟨_, hmem, rfl⟩)
      · exact Or.inl heq
    · rintro (heq | ⟨_, hmem⟩)
      · exact Or.inr heq
      · exact Or.inl hmem

@[simp] theorem get?_set_self (d : Dict α β) (k : α) (v : β) : (d.set k v).get? k = some v :=
  get?_eq_some_iff.mpr (mem_entries_set.mpr (Or.inl ⟨rfl, rfl⟩))

theorem get?_set_of_ne (d : Dict α β) {k k' : α} (v : β) (h : k' ≠ k) :
    (d.set k v).get? k' = d.get? k' := by
  apply Option.ext
  intro v'
  rw [get?_eq_some_iff, get?_eq_some_iff, mem_entries_set]
  simp [h]

/-- The value found after a store. -/
theorem get?_set (d : Dict α β) (k k' : α) (v : β) :
    (d.set k v).get? k' = if k' = k then some v else d.get? k' := by
  by_cases h : k' = k
  · subst h; simp
  · rw [get?_set_of_ne d v h, if_neg h]

/-- Storing a value adds its key. -/
theorem mem_keys_set {d : Dict α β} {k k' : α} {v : β} :
    k' ∈ (d.set k v).keys ↔ k' ∈ d.keys ∨ k' = k := by
  rw [mem_keys_iff, mem_keys_iff, get?_set]
  by_cases h : k' = k <;> simp [h]

/-- Of two stores under one key the second remains. -/
@[simp] theorem set_set (d : Dict α β) (k : α) (v w : β) :
    (d.set k v).set k w = d.set k w := by
  apply Dict.ext
  by_cases h : k ∈ d.keys
  · have hk : k ∈ (d.set k v).keys := by rwa [keys_set_of_mem v h]
    rw [entries_set_of_mem w hk, entries_set_of_mem v h, entries_set_of_mem w h, List.map_map]
    refine List.map_congr_left fun e _ => ?_
    by_cases he : e.1 = k <;> simp [he]
  · have hk : k ∈ (d.set k v).keys := by simp [keys, entries_set_of_not_mem v h]
    rw [entries_set_of_mem w hk, entries_set_of_not_mem v h, entries_set_of_not_mem w h,
      List.map_append]
    congr 1
    · refine (List.map_congr_left fun e he => ?_).trans (List.map_id _)
      have hne : e.1 ≠ k := fun heq => h (List.mem_map.mpr ⟨e, he, heq⟩)
      simp [hne]
    · simp

/-- What a dictionary built from pairs maps a key to is one of the pairs. -/
theorem mem_of_get?_ofList {entries : List (α × β)} {k : α} {v : β}
    (h : (ofList entries).get? k = some v) : (k, v) ∈ entries := by
  have hfold : ∀ (l : List (α × β)) (d : Dict α β),
      (l.foldl (fun d e => d.set e.1 e.2) d).get? k = some v → (k, v) ∈ l ∨ d.get? k = some v := by
    intro l
    induction l with
    | nil => exact fun d hd => Or.inr hd
    | cons e l ih =>
        intro d hd
        rcases ih (d.set e.1 e.2) hd with hmem | hget
        · exact Or.inl (List.mem_cons_of_mem e hmem)
        · rw [get?_set] at hget
          split at hget
          · rename_i hk
            obtain rfl := Option.some.inj hget
            exact Or.inl (by simp [hk])
          · exact Or.inr hget
  simpa using hfold entries empty h

/-- A dictionary built from pairs with distinct keys lists these pairs. -/
theorem entries_ofList {entries : List (α × β)} (h : (entries.map Prod.fst).Nodup) :
    (ofList entries).entries = entries := by
  have hfold : ∀ (l : List (α × β)) (d : Dict α β), ((d.entries ++ l).map Prod.fst).Nodup →
      (l.foldl (fun d e => d.set e.1 e.2) d).entries = d.entries ++ l := by
    intro l
    induction l with
    | nil => exact fun d _ => (List.append_nil _).symm
    | cons e l ih =>
        intro d hd
        have hnew : e.1 ∉ d.keys := by
          rw [List.map_append, List.map_cons] at hd
          exact fun hmem => (List.nodup_append.mp hd).2.2 e.1 hmem e.1 List.mem_cons_self rfl
        have hset := entries_set_of_not_mem e.2 hnew
        rw [List.foldl_cons, ih (d.set e.1 e.2) (by rw [hset, List.append_assoc]; exact hd), hset,
          List.append_assoc]
        rfl
  exact hfold entries empty h

/-- A dictionary built from pairs with distinct keys has the value of each pair at its key. -/
theorem get?_ofList_of_mem {entries : List (α × β)} (h : (entries.map Prod.fst).Nodup) {k : α}
    {v : β} (hmem : (k, v) ∈ entries) : (ofList entries).get? k = some v := by
  rw [get?_eq_some_iff, entries_ofList h]
  exact hmem

/-- The same keys with other values. -/
def mapValues (f : α → β → β) (d : Dict α β) : Dict α β where
  entries := d.entries.map fun e => (e.1, f e.1 e.2)
  nodup := by
    rw [List.map_map]
    exact d.nodup

omit [DecidableEq α] in
@[simp] theorem keys_mapValues (f : α → β → β) (d : Dict α β) : (d.mapValues f).keys = d.keys := by
  rw [keys, mapValues, List.map_map]
  rfl

@[simp] theorem get?_mapValues (f : α → β → β) (d : Dict α β) (k : α) :
    (d.mapValues f).get? k = (d.get? k).map (f k) := by
  apply Option.ext
  intro v
  rw [get?_eq_some_iff, Option.map_eq_some_iff, mapValues, List.mem_map]
  constructor
  · rintro ⟨e, he, heq⟩
    obtain ⟨rfl, rfl⟩ := Prod.mk.injEq .. ▸ heq
    exact ⟨e.2, get?_eq_some_iff.mpr he, rfl⟩
  · rintro ⟨w, hw, rfl⟩
    exact ⟨(k, w), get?_eq_some_iff.mp hw, rfl⟩

omit [DecidableEq α] in
theorem mapValues_mapValues (f g : α → β → β) (d : Dict α β) :
    (d.mapValues f).mapValues g = d.mapValues fun k v => g k (f k v) := by
  ext1
  simp [mapValues, Function.comp_def]

omit [DecidableEq α] in
theorem mapValues_eq_self {f : α → β → β} (h : ∀ k v, f k v = v) (d : Dict α β) :
    d.mapValues f = d := by
  ext1
  simp [mapValues, h]

/-- The same keys with values of another kind. -/
def map {γ : Type*} (f : α → β → γ) (d : Dict α β) : Dict α γ where
  entries := d.entries.map fun e => (e.1, f e.1 e.2)
  nodup := by
    rw [List.map_map]
    exact d.nodup

omit [DecidableEq α] in
@[simp] theorem keys_map {γ : Type*} (f : α → β → γ) (d : Dict α β) :
    (d.map f).keys = d.keys := by
  rw [keys, map, List.map_map]
  rfl

@[simp] theorem get?_map {γ : Type*} (f : α → β → γ) (d : Dict α β) (k : α) :
    (d.map f).get? k = (d.get? k).map (f k) := by
  apply Option.ext
  intro v
  rw [get?_eq_some_iff, Option.map_eq_some_iff, map, List.mem_map]
  constructor
  · rintro ⟨e, he, heq⟩
    obtain ⟨rfl, rfl⟩ := Prod.mk.injEq .. ▸ heq
    exact ⟨e.2, get?_eq_some_iff.mpr he, rfl⟩
  · rintro ⟨w, hw, rfl⟩
    exact ⟨(k, w), get?_eq_some_iff.mp hw, rfl⟩

omit [DecidableEq α] in
/-- A change of the values that the map does not see. -/
theorem map_mapValues {γ : Type*} {f : α → β → γ} {g : α → β → β}
    (h : ∀ k v, f k (g k v) = f k v) (d : Dict α β) : (d.mapValues g).map f = d.map f := by
  ext1
  simp [map, mapValues, h, Function.comp_def]

/-- The entries whose keys are kept. -/
def restrict (keep : α → Bool) (d : Dict α β) : Dict α β where
  entries := d.entries.filter fun e => keep e.1
  nodup := d.nodup.sublist (List.filter_sublist.map _)

omit [DecidableEq α] in
@[simp] theorem keys_restrict (keep : α → Bool) (d : Dict α β) :
    (d.restrict keep).keys = d.keys.filter keep := by
  rw [keys, keys, restrict, List.filter_map]
  rfl

@[simp] theorem get?_restrict (keep : α → Bool) (d : Dict α β) (k : α) :
    (d.restrict keep).get? k = if keep k then d.get? k else none := by
  apply Option.ext
  intro v
  rw [get?_eq_some_iff, restrict, List.mem_filter]
  by_cases h : keep k = true
  · simp [h, get?_eq_some_iff]
  · simp [h]

private theorem sum_replace (f : β → ℕ) {l : List (α × β)} (hl : (l.map Prod.fst).Nodup)
    {k : α} {old v : β} (hold : (k, old) ∈ l) :
    ((l.map fun e => if e.1 = k then (k, v) else e).map fun e => f e.2).sum + f old =
      (l.map fun e => f e.2).sum + f v := by
  induction l with
  | nil => simp at hold
  | cons e l ih =>
      obtain ⟨k', v'⟩ := e
      rw [List.map_cons, List.nodup_cons] at hl
      rcases List.mem_cons.mp hold with heq | hmem
      · obtain ⟨rfl, rfl⟩ := Prod.mk.injEq .. ▸ heq
        -- no later entry has this key, so the tail is unchanged
        have htail : (l.map fun e => if e.1 = k then (k, v) else e) = l := by
          refine (List.map_congr_left fun e he => ?_).trans (List.map_id l)
          have hne : e.1 ≠ k := fun h => hl.1 (List.mem_map.mpr ⟨e, he, h⟩)
          simp [hne]
        simp only [List.map_cons, htail, ↓reduceIte, List.sum_cons]
        omega
      · have hne : k' ≠ k := fun h => hl.1 (h ▸ List.mem_map.mpr ⟨_, hmem, rfl⟩)
        have := ih hl.2 hmem
        simp only [List.map_cons, hne, ↓reduceIte, List.sum_cons]
        omega

/-- Replacing the value of a present key changes a sum over the values by the two values. -/
theorem sum_set (f : β → ℕ) {d : Dict α β} {k : α} {old : β} (v : β)
    (hold : d.get? k = some old) : (d.set k v).sum f + f old = d.sum f + f v := by
  rw [get?_eq_some_iff] at hold
  have h : k ∈ d.keys := List.mem_map.mpr ⟨_, hold, rfl⟩
  rw [sum, entries_set_of_mem v h]
  exact sum_replace f d.nodup hold

end Dict
