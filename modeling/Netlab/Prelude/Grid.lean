import Mathlib.Algebra.BigOperators.Group.List.Basic
import Mathlib.Data.List.Basic

/-!
# Combinations

The combinations of one element from each of several lists, in lexicographic order, as
`itertools.product` yields them. There are as many as the product of the lengths
(`length_combinations`), and the element that the `k`-th one has of a list is a digit of `k` in the
mixed radix of the lengths, of which the last varies fastest (`getElem?_combinations`).
-/

namespace List

variable {α β : Type*}

/-- The lists that have one element of each row, in lexicographic order. -/
def combinations : List (List α) → List (List α)
  | [] => [[]]
  | row :: rows => row.flatMap fun x => (combinations rows).map (x :: ·)

/-- How many combinations rows have. -/
def volume (rows : List (List α)) : ℕ := (rows.map length).prod

@[simp] theorem volume_nil : volume ([] : List (List α)) = 1 := rfl

@[simp] theorem volume_cons (row : List α) (rows : List (List α)) :
    volume (row :: rows) = row.length * volume rows := by
  rw [volume, map_cons, prod_cons, volume]

@[simp] theorem length_combinations (rows : List (List α)) :
    (combinations rows).length = volume rows := by
  induction rows with
  | nil => rfl
  | cons row rows ih =>
      have hlen : (fun x => ((combinations rows).map (x :: ·)).length) = fun _ => volume rows := by
        funext x
        rw [length_map, ih]
      rw [combinations, length_flatMap, hlen, volume_cons, map_const', sum_replicate_nat]

theorem length_of_mem_combinations {rows : List (List α)} {xs : List α}
    (h : xs ∈ combinations rows) : xs.length = rows.length := by
  induction rows generalizing xs with
  | nil => rw [mem_singleton.mp h, length_nil, length_nil]
  | cons row rows ih =>
      obtain ⟨x, -, hx⟩ := mem_flatMap.mp h
      obtain ⟨rest, hrest, rfl⟩ := mem_map.mp hx
      rw [length_cons, length_cons, ih hrest]

theorem exists_of_mem_combinations {rows : List (List α)} {xs : List α}
    (h : xs ∈ combinations rows) {x : α} (hx : x ∈ xs) : ∃ row ∈ rows, x ∈ row := by
  induction rows generalizing xs with
  | nil =>
      obtain rfl := mem_singleton.mp h
      cases hx
  | cons row rows ih =>
      obtain ⟨y, hy, hxs⟩ := mem_flatMap.mp h
      obtain ⟨rest, hrest, rfl⟩ := mem_map.mp hxs
      rcases mem_cons.mp hx with rfl | hmem
      · exact ⟨row, mem_cons_self, hy⟩
      · obtain ⟨row', hrow', hx'⟩ := ih hrest hmem
        exact ⟨row', mem_cons_of_mem _ hrow', hx'⟩

/-- A position in blocks of one length is a block and a position in it. -/
theorem getElem?_flatMap_of_length {xs : List α} {f : α → List β} {m : ℕ} (hm : 0 < m)
    (hf : ∀ x ∈ xs, (f x).length = m) (k : ℕ) :
    (xs.flatMap f)[k]? = xs[k / m]?.bind fun x => (f x)[k % m]? := by
  induction xs generalizing k with
  | nil => rfl
  | cons x xs ih =>
      have hx := hf x mem_cons_self
      rw [flatMap_cons]
      rcases Nat.lt_or_ge k m with hlt | hge
      · rw [getElem?_append_left (hx ▸ hlt), Nat.div_eq_of_lt hlt, Nat.mod_eq_of_lt hlt]
        rfl
      · obtain ⟨k, rfl⟩ := Nat.exists_eq_add_of_le hge
        rw [getElem?_append_right (by omega), hx, Nat.add_sub_cancel_left,
          ih (fun y hy => hf y (mem_cons_of_mem _ hy)), Nat.add_div_left _ hm,
          Nat.add_mod_left, getElem?_cons_succ]

/-- The digit of a row does not change with the rows before it. -/
theorem mod_div_volume {rows : List (List α)} {i : ℕ} {row : List α} (h : rows[i]? = some row)
    (k : ℕ) :
    k % volume rows / volume (rows.drop (i + 1)) % row.length =
      k / volume (rows.drop (i + 1)) % row.length := by
  obtain ⟨hi, rfl⟩ := getElem?_eq_some_iff.mp h
  have hsplit : volume rows =
      volume (rows.drop (i + 1)) * (volume (rows.take i) * rows[i].length) := by
    calc volume rows = volume (rows.take i ++ rows[i] :: rows.drop (i + 1)) := by
          rw [← drop_eq_getElem_cons hi, take_append_drop]
      _ = _ := by
          rw [volume, map_append, prod_append, map_cons, prod_cons, ← volume, ← volume]
          ac_rfl
  rw [hsplit, Nat.mod_mul_right_div_self, Nat.mod_mul_left_mod]

/-- The element that the `k`-th combination has of row `i`: the combinations of the rows behind it
are repeated once for each of its elements. -/
theorem getElem?_combinations {rows : List (List α)} {k : ℕ} (hk : k < volume rows) (i : ℕ) :
    (combinations rows)[k]?.bind (fun xs => xs[i]?) =
      rows[i]?.bind fun row => row[k / volume (rows.drop (i + 1)) % row.length]? := by
  induction rows generalizing k i with
  | nil => simp [combinations, Nat.lt_one_iff.mp hk]
  | cons row rows ih =>
      rw [volume_cons] at hk
      have hpos : 0 < volume rows := Nat.pos_of_ne_zero fun h => by simp [h] at hk
      have hrow : k / volume rows < row.length := (Nat.div_lt_iff_lt_mul hpos).mpr hk
      have hrest : k % volume rows < volume rows := Nat.mod_lt _ hpos
      rw [combinations, getElem?_flatMap_of_length hpos (by simp), getElem?_eq_getElem hrow,
        Option.bind_some, getElem?_map]
      -- the position splits into the index in the row and the position among the rest
      cases i with
      | zero =>
          rw [getElem?_eq_getElem ((length_combinations rows).symm ▸ hrest), Option.map_some,
            Option.bind_some, getElem?_cons_zero, getElem?_cons_zero, Option.bind_some, drop_one,
            tail_cons, Nat.mod_eq_of_lt hrow, getElem?_eq_getElem hrow]
      | succ i =>
          rw [Option.bind_map, getElem?_cons_succ, drop_succ_cons]
          refine (ih hrest i).trans ?_
          cases hget : rows[i]? with
          | none => rfl
          | some row' =>
              rw [Option.bind_some, Option.bind_some, mod_div_volume hget]

end List
