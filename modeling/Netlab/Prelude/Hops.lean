import Mathlib.Data.List.Basic

/-!
# Consecutive pairs of a list

`hops route` lists the directed hops of a route, in order: the pairs of neighbouring nodes.
-/

namespace List

variable {α : Type*}

/-- The pairs of neighbouring elements of a list, in order. -/
def hops (route : List α) : List (α × α) := route.zip route.tail

@[simp] theorem hops_nil : hops ([] : List α) = [] := rfl

@[simp] theorem hops_singleton (a : α) : hops [a] = [] := rfl

@[simp] theorem hops_cons_cons (a b : α) (l : List α) :
    hops (a :: b :: l) = (a, b) :: hops (b :: l) := rfl

@[simp] theorem length_hops (l : List α) : l.hops.length = l.length - 1 := by
  simp [hops]

/-- The hop at position `i` goes from the element at `i` to the one at `i + 1`. -/
theorem getElem?_hops {l : List α} {i : ℕ} {a b : α} (ha : l[i]? = some a)
    (hb : l[i + 1]? = some b) : l.hops[i]? = some (a, b) := by
  simp [hops, getElem?_zip_eq_some, ha, hb]

/-- The first `i + 1` hops are the first `i` hops and the one at position `i`. -/
theorem take_succ_hops {l : List α} {i : ℕ} {a b : α} (ha : l[i]? = some a)
    (hb : l[i + 1]? = some b) : l.hops.take (i + 1) = l.hops.take i ++ [(a, b)] := by
  simp [take_add_one, getElem?_hops ha hb]

theorem hops_concat (l : List α) (a b : α) :
    (l ++ [a, b]).hops = (l ++ [a]).hops ++ [(a, b)] := by
  induction l with
  | nil => rfl
  | cons x l ih =>
      cases l with
      | nil => rfl
      | cons y l => simpa using ih

/-- Going back over a route takes its hops the other way around, from the last one on. -/
theorem hops_reverse (l : List α) : l.reverse.hops = (l.hops.map Prod.swap).reverse := by
  induction l with
  | nil => rfl
  | cons a l ih =>
      cases l with
      | nil => rfl
      | cons b l =>
          rw [reverse_cons, reverse_cons, append_assoc, singleton_append, hops_concat,
            ← reverse_cons, ih]
          simp

end List
