import Mathlib.Data.List.Sort

/-!
# Heaps in lists

`heapq` keeps a heap in a plain list and compares its elements with `<`, which may raise. What its
operations do is documented for elements that `<` puts in one linear order. `HeapQueue` states that
documentation: a push adds one element, and a pop takes out a least one. `HeapQueue.sorted` is an
implementation with these properties, which keeps its lists sorted.
-/

/-- On the elements of the list, `<` does not raise and compares the keys. -/
def List.KeyedBy {α K : Type} [LinearOrder K] (lt? : α → α → Option Bool) (key : α → K)
    (items : List α) : Prop :=
  items.Pairwise fun a b =>
    lt? a b = some (decide (key a < key b)) ∧ lt? b a = some (decide (key b < key a))

/-- The operations of `heapq` on elements compared by `lt?`, with what they do to lists on which the
comparison is that of the keys. -/
structure HeapQueue {α K : Type} [LinearOrder K] (lt? : α → α → Option Bool) (key : α → K) where
  /-- `heapq.heappush(items, item)`: the list after it. -/
  heappush : List α → α → List α
  /-- `heapq.heappop(items)`: the element it returns and the list after it. -/
  heappop : List α → Option (α × List α)
  /-- The list has the order of a heap. -/
  IsHeap : List α → Prop
  isHeap_nil : IsHeap []
  isHeap_heappush {items : List α} {item : α} (h : IsHeap items)
    (hkeys : (item :: items).KeyedBy lt? key) : IsHeap (heappush items item)
  heappush_perm {items : List α} {item : α} (h : IsHeap items)
    (hkeys : (item :: items).KeyedBy lt? key) : (heappush items item).Perm (item :: items)
  heappop_eq {items : List α} (h : IsHeap items) (hkeys : items.KeyedBy lt? key)
    (hne : items ≠ []) : ∃ item rest, heappop items = some (item, rest) ∧
      items.Perm (item :: rest) ∧ IsHeap rest ∧ ∀ other ∈ rest, key item ≤ key other

namespace HeapQueue

variable {α K : Type} [LinearOrder K]

/-- A heap whose lists are sorted by their keys. -/
def sorted (lt? : α → α → Option Bool) (key : α → K) : HeapQueue lt? key where
  heappush items item := items.orderedInsert (fun a b => key a ≤ key b) item
  heappop items :=
    match items with
    | [] => none
    | item :: rest => some (item, rest)
  IsHeap items := items.Pairwise fun a b => key a ≤ key b
  isHeap_nil := List.Pairwise.nil
  isHeap_heappush h _ :=
    have : Std.Total fun a b : α => key a ≤ key b := ⟨fun a b => le_total (key a) (key b)⟩
    have : IsTrans α fun a b => key a ≤ key b := ⟨fun _ _ _ => le_trans⟩
    h.orderedInsert _ _
  heappush_perm _ _ := List.perm_orderedInsert _ _ _
  heappop_eq {items} h _ hne := by
    cases items with
    | nil => exact absurd rfl hne
    | cons item rest =>
        obtain ⟨hleast, hrest⟩ := List.pairwise_cons.mp h
        exact ⟨item, rest, rfl, List.Perm.refl _, hrest, hleast⟩

end HeapQueue
