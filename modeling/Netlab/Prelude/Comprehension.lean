import Netlab.Prelude.Merge
import Mathlib.Data.List.Induction

/-!
# Dictionary comprehensions

A dictionary built from the items of another one: `filterMap` leaves items out, `traverse` raises
when one of its items does.
-/

namespace Dict

variable {α β γ : Type*}

private theorem map_fst_filterMap (f : α → β → Option γ) (l : List (α × β)) :
    (l.filterMap fun e => (f e.1 e.2).map (Prod.mk e.1)).map Prod.fst =
      (l.filter fun e => (f e.1 e.2).isSome).map Prod.fst := by
  induction l with
  | nil => rfl
  | cons e l ih => cases h : f e.1 e.2 <;> simp [h, ih]

/-- `{k: f(k, v) for k, v in d.items()}`, without the items that `f` leaves out. -/
def filterMap (f : α → β → Option γ) (d : Dict α β) : Dict α γ where
  entries := d.entries.filterMap fun e => (f e.1 e.2).map (Prod.mk e.1)
  nodup := by
    rw [map_fst_filterMap]
    exact d.nodup.sublist (List.filter_sublist.map _)

/-- `{k: f(k, v) for k, v in d.items()}`, where `f` can raise. -/
def traverse (f : α → β → Option γ) (d : Dict α β) : Option (Dict α γ) :=
  if d.entries.all fun e => (f e.1 e.2).isSome then some (d.filterMap f) else none

variable [DecidableEq α]

/-- Stored one after the other, the last item with a key counts. -/
theorem get?_foldl_set (l : List (α × β)) (d : Dict α β) (k : α) :
    (l.foldl (fun d e => d.set e.1 e.2) d).get? k = (l.reverse.lookup k).or (d.get? k) := by
  induction l using List.reverseRecOn with
  | nil => rfl
  | append_singleton l e ih =>
      rw [List.foldl_append, List.foldl_cons, List.foldl_nil, get?_set, List.reverse_append,
        List.reverse_singleton, List.singleton_append, List.lookup_cons]
      by_cases h : k = e.1
      · rw [if_pos h, beq_iff_eq.mpr h]
        rfl
      · rw [if_neg h, ih, beq_eq_false_iff_ne.mpr h]

/-- A dictionary made of items has for a key the value of the last item with this key. -/
theorem get?_ofList (l : List (α × β)) (k : α) : (ofList l).get? k = l.reverse.lookup k := by
  rw [ofList, get?_foldl_set, get?_empty, Option.or_none]

/-- Items of which those with one key agree make a dictionary of exactly these items. -/
theorem get?_ofList_eq_some_iff {l : List (α × β)}
    (h : ∀ k v v', (k, v) ∈ l → (k, v') ∈ l → v = v') {k : α} {v : β} :
    (ofList l).get? k = some v ↔ (k, v) ∈ l := by
  refine ⟨mem_of_get?_ofList, fun hmem => ?_⟩
  have hsome : (l.reverse.lookup k).isSome :=
    List.lookup_isSome_iff.mpr ⟨(k, v), List.mem_reverse.mpr hmem, beq_self_eq_true k⟩
  obtain ⟨w, hw⟩ := Option.isSome_iff_exists.mp hsome
  have hget := (get?_ofList l k).trans hw
  rw [hget, h k v w hmem (mem_of_get?_ofList hget)]

theorem get?_ofList_cons (e : α × β) (l : List (α × β)) (k : α) :
    (ofList (e :: l)).get? k = ((ofList l).get? k).or (if k = e.1 then some e.2 else none) := by
  have hsingle : [e].lookup k = if k = e.1 then some e.2 else none := by
    rw [List.lookup_cons]
    by_cases h : k = e.1
    · rw [if_pos h, beq_iff_eq.mpr h]
    · rw [if_neg h, beq_eq_false_iff_ne.mpr h]
      rfl
  rw [get?_ofList, get?_ofList, List.reverse_cons, List.lookup_append, hsingle]

/-- Values that are made of the values of other items. -/
theorem get?_ofList_map {ι : Type*} (key : ι → α) (f : ι → γ) (g : γ → β) (l : List ι) (k : α) :
    (ofList (l.map fun i => (key i, g (f i)))).get? k =
      ((ofList (l.map fun i => (key i, f i))).get? k).map g := by
  rw [get?_ofList, get?_ofList, ← List.map_reverse, ← List.map_reverse]
  induction l.reverse with
  | nil => rfl
  | cons i l ih =>
      rw [List.map_cons, List.map_cons, List.lookup_cons, List.lookup_cons]
      cases k == key i
      · exact ih
      · rfl

/-- After an update a key has its new value, or else the old one. -/
theorem get?_update (d d' : Dict α β) (k : α) :
    (d.update d').get? k = (d'.get? k).or (d.get? k) := by
  rw [update, get?_foldl_set, ← get?_ofList, ofList_entries]

@[simp] theorem get?_filterMap (f : α → β → Option γ) (d : Dict α β) (k : α) :
    (d.filterMap f).get? k = (d.get? k).bind (f k) := by
  apply Option.ext
  intro v
  rw [get?_eq_some_iff, Option.bind_eq_some_iff, filterMap, List.mem_filterMap]
  constructor
  · rintro ⟨e, he, heq⟩
    obtain ⟨w, hw, hpair⟩ := Option.map_eq_some_iff.mp heq
    obtain ⟨rfl, rfl⟩ := Prod.mk.injEq .. ▸ hpair
    exact ⟨e.2, get?_eq_some_iff.mpr he, hw⟩
  · rintro ⟨w, hw, hv⟩
    exact ⟨(k, w), get?_eq_some_iff.mp hw, Option.map_eq_some_iff.mpr ⟨v, hv, rfl⟩⟩

/-- A comprehension that did not raise has the value of each item at its key. -/
theorem get?_of_traverse {f : α → β → Option γ} {d : Dict α β} {d' : Dict α γ}
    (h : d.traverse f = some d') (k : α) : d'.get? k = (d.get? k).bind (f k) := by
  rw [traverse] at h
  split at h
  · rw [← Option.some.inj h, get?_filterMap]
  · simp at h

/-- A comprehension that did not raise has a value for each item. -/
theorem isSome_of_traverse {f : α → β → Option γ} {d : Dict α β} {d' : Dict α γ}
    (h : d.traverse f = some d') {k : α} {v : β} (hk : d.get? k = some v) :
    ∃ w, f k v = some w ∧ d'.get? k = some w := by
  have hall : (d.entries.all fun e => (f e.1 e.2).isSome) = true := by
    rw [traverse] at h
    split at h
    · assumption
    · simp at h
  obtain ⟨w, hw⟩ := Option.isSome_iff_exists.mp
    (List.all_eq_true.mp hall (k, v) (get?_eq_some_iff.mp hk))
  exact ⟨w, hw, by rw [get?_of_traverse h, hk]; exact hw⟩

omit [DecidableEq α] in
/-- A comprehension that did not raise has the keys of the items. -/
theorem keys_of_traverse {f : α → β → Option γ} {d : Dict α β} {d' : Dict α γ}
    (h : d.traverse f = some d') : d'.keys = d.keys := by
  rw [traverse] at h
  split at h
  · rename_i hall
    obtain rfl := Option.some.inj h
    have hkept : (d.entries.filter fun e => (f e.1 e.2).isSome) = d.entries :=
      List.filter_eq_self.mpr (List.all_eq_true.mp hall)
    show (d.entries.filterMap fun e => (f e.1 e.2).map (Prod.mk e.1)).map Prod.fst = _
    rw [map_fst_filterMap, hkept]
    rfl
  · simp at h

/-- A comprehension over two items. -/
theorem traverse_pair {f : α → β → Option γ} {k k' : α} {v v' : β} {w w' : γ} (hne : k ≠ k')
    (h : f k v = some w) (h' : f k' v' = some w') :
    (ofList [(k, v), (k', v')]).traverse f = some (ofList [(k, w), (k', w')]) := by
  have hentries : (ofList [(k, v), (k', v')]).entries = [(k, v), (k', v')] :=
    entries_ofList (by simpa using hne)
  have hsome : ((ofList [(k, v), (k', v')]).entries.all fun e => (f e.1 e.2).isSome) = true := by
    rw [hentries]
    simp [h, h']
  rw [traverse, if_pos hsome]
  congr 1
  apply ext
  show (ofList [(k, v), (k', v')]).entries.filterMap (fun e => (f e.1 e.2).map (Prod.mk e.1)) = _
  rw [hentries, entries_ofList (by simpa using hne)]
  simp [h, h']

omit [DecidableEq α] in
/-- A comprehension in which no item raises. -/
theorem traverse_eq_map {f : α → β → Option γ} {g : α → β → γ} {d : Dict α β}
    (h : ∀ e ∈ d.entries, f e.1 e.2 = some (g e.1 e.2)) : d.traverse f = some (d.map g) := by
  have hall : (d.entries.all fun e => (f e.1 e.2).isSome) = true :=
    List.all_eq_true.mpr fun e he => by rw [h e he]; rfl
  rw [traverse, if_pos hall]
  congr 1
  ext1
  show d.entries.filterMap (fun e => (f e.1 e.2).map (Prod.mk e.1)) =
    d.entries.map fun e => (e.1, g e.1 e.2)
  rw [← List.filterMap_eq_map]
  exact List.filterMap_congr fun e he => by rw [h e he]; rfl

omit [DecidableEq α] in
/-- A comprehension over the values of another one. -/
theorem traverse_map {δ : Type*} (f : α → γ → Option δ) (g : α → β → γ) (d : Dict α β) :
    (d.map g).traverse f = d.traverse fun k v => f k (g k v) := by
  have hentries : (d.map g).filterMap f = d.filterMap fun k v => f k (g k v) := by
    ext1
    simp [filterMap, map, List.filterMap_map]
  have hall : ((d.map g).entries.all fun e => (f e.1 e.2).isSome) =
      d.entries.all fun e => (f e.1 (g e.1 e.2)).isSome := by
    rw [map, List.all_map]
    rfl
  rw [traverse, traverse, hentries, hall]

omit [DecidableEq α] in
/-- The values of the items that are kept. -/
theorem restrict_map (keep : α → Bool) (g : α → β → γ) (d : Dict α β) :
    (d.map g).restrict keep = (d.restrict keep).map g := by
  ext1
  simp [restrict, map, List.filter_map, Function.comp_def]

omit [DecidableEq α] in
/-- Nothing is left out when every key is kept. -/
theorem restrict_eq_self {keep : α → Bool} {d : Dict α β} (h : ∀ k ∈ d.keys, keep k = true) :
    d.restrict keep = d := by
  ext1
  exact List.filter_eq_self.mpr fun e he => h e.1 (List.mem_map_of_mem he)

end Dict
