import Netlab.Prelude.Flow
import Mathlib.Data.List.Perm.Subperm

/-!
# Disjoint paths

Paths of a graph between two nodes that have no edge in common, or no inner node. Paths without a
common inner node use every edge and every inner node at most once, and paths that do so have no
inner node in common (`nodeDisjoint_of_count`).
-/

namespace List

variable {β γ : Type*} [BEq γ] [LawfulBEq γ]

/-- Where two members of a list have an element in common, it occurs twice in what they are joined
to. -/
theorem two_le_count_flatMap {f : β → List γ} {l : List β} {x : γ} {p q : β} (hne : p ≠ q)
    (hp : p ∈ l) (hq : q ∈ l) (hxp : x ∈ f p) (hxq : x ∈ f q) : 2 ≤ (l.flatMap f).count x := by
  have hnodup : [p, q].Nodup := by simp [hne]
  obtain ⟨l', hperm, hsublist⟩ : [p, q].Subperm l :=
    subperm_of_subset hnodup (by simp [hp, hq])
  have hcount : (l'.flatMap f).count x = (f p).count x + (f q).count x := by
    rw [(hperm.flatMap_right f).count_eq]
    simp
  have hle := (hsublist.flatMap f).count_le x
  have hpos := count_pos_iff.mpr hxp
  have hpos' := count_pos_iff.mpr hxq
  omega

/-- A member that is listed twice contributes its elements twice. -/
theorem two_le_count_of_not_nodup {f : β → List γ} {l : List β} (h : ¬l.Nodup)
    (hf : ∀ p ∈ l, f p ≠ []) : ∃ x, ∃ p ∈ l, x ∈ f p ∧ 2 ≤ (l.flatMap f).count x := by
  rw [nodup_iff_sublist, not_forall] at h
  obtain ⟨p, hsublist⟩ := h
  rw [not_not] at hsublist
  have hp : p ∈ l := hsublist.subset (by simp)
  obtain ⟨x, hx⟩ := exists_mem_of_ne_nil _ (hf p hp)
  refine ⟨x, p, hp, hx, ?_⟩
  have hle := (hsublist.flatMap f).count_le x
  have hpos := count_pos_iff.mpr hx
  simp only [flatMap_cons, flatMap_nil, append_nil, count_append] at hle
  omega

/-- An element that only one member has, and once, occurs at most once. -/
theorem count_flatMap_le_one {f : β → List γ} {l : List β} {x : γ} (hl : l.Nodup)
    (hf : ∀ p ∈ l, (f p).count x ≤ 1)
    (hunique : ∀ p ∈ l, ∀ q ∈ l, x ∈ f p → x ∈ f q → p = q) : (l.flatMap f).count x ≤ 1 := by
  induction l with
  | nil => simp
  | cons p l ih =>
      rw [nodup_cons] at hl
      rw [flatMap_cons, count_append]
      have hfirst := hf p mem_cons_self
      by_cases hx : x ∈ f p
      · have hnone : (l.flatMap f).count x = 0 := by
          rw [count_eq_zero, mem_flatMap]
          rintro ⟨q, hq, hxq⟩
          exact hl.1 (hunique p mem_cons_self q (mem_cons_of_mem _ hq) hx hxq ▸ hq)
        omega
      · rw [count_eq_zero_of_not_mem hx, Nat.zero_add]
        exact ih hl.2 (fun q hq => hf q (mem_cons_of_mem _ hq)) fun q hq q' hq' =>
          hunique q (mem_cons_of_mem _ hq) q' (mem_cons_of_mem _ hq')

end List

namespace Flow

variable {V : Type*} {edges : List (V × V)} {s t : V} {paths : List (List V)}

/-! ## Hops of a path -/

/-- A path between distinct ends starts with a hop. -/
theorem IsPath.exists_cons_cons {p : List V} (h : IsPath s t p) (hne : s ≠ t) :
    ∃ x rest, p = s :: x :: rest := by
  cases p with
  | nil => exact absurd h.head (by simp)
  | cons a rest =>
      obtain rfl := Option.some.inj h.head
      cases rest with
      | nil => exact absurd (Option.some.inj h.last) hne
      | cons x rest => exact ⟨x, rest, rfl⟩

/-- The ends of a hop are different nodes of the path; the first is not the sink, and the second is
not the source. -/
theorem IsPath.of_mem_hops {p : List V} (h : IsPath s t p) {u v : V} (huv : (u, v) ∈ p.hops) :
    u ∈ p ∧ v ∈ p ∧ u ≠ v ∧ u ≠ t ∧ v ≠ s := by
  obtain ⟨pre, post, rfl⟩ := List.mem_hops_iff.mp huv
  obtain ⟨-, hnodup, hdisjoint⟩ := List.nodup_append.mp h.nodup
  obtain ⟨hu, -⟩ := List.nodup_cons.mp hnodup
  refine ⟨by simp, by simp, fun heq => hu (heq ▸ List.mem_cons_self), ?_, ?_⟩
  · -- the sink comes after the first node
    rintro rfl
    have hlast : (v :: post).getLast? = some u := by
      rw [← h.last, List.getLast?_append_of_ne_nil _ (by simp), List.getLast?_cons_cons]
    exact hu (List.mem_of_getLast? hlast)
  · rintro rfl
    cases pre with
    | nil =>
        obtain rfl : u = v := Option.some.inj h.head
        exact hu List.mem_cons_self
    | cons x pre =>
        obtain rfl : x = v := Option.some.inj h.head
        exact hdisjoint x List.mem_cons_self x (by simp) rfl

/-- A path with a hop from its source to its sink is that hop. -/
theorem IsPath.eq_pair {p : List V} (h : IsPath s t p) (hst : (s, t) ∈ p.hops) : p = [s, t] := by
  obtain ⟨pre, post, rfl⟩ := List.mem_hops_iff.mp hst
  obtain ⟨-, hnodup, hdisjoint⟩ := List.nodup_append.mp h.nodup
  -- the path begins at its source, which it visits once
  have hpre : pre = [] := by
    cases pre with
    | nil => rfl
    | cons x pre =>
        obtain rfl : x = s := Option.some.inj h.head
        exact absurd rfl (hdisjoint x List.mem_cons_self x List.mem_cons_self)
  -- it ends at its sink, which it visits once
  have hpost : post = [] := by
    cases hlast : post.getLast? with
    | none => exact List.getLast?_eq_none_iff.mp hlast
    | some x =>
        have heq : x = t := by
          have hend := h.last
          rw [List.getLast?_append_of_ne_nil _ (by simp), List.getLast?_cons_cons] at hend
          obtain ⟨y, rest, rfl⟩ := List.exists_cons_of_ne_nil
            (fun hnil => by simp [hnil] at hlast : post ≠ [])
          rw [List.getLast?_cons_cons, hlast] at hend
          exact Option.some.inj hend
        exact absurd (heq ▸ List.mem_of_getLast? hlast)
          (List.nodup_cons.mp (List.nodup_cons.mp hnodup).2).1
  rw [hpre, hpost]
  rfl

/-- A node of a path between distinct ends is the end of a hop. -/
theorem IsPath.exists_hop {p : List V} (h : IsPath s t p) (hne : s ≠ t) {x : V} (hx : x ∈ p) :
    ∃ e ∈ p.hops, x = e.1 ∨ x = e.2 := by
  obtain ⟨pre, post, rfl⟩ := List.append_of_mem hx
  rcases List.eq_nil_or_concat' pre with rfl | ⟨pre, y, rfl⟩
  · obtain ⟨y, rest, heq⟩ := h.exists_cons_cons hne
    obtain ⟨rfl, rfl⟩ := List.cons.inj heq
    exact ⟨(x, y), List.mem_cons_self, Or.inl rfl⟩
  · exact ⟨(y, x), List.mem_hops_iff.mpr ⟨pre, post, by simp⟩, Or.inr rfl⟩

/-! ## Families of paths -/

/-- Paths of which no two have an edge in common. An edge that is listed several times can be used
as often. -/
structure EdgeDisjoint [DecidableEq V] (edges : List (V × V)) (s t : V) (paths : List (List V)) :
    Prop where
  path : ∀ p ∈ paths, IsPath s t p
  count_le : ∀ e, (paths.flatMap List.hops).count e ≤ edges.count e

/-- Different paths of which no two have an inner node in common. -/
structure NodeDisjoint (edges : List (V × V)) (s t : V) (paths : List (List V)) : Prop where
  path : ∀ p ∈ paths, IsPath s t p
  edge : ∀ p ∈ paths, ∀ e ∈ p.hops, e ∈ edges
  nodup : paths.Nodup
  disjoint : ∀ p ∈ paths, ∀ q ∈ paths, p ≠ q → ∀ x ∈ p, x ∈ q → x = s ∨ x = t

/-- A hop belongs to one path. -/
theorem NodeDisjoint.eq_of_mem_hops (h : NodeDisjoint edges s t paths) {p q : List V}
    (hp : p ∈ paths) (hq : q ∈ paths) {e : V × V} (hep : e ∈ p.hops) (heq : e ∈ q.hops) : p = q := by
  obtain ⟨u, v⟩ := e
  obtain ⟨hup, hvp, -, hut, hvs⟩ := (h.path p hp).of_mem_hops hep
  obtain ⟨huq, hvq, -⟩ := (h.path q hq).of_mem_hops heq
  by_contra hne
  obtain rfl := (h.disjoint p hp q hq hne u hup huq).resolve_right hut
  obtain rfl := (h.disjoint p hp q hq hne v hvp hvq).resolve_left hvs
  exact hne (((h.path p hp).eq_pair hep).trans ((h.path q hq).eq_pair heq).symm)

variable [DecidableEq V]

/-- Paths without a common inner node use every edge at most once. -/
theorem NodeDisjoint.count_hops_le_one (h : NodeDisjoint edges s t paths) (e : V × V) :
    (paths.flatMap List.hops).count e ≤ 1 :=
  List.count_flatMap_le_one h.nodup
    (fun p hp => List.nodup_iff_count_le_one.mp (nodup_hops (h.path p hp).nodup) e)
    fun _ hp _ hq hep heq => h.eq_of_mem_hops hp hq hep heq

/-- Paths without a common inner node have no edge in common. -/
theorem NodeDisjoint.edgeDisjoint (h : NodeDisjoint edges s t paths) :
    EdgeDisjoint edges s t paths := by
  refine ⟨h.path, fun e => ?_⟩
  by_cases he : e ∈ edges
  · exact (h.count_hops_le_one e).trans (List.count_pos_iff.mpr he)
  · rw [List.count_eq_zero_of_not_mem (a := e) (l := paths.flatMap List.hops)]
    · exact Nat.zero_le _
    · intro hmem
      obtain ⟨p, hp, hep⟩ := List.mem_flatMap.mp hmem
      exact he (h.edge p hp e hep)

/-- A node is met at most once by every path. -/
theorem NodeDisjoint.count_node_le (h : NodeDisjoint edges s t paths) (x : V) :
    paths.flatten.count x ≤ paths.length := by
  have hpaths := h.path
  clear h
  induction paths with
  | nil => simp
  | cons p paths ih =>
      have hone := List.nodup_iff_count_le_one.mp (hpaths p List.mem_cons_self).nodup x
      have hrest := ih fun q hq => hpaths q (List.mem_cons_of_mem _ hq)
      rw [List.flatten_cons, List.count_append, List.length_cons]
      omega

/-- An inner node is on at most one path. -/
theorem NodeDisjoint.count_node_le_one (h : NodeDisjoint edges s t paths) {x : V} (hs : x ≠ s)
    (ht : x ≠ t) : paths.flatten.count x ≤ 1 := by
  rw [← List.flatMap_id]
  refine List.count_flatMap_le_one h.nodup
    (fun p hp => List.nodup_iff_count_le_one.mp (h.path p hp).nodup x) fun p hp q hq hxp hxq => ?_
  by_contra hne
  exact (h.disjoint p hp q hq hne x hxp hxq).elim hs ht

omit [DecidableEq V] in
/-- There are no more such paths than nodes that an edge leads to. -/
theorem NodeDisjoint.length_le (h : NodeDisjoint edges s t paths) (hne : s ≠ t) {nodes : List V}
    (hnodes : ∀ e ∈ edges, e.2 ∈ nodes) : paths.length ≤ nodes.length := by
  -- the second nodes of the paths are different
  have hsecond : ∀ p ∈ paths, ∃ x, p[1]? = some x ∧ x ∈ nodes ∧ x ∈ p ∧ (s, x) ∈ p.hops := by
    intro p hp
    obtain ⟨x, rest, rfl⟩ := (h.path p hp).exists_cons_cons hne
    exact ⟨x, rfl, hnodes _ (h.edge _ hp (s, x) List.mem_cons_self), by simp, List.mem_cons_self⟩
  have hnodup : (paths.map fun p => p[1]?).Nodup := by
    refine h.nodup.map_on fun p hp q hq heq => ?_
    obtain ⟨x, hx, -, -, hhop⟩ := hsecond p hp
    obtain ⟨y, hy, -, -, hhop'⟩ := hsecond q hq
    rw [hx, hy] at heq
    obtain rfl := Option.some.inj heq
    exact h.eq_of_mem_hops hp hq hhop hhop'
  have hsubset : paths.map (fun p => p[1]?) ⊆ nodes.map some := by
    intro second hmem
    obtain ⟨p, hp, rfl⟩ := List.mem_map.mp hmem
    obtain ⟨x, hx, hnode, -⟩ := hsecond p hp
    exact List.mem_map.mpr ⟨x, hnode, hx.symm⟩
  simpa using (List.subperm_of_subset hnodup hsubset).length_le

/-- Paths that use every edge and every inner node at most once have no inner node in common. -/
theorem nodeDisjoint_of_count (hne : s ≠ t) (hpath : ∀ p ∈ paths, IsPath s t p)
    (hedges : ∀ p ∈ paths, ∀ e ∈ p.hops, e ∈ edges)
    (hhops : ∀ e, (paths.flatMap List.hops).count e ≤ 1)
    (hnodes : ∀ x, x ≠ s → x ≠ t → paths.flatten.count x ≤ 1) : NodeDisjoint edges s t paths := by
  refine ⟨hpath, hedges, ?_, ?_⟩
  · by_contra hrepeated
    have hsome : ∀ p ∈ paths, p.hops ≠ [] := by
      intro p hp
      obtain ⟨x, rest, rfl⟩ := (hpath p hp).exists_cons_cons hne
      simp
    obtain ⟨e, -, -, -, htwice⟩ := List.two_le_count_of_not_nodup hrepeated hsome
    have hone := hhops e
    omega
  · intro p hp q hq hpq x hxp hxq
    by_contra hinner
    rw [not_or] at hinner
    have hone := hnodes x hinner.1 hinner.2
    have htwice := @List.two_le_count_flatMap _ _ _ _ id _ x _ _ hpq hp hq hxp hxq
    rw [List.flatMap_id] at htwice
    omega

end Flow
