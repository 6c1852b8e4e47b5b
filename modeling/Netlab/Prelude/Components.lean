import Netlab.Prelude.DepthFirst
import Mathlib.Combinatorics.SimpleGraph.Connectivity.Connected
import Mathlib.SetTheory.Cardinal.Finite

/-!
# Counting connected components

A graph has more components without a node exactly if the node separates two others, and more
without an edge exactly if the edge holds its ends together.
-/

namespace SimpleGraph

open Relation

variable {V : Type*} {G : SimpleGraph V} {s : Set V}

/-- How many connected components the nodes of a set have. -/
noncomputable def componentCount (G : SimpleGraph V) (s : Set V) : ℕ :=
  Nat.card (G.induce s).ConnectedComponent

/-- What is connected within a set. -/
theorem reachable_induce_iff {a b : s} :
    (G.induce s).Reachable a b ↔
      ReflTransGen (fun x y => G.Adj x y ∧ x ∈ s ∧ y ∈ s) a.1 b.1 := by
  rw [reachable_iff_reflTransGen]
  constructor
  · intro h
    exact h.lift Subtype.val fun x y hxy => ⟨hxy, x.2, y.2⟩
  · obtain ⟨b, hb⟩ := b
    intro h
    have hmem : ∀ c (hc : c ∈ s), ReflTransGen (fun x y => G.Adj x y ∧ x ∈ s ∧ y ∈ s) a.1 c →
        ReflTransGen (G.induce s).Adj a ⟨c, hc⟩ := by
      intro c hc hac
      induction hac with
      | refl => exact .refl
      | tail _ hstep ih => exact (ih hstep.2.1).tail hstep.1
    exact hmem b hb h

/-- A homomorphism keeps components apart exactly if what it connects was connected. -/
theorem map_injective_iff {W : Type*} {H : SimpleGraph W} (f : H →g G) :
    Function.Injective (ConnectedComponent.map f) ↔
      ∀ a b, G.Reachable (f a) (f b) → H.Reachable a b := by
  constructor
  · intro h a b hab
    exact ConnectedComponent.eq.mp (h (ConnectedComponent.eq.mpr hab :
      G.connectedComponentMk (f a) = G.connectedComponentMk (f b)))
  · intro h c d
    induction c using ConnectedComponent.ind with | _ a =>
    induction d using ConnectedComponent.ind with | _ b =>
    exact fun hcd => ConnectedComponent.eq.mpr (h a b (ConnectedComponent.eq.mp hcd))

/-- If there are fewer components in the image, it connects what was not connected. -/
theorem exists_reachable_of_card_lt {W : Type*} {H : SimpleGraph W} [Finite V] (f : H →g G)
    (h : Nat.card G.ConnectedComponent < Nat.card H.ConnectedComponent) :
    ∃ a b, G.Reachable (f a) (f b) ∧ ¬H.Reachable a b := by
  have hfinite : Finite G.ConnectedComponent := Quot.finite _
  by_contra hnone
  push Not at hnone
  exact absurd (Nat.card_le_card_of_injective _ ((map_injective_iff f).mpr hnone)) (not_le.mpr h)

/-- If every component of the image comes from one, and it connects what was not connected, there
are fewer of them. -/
theorem card_lt_of_reachable {W : Type*} {H : SimpleGraph W} [Finite W] (f : H →g G)
    (hf : Function.Surjective (ConnectedComponent.map f)) {a b : W} (hab : G.Reachable (f a) (f b))
    (hnot : ¬H.Reachable a b) :
    Nat.card G.ConnectedComponent < Nat.card H.ConnectedComponent := by
  have hfinite : Finite H.ConnectedComponent := Quot.finite _
  by_contra hle
  exact hnot ((map_injective_iff f).mp (hf.bijective_of_nat_card_le (not_lt.mp hle)).1 a b hab)

variable {v : V}

/-- What is connected in the whole graph, if its edges stay within the set. -/
theorem reachable_induce_iff_of_adj (hadj : ∀ a b, G.Adj a b → a ∈ s) {a b : s} :
    (G.induce s).Reachable a b ↔ ReflTransGen G.Adj a.1 b.1 := by
  have heq : (fun x y => G.Adj x y ∧ x ∈ s ∧ y ∈ s) = G.Adj := by
    ext x y
    exact ⟨fun h => h.1, fun h => ⟨h, hadj x y h, hadj y x h.symm⟩⟩
  rw [reachable_induce_iff, heq]

/-- What is connected without a node. -/
theorem reachable_induce_sdiff_iff (hadj : ∀ a b, G.Adj a b → a ∈ s)
    {a b : (s \ {v} : Set V)} :
    (G.induce (s \ {v})).Reachable a b ↔ ReflTransGen (Without G.Adj v) a.1 b.1 := by
  have heq : (fun x y => G.Adj x y ∧ x ∈ s \ {v} ∧ y ∈ s \ {v}) = Without G.Adj v := by
    ext x y
    exact ⟨fun h => ⟨h.1, h.2.1.2, h.2.2.2⟩,
      fun h => ⟨h.1, ⟨hadj x y h.1, h.2.1⟩, hadj y x h.1.symm, h.2.2⟩⟩
  rw [reachable_induce_iff, heq]

/-- Without a node a finite graph has more components exactly if the node separates two others. -/
theorem componentCount_lt_iff_separates (hs : s.Finite) (hadj : ∀ a b, G.Adj a b → a ∈ s) :
    G.componentCount s < G.componentCount (s \ {v}) ↔ Separates G.Adj v := by
  have hfinite : Finite s := hs.to_subtype
  have hfinite' : Finite (s \ {v} : Set V) := (hs.subset Set.sdiff_subset).to_subtype
  let f : G.induce (s \ {v}) →g G.induce s := (G.induceHomOfLE Set.sdiff_subset).toHom
  constructor
  · intro hlt
    obtain ⟨a, b, hab, hnot⟩ := exists_reachable_of_card_lt f hlt
    exact ⟨a.1, b.1, a.2.2, b.2.2, (reachable_induce_iff_of_adj hadj).mp hab,
      fun h => hnot ((reachable_induce_sdiff_iff hadj).mpr h)⟩
  · intro hseparates
    -- a node that separates others has a neighbour, so its component does not vanish with it
    obtain ⟨w, hvw⟩ : ∃ w, G.Adj v w := by
      by_contra hnone
      exact not_separates (p := v) (fun _ _ h => h.symm)
        (fun w hvw _ => absurd ⟨w, hvw⟩ hnone) hseparates
    have hsurjective : Function.Surjective (ConnectedComponent.map f) := by
      intro c
      induction c using ConnectedComponent.ind with | _ x =>
      by_cases hxv : x.1 = v
      · refine ⟨connectedComponentMk _ ⟨w, hadj w v hvw.symm, hvw.ne'⟩,
          ConnectedComponent.eq.mpr (Adj.reachable ?_)⟩
        show G.Adj w x.1
        rw [hxv]
        exact hvw.symm
      · exact ⟨connectedComponentMk _ ⟨x.1, x.2, hxv⟩, rfl⟩
    obtain ⟨a, b, hav, hbv, hab, hnot⟩ := hseparates
    have hmem : ∀ {x y}, ReflTransGen G.Adj x y → x ≠ y → x ∈ s := by
      intro x y hxy hne
      rcases ReflTransGen.cases_head hxy with heq | ⟨z, hxz, -⟩
      · exact absurd heq hne
      · exact hadj x z hxz
    have hne : a ≠ b := by
      rintro rfl
      exact hnot .refl
    have ha : a ∈ s \ {v} := ⟨hmem hab hne, hav⟩
    have hb : b ∈ s \ {v} := ⟨hmem (reflTransGen_symm (fun _ _ h => h.symm) hab) hne.symm, hbv⟩
    exact card_lt_of_reachable (a := ⟨a, ha⟩) (b := ⟨b, hb⟩) f hsurjective
      ((reachable_induce_iff_of_adj hadj).mpr hab)
      fun h => hnot ((reachable_induce_sdiff_iff hadj).mp h)

/-- Without an edge a finite graph has more components exactly if the edge holds its
ends together. -/
theorem componentCount_lt_iff_cutsOff (hs : s.Finite) (hadj : ∀ a b, G.Adj a b → a ∈ s) {x y : V}
    (hxy : G.Adj x y) :
    G.componentCount s < (G.deleteEdges {s(x, y)}).componentCount s ↔ CutsOff G.Adj x y := by
  have hfinite : Finite s := hs.to_subtype
  have hle : (G.deleteEdges {s(x, y)}).induce s ≤ G.induce s := fun a b hab => hab.1
  let f : (G.deleteEdges {s(x, y)}).induce s →g G.induce s := .ofLE hle
  have hadj' : ∀ a b, (G.deleteEdges {s(x, y)}).Adj a b → a ∈ s := fun a b hab => hadj a b hab.1
  have hdelete : (G.deleteEdges {s(x, y)}).Adj = fun a b => G.Adj a b ∧ s(a, b) ≠ s(x, y) := by
    ext a b
    simp
  constructor
  · intro hlt hwalk
    obtain ⟨a, b, hab, hnot⟩ := exists_reachable_of_card_lt f hlt
    rw [reachable_induce_iff_of_adj hadj', hdelete] at hnot
    -- the edge is replaced by the walk around it
    have haround : ∀ c, ReflTransGen G.Adj a.1 c →
        ReflTransGen (fun a b => G.Adj a b ∧ s(a, b) ≠ s(x, y)) a.1 c := by
      intro c hac
      induction hac with
      | refl => exact .refl
      | @tail c d _ hcd ih =>
          by_cases hedge : s(c, d) = s(x, y)
          · rcases Sym2.eq_iff.mp hedge with ⟨rfl, rfl⟩ | ⟨rfl, rfl⟩
            · exact ih.trans hwalk
            · exact ih.trans (cutsOff_symm (fun _ _ h => h.symm) hwalk)
          · exact ih.tail ⟨hcd, hedge⟩
    exact hnot (haround _ ((reachable_induce_iff_of_adj hadj).mp hab))
  · intro hcut
    have hsurjective : Function.Surjective (ConnectedComponent.map f) := by
      intro c
      induction c using ConnectedComponent.ind with | _ a =>
      exact ⟨connectedComponentMk _ a, rfl⟩
    refine card_lt_of_reachable (a := ⟨x, hadj x y hxy⟩) (b := ⟨y, hadj y x hxy.symm⟩) f hsurjective
      ((reachable_induce_iff_of_adj hadj).mpr (.single hxy)) ?_
    rw [reachable_induce_iff_of_adj hadj', hdelete]
    exact hcut

end SimpleGraph
