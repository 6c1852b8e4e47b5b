import Mathlib.Data.List.Forall2

/-!
# Loops that can raise

`List.mapM` in `Option` is a loop that collects one result for each element and stops at the first
element on which it raises.
-/

namespace List

variable {α β : Type*} {f : α → Option β}

/-- The loop ends with `l'` when it gets the elements of `l'` one by one. -/
theorem mapM_eq_some_iff_forall₂ {l : List α} {l' : List β} :
    l.mapM f = some l' ↔ Forall₂ (fun a b => f a = some b) l l' := by
  induction l generalizing l' with
  | nil =>
      rw [List.mapM_nil, forall₂_nil_left_iff]
      exact ⟨fun h => (Option.some.inj h).symm, fun h => h ▸ rfl⟩
  | cons a l ih =>
      simp only [List.mapM_cons, bind, pure, Option.bind_eq_some_iff, Option.some.injEq, ih]
      constructor
      · rintro ⟨b, hb, rest, hrest, rfl⟩
        exact .cons hb hrest
      · rintro (_ | ⟨hb, hrest⟩)
        exact ⟨_, hb, _, hrest, rfl⟩

/-- A loop ends when it raises on no element. -/
theorem exists_mapM_eq_some_iff {l : List α} :
    (∃ l', l.mapM f = some l') ↔ ∀ a ∈ l, ∃ b, f a = some b := by
  simp only [mapM_eq_some_iff_forall₂]
  induction l with
  | nil => simp
  | cons a l ih =>
      rw [forall_mem_cons, ← ih]
      constructor
      · rintro ⟨_, _ | ⟨hb, hrest⟩⟩
        exact ⟨⟨_, hb⟩, ⟨_, hrest⟩⟩
      · rintro ⟨⟨b, hb⟩, ⟨l', hl'⟩⟩
        exact ⟨b :: l', .cons hb hl'⟩

/-- A loop that ended got its results from the elements. -/
theorem mem_mapM_iff {l : List α} {l' : List β} (h : l.mapM f = some l') {b : β} :
    b ∈ l' ↔ ∃ a ∈ l, f a = some b := by
  rw [mapM_eq_some_iff_forall₂] at h
  induction h with
  | nil => simp
  | @cons a b' l l' hb _ ih =>
      rw [mem_cons, ih]
      constructor
      · rintro (rfl | ⟨x, hx, hfx⟩)
        · exact ⟨a, mem_cons_self, hb⟩
        · exact ⟨x, mem_cons_of_mem a hx, hfx⟩
      · rintro ⟨x, hx, hfx⟩
        rcases mem_cons.mp hx with rfl | hx
        · exact Or.inl (Option.some.inj (hfx.symm.trans hb))
        · exact Or.inr ⟨x, hx, hfx⟩

/-- What is done with each result can be done in the loop. -/
theorem map_mapM {γ : Type*} (g : β → γ) (l : List α) :
    (l.mapM f).map (List.map g) = l.mapM fun a => (f a).map g := by
  induction l with
  | nil => rfl
  | cons a l ih =>
      simp only [List.mapM_cons, ← ih]
      cases f a with
      | none => rfl
      | some b => cases l.mapM f <;> rfl

/-- The results of a loop match its elements one by one. -/
theorem map_eq_of_mapM {γ : Type*} {g : α → γ} {k : β → γ} {l : List α} {l' : List β}
    (h : l.mapM f = some l') (hmatch : ∀ a b, f a = some b → k b = g a) :
    l'.map k = l.map g := by
  rw [mapM_eq_some_iff_forall₂] at h
  induction h with
  | nil => rfl
  | cons hb _ ih => rw [map_cons, map_cons, hmatch _ _ hb, ih]

/-- Loops whose bodies agree on the elements. -/
theorem mapM_congr_left {g : α → Option β} {l : List α} (h : ∀ a ∈ l, f a = g a) :
    l.mapM f = l.mapM g := by
  induction l with
  | nil => rfl
  | cons a l ih =>
      rw [List.mapM_cons, List.mapM_cons, h a mem_cons_self,
        ih fun b hb => h b (mem_cons_of_mem a hb)]

end List

/-- Two computations whose results agree in some respect both raise or both have one. -/
theorem Option.cases_of_map_eq {α β γ : Type*} {f : α → γ} {g : β → γ} {o : Option α}
    {o' : Option β} (h : o.map f = o'.map g) :
    (o = none ∧ o' = none) ∨ ∃ a b, o = some a ∧ o' = some b ∧ f a = g b := by
  cases o <;> cases o' <;> simp_all

/-- Computations that start alike agree in some respect if what follows does. -/
theorem Option.map_bind_congr {α β γ : Type*} {f f' : α → Option β} {g : β → γ}
    (h : ∀ a, (f a).map g = (f' a).map g) (o : Option α) : (o.bind f).map g = (o.bind f').map g := by
  cases o with
  | none => rfl
  | some a => exact h a
