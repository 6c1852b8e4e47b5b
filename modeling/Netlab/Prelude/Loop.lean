import Mathlib.Data.Finset.Card
import Mathlib.Data.Finset.Sort

/-!
# Loops and sets

A `while` loop is run with fuel: `Loop.run body fuel s` is the result of at most `fuel` passes, each
of which goes on in a new state, leaves the loop, or raises. A measure that every pass decreases
gives the number of passes that suffice (`Loop.run_of_measure`), and an invariant under which no
pass leaves shows that no number does (`Loop.run_eq_none`).

A set is iterated over in an order that its content does not determine. `SetOrder` gives it for
every occasion, so a statement about all of them holds for every order.
-/

namespace Loop

variable {σ ρ : Type*}

/-- At most `fuel` passes of a loop. A pass is `none` if it raises. -/
def run (body : σ → Option (σ ⊕ ρ)) : ℕ → σ → Option ρ
  | 0, _ => none
  | fuel + 1, s =>
      match body s with
      | some (.inl s') => run body fuel s'
      | some (.inr r) => some r
      | none => none

variable {body : σ → Option (σ ⊕ ρ)}

/-- A pass that goes on. -/
theorem run_succ_of_next {s s' : σ} (h : body s = some (.inl s')) (fuel : ℕ) :
    run body (fuel + 1) s = run body fuel s' := by
  rw [run, h]

/-- A pass that leaves the loop. -/
theorem run_succ_of_done {s : σ} {r : ρ} (h : body s = some (.inr r)) (fuel : ℕ) :
    run body (fuel + 1) s = some r := by
  rw [run, h]

/-- If every pass keeps an invariant that bounds the passes still to come, or leaves with a result
that is right, the loop ends with a result that is right. -/
theorem run_of_bound (Inv : ℕ → σ → Prop) (Post : ρ → Prop)
    (hbody : ∀ n s, Inv n s → (∃ r, body s = some (.inr r) ∧ Post r) ∨
      ∃ s' n', body s = some (.inl s') ∧ Inv n' s' ∧ n' < n)
    {n : ℕ} {s : σ} (hs : Inv n s) {fuel : ℕ} (hfuel : n < fuel) :
    ∃ r, run body fuel s = some r ∧ Post r := by
  induction fuel generalizing n s with
  | zero => omega
  | succ fuel ih =>
      rcases hbody n s hs with ⟨r, hr, hpost⟩ | ⟨s', n', hs', hinv, hlt⟩
      · exact ⟨r, run_succ_of_done hr fuel, hpost⟩
      · rw [run_succ_of_next hs']
        exact ih hinv (by omega)

/-- If every pass keeps an invariant and decreases a measure, or leaves with a result that is right,
the loop ends with a result that is right. -/
theorem run_of_measure (Inv : σ → Prop) (Post : ρ → Prop) (measure : σ → ℕ)
    (hbody : ∀ s, Inv s → (∃ r, body s = some (.inr r) ∧ Post r) ∨
      ∃ s', body s = some (.inl s') ∧ Inv s' ∧ measure s' < measure s)
    {s : σ} (hs : Inv s) {fuel : ℕ} (hfuel : measure s < fuel) :
    ∃ r, run body fuel s = some r ∧ Post r := by
  refine run_of_bound (fun n s => Inv s ∧ measure s = n) Post ?_ ⟨hs, rfl⟩ hfuel
  rintro n s ⟨hinv, rfl⟩
  refine (hbody s hinv).imp_right fun ⟨s', hs', hinv', hlt⟩ => ?_
  exact ⟨s', measure s', hs', ⟨hinv', rfl⟩, hlt⟩

/-- If every pass keeps an invariant and decreases a measure, or leaves, the loop ends. -/
theorem exists_run_eq_some (Inv : σ → Prop) (measure : σ → ℕ)
    (hbody : ∀ s, Inv s → (∃ r, body s = some (.inr r)) ∨
      ∃ s', body s = some (.inl s') ∧ Inv s' ∧ measure s' < measure s)
    {s : σ} (hs : Inv s) {fuel : ℕ} (hfuel : measure s < fuel) : ∃ r, run body fuel s = some r := by
  obtain ⟨r, hr, -⟩ := run_of_measure Inv (fun _ => True) measure
    (fun s hs => (hbody s hs).imp_left fun ⟨r, hr⟩ => ⟨r, hr, trivial⟩) hs hfuel
  exact ⟨r, hr⟩

/-- If every pass keeps an invariant, and under it leaves with a result that is right only, whatever
the loop ends with is right. -/
theorem post_of_run (Inv : σ → Prop) (Post : ρ → Prop)
    (hnext : ∀ s s', Inv s → body s = some (.inl s') → Inv s')
    (hdone : ∀ s r, Inv s → body s = some (.inr r) → Post r)
    {s : σ} (hs : Inv s) {fuel : ℕ} {r : ρ} (h : run body fuel s = some r) : Post r := by
  induction fuel generalizing s with
  | zero => cases h
  | succ fuel ih =>
      rw [run] at h
      split at h
      · rename_i s' hbody
        exact ih (hnext s s' hs hbody) h
      · rename_i result hbody
        obtain rfl := Option.some.inj h
        exact hdone s result hs hbody
      · cases h

/-- A loop that never leaves as long as an invariant holds does not end. -/
theorem run_eq_none (Inv : σ → Prop)
    (hbody : ∀ s, Inv s → ∀ next, body s = some next → ∃ s', next = .inl s' ∧ Inv s')
    {s : σ} (hs : Inv s) (fuel : ℕ) : run body fuel s = none := by
  induction fuel generalizing s with
  | zero => rfl
  | succ fuel ih =>
      rw [run]
      split
      · rename_i s' hs'
        obtain ⟨_, heq, hinv⟩ := hbody s hs _ hs'
        obtain rfl := Sum.inl.inj heq
        exact ih hinv
      · rename_i r hr
        obtain ⟨_, heq, -⟩ := hbody s hs _ hr
        cases heq
      · rfl

end Loop

namespace List

variable {α σ : Type*}

/-- A `for` loop whose passes keep an invariant ends, and keeps it. -/
theorem exists_foldlM_eq_some {f : σ → α → Option σ} (Inv : σ → Prop) {l : List α}
    (hstep : ∀ s, ∀ a ∈ l, Inv s → ∃ s', f s a = some s' ∧ Inv s') {s : σ} (hs : Inv s) :
    ∃ s', l.foldlM f s = some s' ∧ Inv s' := by
  induction l generalizing s with
  | nil => exact ⟨s, rfl, hs⟩
  | cons a l ih =>
      obtain ⟨s', hs', hinv⟩ := hstep s a mem_cons_self hs
      rw [foldlM_cons, hs']
      exact ih (fun s b hb => hstep s b (mem_cons_of_mem _ hb)) hinv

end List

/-- The order in which sets are iterated over, on every occasion. An occasion is told by the nodes
that a program is working on. -/
structure SetOrder (α : Type*) where
  list : List α → Finset α → List α
  nodup : ∀ occasion s, (list occasion s).Nodup
  mem_list : ∀ occasion s a, a ∈ list occasion s ↔ a ∈ s

namespace SetOrder

variable {α : Type*}

attribute [simp] mem_list

/-- The order while a program is working on one more node. -/
def within (order : SetOrder α) (a : α) : SetOrder α where
  list occasion := order.list (a :: occasion)
  nodup occasion := order.nodup (a :: occasion)
  mem_list occasion := order.mem_list (a :: occasion)

/-- A set as long as its listing. -/
@[simp] theorem length_list (order : SetOrder α) (occasion : List α) (s : Finset α) :
    (order.list occasion s).length = s.card := by
  classical
  rw [← List.toFinset_card_of_nodup (order.nodup occasion s)]
  congr 1
  ext a
  simp

/-- The increasing order, for evaluations. -/
def sorted [LinearOrder α] : SetOrder α where
  list _ s := s.sort (· ≤ ·)
  nodup _ s := s.sort_nodup _
  mem_list _ s _ := s.mem_sort _

end SetOrder
