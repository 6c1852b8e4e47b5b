import Mathlib.Logic.Basic
import Mathlib.Algebra.Order.Ring.Int
import Mathlib.Tactic.Ring

/-!
# Runs of a deterministic step function

A system is given by a total step function `step : σ → ι → σ`; a call that the program rejects
leaves the state as it is. This file fixes the runs of such a system and the three induction rules
used on them:

* `run_invariant`: what every step preserves holds in every state reached;
* `run_invariant_of_allSteps`: the same when the step only preserves it under a condition on the
  state before the step, and every step of the run meets that condition;
* `run_balance`: a quantity that grows by one at exactly the steps with a property counts them.
-/

namespace Run

variable {σ ι : Type*} (step : σ → ι → σ)

/-- The state reached from `s` by performing `ops` in order. -/
def run (s : σ) (ops : List ι) : σ := ops.foldl step s

/-- `P` holds of the state and the operation at every step of the run of `ops` from `s`. -/
def AllSteps (P : σ → ι → Prop) : σ → List ι → Prop
  | _, [] => True
  | s, op :: ops => P s op ∧ AllSteps P (step s op) ops

instance AllSteps.decidable {P : σ → ι → Prop} [∀ s op, Decidable (P s op)] :
    ∀ s ops, Decidable (AllSteps step P s ops)
  | _, [] => isTrue trivial
  | s, op :: ops =>
      have : Decidable (AllSteps step P (step s op) ops) := AllSteps.decidable (step s op) ops
      inferInstanceAs (Decidable (P s op ∧ AllSteps step P (step s op) ops))

/-- The number of steps of the run of `ops` from `s` at which `P` holds. -/
def countSteps (P : σ → ι → Prop) [∀ s op, Decidable (P s op)] : σ → List ι → ℕ
  | _, [] => 0
  | s, op :: ops => (if P s op then 1 else 0) + countSteps P (step s op) ops

/-- What the run of `ops` from `s` answers, where `reply` is what one operation answers. -/
def replies {ο : Type*} (reply : σ → ι → Option ο) : σ → List ι → List ο
  | _, [] => []
  | s, op :: ops => (reply s op).toList ++ replies reply (step s op) ops

@[simp] theorem run_nil (s : σ) : run step s [] = s := rfl

@[simp] theorem run_cons (s : σ) (op : ι) (ops : List ι) :
    run step s (op :: ops) = run step (step s op) ops := rfl

theorem run_append (s : σ) (ops ops' : List ι) :
    run step s (ops ++ ops') = run step (run step s ops) ops' := by
  simp [run, List.foldl_append]

@[simp] theorem allSteps_nil (P : σ → ι → Prop) (s : σ) : AllSteps step P s [] := trivial

@[simp] theorem allSteps_cons (P : σ → ι → Prop) (s : σ) (op : ι) (ops : List ι) :
    AllSteps step P s (op :: ops) ↔ P s op ∧ AllSteps step P (step s op) ops := Iff.rfl

@[simp] theorem replies_nil {ο : Type*} (reply : σ → ι → Option ο) (s : σ) :
    replies step reply s [] = [] := rfl

@[simp] theorem replies_cons {ο : Type*} (reply : σ → ι → Option ο) (s : σ) (op : ι)
    (ops : List ι) :
    replies step reply s (op :: ops) =
      (reply s op).toList ++ replies step reply (step s op) ops := rfl

theorem allSteps_append (P : σ → ι → Prop) (s : σ) (ops ops' : List ι) :
    AllSteps step P s (ops ++ ops') ↔
      AllSteps step P s ops ∧ AllSteps step P (run step s ops) ops' := by
  induction ops generalizing s with
  | nil => simp
  | cons op ops ih => simp [ih, and_assoc]

theorem allSteps_and (P Q : σ → ι → Prop) (s : σ) (ops : List ι) :
    AllSteps step (fun s op => P s op ∧ Q s op) s ops ↔
      AllSteps step P s ops ∧ AllSteps step Q s ops := by
  induction ops generalizing s with
  | nil => simp
  | cons op ops ih => simp only [allSteps_cons, ih, and_and_and_comm]

variable {step}

/-- What every step preserves holds after every run. -/
theorem run_invariant (Inv : σ → Prop) (hstep : ∀ s op, Inv s → Inv (step s op))
    {s : σ} (hs : Inv s) (ops : List ι) : Inv (run step s ops) := by
  induction ops generalizing s with
  | nil => exact hs
  | cons op ops ih => exact ih (hstep s op hs)

/-- What every step that meets `P` preserves holds after every run whose steps all meet `P`. -/
theorem run_invariant_of_allSteps (Inv : σ → Prop) {P : σ → ι → Prop}
    (hstep : ∀ s op, Inv s → P s op → Inv (step s op))
    {s : σ} (hs : Inv s) {ops : List ι} (hops : AllSteps step P s ops) :
    Inv (run step s ops) := by
  induction ops generalizing s with
  | nil => exact hs
  | cons op ops ih => exact ih (hstep s op hs hops.1) hops.2

/-- Along a run whose steps all meet `P`, what `P` and the invariant that it keeps imply holds at
every step. -/
theorem allSteps_of_invariant (Inv : σ → Prop) {P Q : σ → ι → Prop}
    (himp : ∀ s op, Inv s → P s op → Q s op)
    (hstep : ∀ s op, Inv s → P s op → Inv (step s op)) {s : σ} (hs : Inv s) {ops : List ι}
    (hops : AllSteps step P s ops) : AllSteps step Q s ops := by
  induction ops generalizing s with
  | nil => trivial
  | cons op ops ih => exact ⟨himp s op hs hops.1, ih (hstep s op hs hops.1) hops.2⟩

/-- Two conditions that agree on states with an invariant, which the second one keeps, hold along
the same runs. -/
theorem allSteps_iff_of_invariant (Inv : σ → Prop) {P Q : σ → ι → Prop}
    (hiff : ∀ s op, Inv s → (P s op ↔ Q s op))
    (hstep : ∀ s op, Inv s → Q s op → Inv (step s op)) {s : σ} (hs : Inv s) {ops : List ι} :
    AllSteps step P s ops ↔ AllSteps step Q s ops := by
  induction ops generalizing s with
  | nil => exact Iff.rfl
  | cons op ops ih =>
      rw [allSteps_cons, allSteps_cons, hiff s op hs]
      exact and_congr_right fun hop => ih (hstep s op hs hop)

/-- Two conditions that agree on the operations of a run hold along the same ones. -/
theorem allSteps_congr {P Q : σ → ι → Prop} {ops : List ι} (h : ∀ op ∈ ops, ∀ s, P s op ↔ Q s op)
    {s : σ} : AllSteps step P s ops ↔ AllSteps step Q s ops := by
  induction ops generalizing s with
  | nil => exact Iff.rfl
  | cons op ops ih =>
      rw [allSteps_cons, allSteps_cons, h op List.mem_cons_self,
        ih fun op hop => h op (List.mem_cons_of_mem _ hop)]

/-- What holds at the start holds throughout a run exactly when it holds after every step. -/
theorem forall_take_iff {Inv : σ → Prop} {s : σ} (hs : Inv s) {ops : List ι} :
    (∀ k, Inv (run step s (ops.take k))) ↔ AllSteps step (fun s op => Inv (step s op)) s ops := by
  induction ops generalizing s with
  | nil => simpa using hs
  | cons op ops ih =>
      rw [allSteps_cons]
      constructor
      · intro h
        have hop : Inv (step s op) := h 1
        exact ⟨hop, (ih hop).mp fun k => h (k + 1)⟩
      · rintro ⟨hop, hops⟩ k
        cases k with
        | zero => exact hs
        | succ k => exact (ih hop).mpr hops k

/-- A quantity that, on states with the invariant, grows by one exactly at the steps at which
`P` holds, grows over a run by the number of those steps. -/
theorem run_balance (Inv : σ → Prop) {P : σ → ι → Prop} [∀ s op, Decidable (P s op)]
    (f : σ → ℤ) (hstep : ∀ s op, Inv s → Inv (step s op))
    (hf : ∀ s op, Inv s → f (step s op) = f s + if P s op then 1 else 0)
    {s : σ} (hs : Inv s) (ops : List ι) :
    f (run step s ops) = f s + countSteps step P s ops := by
  induction ops generalizing s with
  | nil => simp [countSteps]
  | cons op ops ih =>
      rw [run_cons, ih (hstep s op hs), hf s op hs, countSteps]
      push_cast
      ring

/-- No step has the property exactly when the count of the steps that have it is zero. -/
theorem countSteps_eq_zero_iff {P : σ → ι → Prop} [∀ s op, Decidable (P s op)]
    {s : σ} {ops : List ι} :
    countSteps step P s ops = 0 ↔ AllSteps step (fun s op => ¬ P s op) s ops := by
  induction ops generalizing s with
  | nil => simp [countSteps]
  | cons op ops ih =>
      by_cases h : P s op <;> simp [countSteps, h, ih]

end Run
