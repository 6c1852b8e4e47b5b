import Mathlib.Data.List.Basic

/-!
# A cursor that retries and one that stops

A cursor goes on by one position whenever the answer for its position is positive. After a negative
answer one cursor asks again the next time, the other one stays for good. They are together as long
as no position that was answered negatively is answered positively later (`held_eq_retried_iff`).
-/

namespace Retry

/-- The position after some answers, asking again after a negative one. -/
def retried : ℕ → List (ℕ → Bool) → ℕ
  | pos, [] => pos
  | pos, answer :: answers => retried (if answer pos then pos + 1 else pos) answers

/-- The position after some answers, staying for good after a negative one. -/
def held : ℕ → List (ℕ → Bool) → ℕ
  | pos, [] => pos
  | pos, answer :: answers => if answer pos then held (pos + 1) answers else pos

/-- The position of the first negative answer gets no positive one later. -/
def NoRecovery : ℕ → List (ℕ → Bool) → Prop
  | _, [] => True
  | pos, answer :: answers =>
      if answer pos then NoRecovery (pos + 1) answers else ∀ later ∈ answers, later pos = false

/-- The answers come to their end before the cursor that retries is past `last`: only the final one
may take it to `last`. -/
def Until (last pos : ℕ) (answers : List (ℕ → Bool)) : Prop :=
  ∀ k < answers.length, retried pos (answers.take k) < last

theorem le_retried (pos : ℕ) (answers : List (ℕ → Bool)) : pos ≤ retried pos answers := by
  induction answers generalizing pos with
  | nil => exact Nat.le_refl _
  | cons answer answers ih =>
      rw [retried]
      split
      · exact Nat.le_trans (Nat.le_succ _) (ih _)
      · exact ih _

/-- The cursor that stops is never ahead. -/
theorem held_le_retried (pos : ℕ) (answers : List (ℕ → Bool)) :
    held pos answers ≤ retried pos answers := by
  induction answers generalizing pos with
  | nil => exact Nat.le_refl _
  | cons answer answers ih =>
      rw [held, retried]
      split
      · exact ih _
      · exact le_retried _ _

/-- The cursor that retries stays exactly while the answers are negative. -/
theorem retried_eq_iff (pos : ℕ) (answers : List (ℕ → Bool)) :
    retried pos answers = pos ↔ ∀ answer ∈ answers, answer pos = false := by
  induction answers with
  | nil => simp [retried]
  | cons answer answers ih =>
      rw [retried, List.forall_mem_cons]
      cases hanswer : answer pos with
      | true =>
          have := le_retried (pos + 1) answers
          exact iff_of_false (by simp only [↓reduceIte]; omega) (by simp)
      | false => simpa using ih

/-- The cursors are together exactly when no position recovers. -/
theorem held_eq_retried_iff (pos : ℕ) (answers : List (ℕ → Bool)) :
    held pos answers = retried pos answers ↔ NoRecovery pos answers := by
  induction answers generalizing pos with
  | nil => exact iff_of_true rfl trivial
  | cons answer answers ih =>
      rw [held, retried, NoRecovery]
      split
      · exact ih _
      · rw [eq_comm]
        exact retried_eq_iff _ _

/-- Of answers that come to their end in time, the first one is asked for before the end, and so are
the others. -/
theorem Until.cons {last pos : ℕ} {answer : ℕ → Bool} {answers : List (ℕ → Bool)}
    (h : Until last pos (answer :: answers)) :
    pos < last ∧ Until last (if answer pos then pos + 1 else pos) answers :=
  ⟨h 0 (Nat.succ_pos _), fun k hk => h (k + 1) (Nat.succ_lt_succ hk)⟩

end Retry
