import Mathlib.Data.List.Chain
import Netlab.Prelude.Rounded
import Netlab.Prelude.Run

/-!
# The simulation clock

`SimulationClock` reads time off the monotonic wall clock while it runs in real time, and off a
stored value in the other modes and while it is paused. Every call is given with the wall-clock time
at which it is made.

* `SimulationClock.Steady` is the condition on one call under which the clock does not go back;
* `monotone_iff_steady`: a run keeps to it exactly when reading the clock before and after every
  call gives times that never decrease, and then the times the run itself returns never decrease.
-/

namespace Netlab

/-- `ClockMode`. -/
inductive ClockMode
  | realTime
  | fixedStep
  | accelerated
  | replay
  deriving DecidableEq

/-- `SimulationClock`. -/
structure SimulationClock (R : Type) where
  mode : ClockMode
  stepS : R
  scale : R
  simTimeS : R
  paused : Bool
  /-- `_wall_start`. -/
  wallStart : R
  /-- `_sim_start`. -/
  simStart : R

/-- The calls on a clock. -/
inductive ClockCall
  | now
  | tick (steps : ℤ)
  | pause
  | resume

namespace SimulationClock

variable {R : Type} [Rounded R]

/-- The clock as it is made at the wall-clock time `monotonic`, with `__post_init__`. -/
def init (mode : ClockMode) (stepS scale simTimeS : R) (paused : Bool) (monotonic : R) :
    SimulationClock R where
  mode := mode
  stepS := stepS
  scale := scale
  simTimeS := simTimeS
  paused := paused
  wallStart := monotonic
  simStart := simTimeS

/-- Time is read off the wall clock. -/
def Running (clock : SimulationClock R) : Prop := clock.mode = .realTime ∧ clock.paused = false

instance (clock : SimulationClock R) : Decidable clock.Running := inferInstanceAs (Decidable (_ ∧ _))

/-- `now`. -/
def now (clock : SimulationClock R) (monotonic : R) : R :=
  if clock.Running then clock.simStart + (monotonic - clock.wallStart) * clock.scale
  else clock.simTimeS

/-- A tick moves the clock. -/
def Ticks (clock : SimulationClock R) : Prop :=
  clock.paused = false ∨ clock.mode = .fixedStep ∨ clock.mode = .replay

instance (clock : SimulationClock R) : Decidable clock.Ticks :=
  inferInstanceAs (Decidable (_ ∨ _ ∨ _))

/-- The time to which a tick moves the clock. -/
def ticked (clock : SimulationClock R) (monotonic : R) (steps : ℤ) : R :=
  clock.now monotonic + clock.stepS * Rounded.ofInt steps

/-- `tick`, which returns the stored time after it. -/
def tick (clock : SimulationClock R) (monotonic : R) (steps : ℤ) : SimulationClock R :=
  if clock.Ticks then { clock with simTimeS := clock.ticked monotonic steps } else clock

/-- `pause`. -/
def pause (clock : SimulationClock R) (monotonic : R) : SimulationClock R :=
  { clock with simTimeS := clock.now monotonic, paused := true }

/-- `resume`, which does not ask whether the clock is paused. -/
def resume (clock : SimulationClock R) (monotonic : R) : SimulationClock R :=
  { clock with simStart := clock.simTimeS, wallStart := monotonic, paused := false }

/-- The clock after a call. -/
def step (clock : SimulationClock R) : R × ClockCall → SimulationClock R
  | (_, .now) => clock
  | (monotonic, .tick steps) => clock.tick monotonic steps
  | (monotonic, .pause) => clock.pause monotonic
  | (monotonic, .resume) => clock.resume monotonic

/-- The time a call returns. -/
def reply (clock : SimulationClock R) : R × ClockCall → Option R
  | (monotonic, .now) => some (clock.now monotonic)
  | (monotonic, .tick steps) => some (clock.tick monotonic steps).simTimeS
  | (_, .pause) => none
  | (_, .resume) => none

/-- The successive times that a sequence of calls returns. -/
def times (clock : SimulationClock R) (calls : List (R × ClockCall)) : List R :=
  Run.replies step reply clock calls

/-- The calls, with a reading of the clock before and after each of them at the same instant. -/
def probed (calls : List (R × ClockCall)) : List (R × ClockCall) :=
  calls.flatMap fun call => [(call.1, .now), call, (call.1, .now)]

/-- The call does not turn the clock back. A tick in real time would have to add nothing: it stores
the time it returns, but the wall clock is what is read next. A resumption of a clock that runs
would have to find a stored time that the running clock has not passed. -/
def Steady (clock : SimulationClock R) : R × ClockCall → Prop
  | (_, .now) => True
  | (monotonic, .tick steps) => clock.Ticks →
      clock.now monotonic ≤ clock.ticked monotonic steps ∧
        (clock.Running → clock.ticked monotonic steps ≤ clock.now monotonic)
  | (_, .pause) => True
  | (monotonic, .resume) => clock.Running → clock.now monotonic ≤ clock.simTimeS

instance (clock : SimulationClock R) : ∀ call, Decidable (clock.Steady call)
  | (_, .now) => inferInstanceAs (Decidable True)
  | (_, .tick _) => inferInstanceAs (Decidable (_ → _ ∧ (_ → _)))
  | (_, .pause) => inferInstanceAs (Decidable True)
  | (_, .resume) => inferInstanceAs (Decidable (_ → _))

/-! ### One call -/

theorem now_of_running {clock : SimulationClock R} (h : clock.Running) (monotonic : R) :
    clock.now monotonic = clock.simStart + (monotonic - clock.wallStart) * clock.scale := if_pos h

theorem now_of_not_running {clock : SimulationClock R} (h : ¬ clock.Running) (monotonic : R) :
    clock.now monotonic = clock.simTimeS := if_neg h

/-- A clock that is left alone does not go back. -/
theorem now_mono {clock : SimulationClock R} (hscale : 0 ≤ clock.scale) {monotonic later : R}
    (h : monotonic ≤ later) : clock.now monotonic ≤ clock.now later := by
  by_cases hrun : clock.Running
  · rw [now_of_running hrun, now_of_running hrun]
    exact Rounded.add_mono (Rounded.mul_mono (Rounded.sub_mono h _) hscale) _
  · rw [now_of_not_running hrun, now_of_not_running hrun]

/-- No call changes the scale. -/
@[simp] theorem step_scale (clock : SimulationClock R) (call : R × ClockCall) :
    (clock.step call).scale = clock.scale := by
  obtain ⟨monotonic, _ | steps | _ | _⟩ := call
  · rfl
  · show (clock.tick monotonic steps).scale = _
    rw [tick]
    split <;> rfl
  · rfl
  · rfl

/-- No call changes the mode. -/
@[simp] theorem step_mode (clock : SimulationClock R) (call : R × ClockCall) :
    (clock.step call).mode = clock.mode := by
  obtain ⟨monotonic, _ | steps | _ | _⟩ := call
  · rfl
  · show (clock.tick monotonic steps).mode = _
    rw [tick]
    split <;> rfl
  · rfl
  · rfl

/-- No call changes the length of a step. -/
@[simp] theorem step_stepS (clock : SimulationClock R) (call : R × ClockCall) :
    (clock.step call).stepS = clock.stepS := by
  obtain ⟨monotonic, _ | steps | _ | _⟩ := call
  · rfl
  · show (clock.tick monotonic steps).stepS = _
    rw [tick]
    split <;> rfl
  · rfl
  · rfl

/-- A tick leaves the mode and the pause. -/
theorem running_tick (clock : SimulationClock R) (monotonic : R) (steps : ℤ) :
    (clock.tick monotonic steps).Running ↔ clock.Running := by
  rw [tick]
  split
  · exact Iff.rfl
  · exact Iff.rfl

/-- A tick does not change what the running clock is read off. -/
theorem now_tick_of_running {clock : SimulationClock R} (h : clock.Running) (monotonic : R)
    (steps : ℤ) : (clock.tick monotonic steps).now monotonic = clock.now monotonic := by
  have hticks : clock.Ticks := Or.inl h.2
  rw [now_of_running ((clock.running_tick monotonic steps).mpr h), now_of_running h, tick,
    if_pos hticks]

/-- Where the time is the stored one, a tick changes what is read. -/
theorem now_tick_of_not_running {clock : SimulationClock R} (h : ¬ clock.Running) (monotonic : R)
    (steps : ℤ) :
    (clock.tick monotonic steps).now monotonic = (clock.tick monotonic steps).simTimeS :=
  now_of_not_running (mt (clock.running_tick monotonic steps).mp h) monotonic

/-- A pause keeps the time it is made at. -/
theorem now_pause (clock : SimulationClock R) (monotonic : R) :
    (clock.pause monotonic).now monotonic = clock.now monotonic :=
  if_neg (by simp [Running, pause])

/-- A resumption goes on from the stored time. -/
theorem now_resume (clock : SimulationClock R) (monotonic : R) :
    (clock.resume monotonic).now monotonic = clock.simTimeS := by
  by_cases hrun : (clock.resume monotonic).Running
  · rw [now_of_running hrun]
    show clock.simTimeS + (monotonic - monotonic) * clock.scale = clock.simTimeS
    rw [Rounded.sub_same, Rounded.nothing_mul, Rounded.add_nothing]
  · exact now_of_not_running hrun monotonic

/-- A tick is steady exactly when the times before it, of it and after it do not decrease. -/
theorem steady_tick_iff (clock : SimulationClock R) (monotonic : R) (steps : ℤ) :
    clock.Steady (monotonic, .tick steps) ↔
      clock.now monotonic ≤ (clock.tick monotonic steps).simTimeS ∧
        (clock.tick monotonic steps).simTimeS ≤ (clock.tick monotonic steps).now monotonic := by
  by_cases hrun : clock.Running
  · have hticks : clock.Ticks := Or.inl hrun.2
    rw [now_tick_of_running hrun]
    simp [Steady, tick, hticks, hrun]
  · rw [now_tick_of_not_running hrun]
    by_cases hticks : clock.Ticks
    · simp [Steady, tick, hticks, hrun]
    · simp [Steady, tick, hticks, now_of_not_running hrun]

/-- A call is steady exactly when the clock read before it, what it returns and the clock read after
it do not decrease. -/
theorem steady_iff (clock : SimulationClock R) (call : R × ClockCall) :
    clock.Steady call ↔
      (clock.now call.1 :: ((clock.reply call).toList ++ [(clock.step call).now call.1])).IsChain
        (· ≤ ·) := by
  obtain ⟨monotonic, _ | steps | _ | _⟩ := call
  · simp [Steady, reply, step]
  · simpa [reply, step] using clock.steady_tick_iff monotonic steps
  · simp [Steady, reply, step, now_pause]
  · by_cases hrun : clock.Running
    · simp [Steady, reply, step, now_resume, hrun]
    · simp [Steady, reply, step, now_resume, hrun, now_of_not_running hrun]

/-! ### Runs -/

/-- The times that a probed sequence of calls returns. -/
theorem times_probed_cons (clock : SimulationClock R) (call : R × ClockCall)
    (calls : List (R × ClockCall)) :
    clock.times (probed (call :: calls)) =
      (clock.now call.1 :: ((clock.reply call).toList ++ [(clock.step call).now call.1])) ++
        (clock.step call).times (probed calls) := by
  simp [times, probed, reply, step]

/-- What a sequence of calls returns is returned when it is probed. -/
theorem times_sublist_probed (clock : SimulationClock R) (calls : List (R × ClockCall)) :
    (clock.times calls).Sublist (clock.times (probed calls)) := by
  induction calls generalizing clock with
  | nil => exact List.Sublist.refl _
  | cons call calls ih =>
      rw [times_probed_cons]
      show ((clock.reply call).toList ++ (clock.step call).times calls).Sublist _
      refine List.Sublist.append ?_ (ih _)
      exact (List.sublist_append_left _ _).trans (List.sublist_cons_self _ _)

/-- The first time that a probed sequence of calls returns is the clock before its first call. -/
theorem head?_times_probed (clock : SimulationClock R) (calls : List (R × ClockCall)) :
    (clock.times (probed calls)).head? = calls.head?.map fun call => clock.now call.1 := by
  cases calls with
  | nil => rfl
  | cons call calls => rw [times_probed_cons]; rfl

/-- Between two calls the clock does not go back, so that what a probed run returns never decreases
exactly when it does not at any call. -/
theorem isChain_times_probed {clock : SimulationClock R} (hscale : 0 ≤ clock.scale)
    {calls : List (R × ClockCall)} (hcalls : (calls.map Prod.fst).Pairwise (· ≤ ·)) :
    (clock.times (probed calls)).IsChain (· ≤ ·) ↔ Run.AllSteps step Steady clock calls := by
  induction calls generalizing clock with
  | nil => simp [times, probed]
  | cons call calls ih =>
      obtain ⟨hlater, hcalls⟩ := List.pairwise_cons.mp hcalls
      rw [times_probed_cons, List.isChain_append, ← steady_iff,
        ih (by rw [step_scale]; exact hscale) hcalls, Run.allSteps_cons]
      refine and_congr_right fun _ => and_iff_left ?_
      -- the last time of the call is read no later than the first time of the rest
      intro before hbefore after hafter
      rw [head?_times_probed] at hafter
      obtain ⟨next, hnext, rfl⟩ := Option.map_eq_some_iff.mp hafter
      have hlast : (clock.step call).now call.1 = before := by
        rw [← List.cons_append, List.getLast?_concat] at hbefore
        exact Option.some.inj hbefore
      rw [← hlast]
      refine now_mono (by rw [step_scale]; exact hscale) (hlater _ ?_)
      exact List.mem_map_of_mem (List.mem_of_head? hnext)

/-- In the modes that store their time, every run whose ticks go forward is steady. -/
theorem allSteps_steady_of_stored {clock : SimulationClock R} (hmode : clock.mode ≠ .realTime)
    (hstep : 0 ≤ clock.stepS) {calls : List (R × ClockCall)}
    (hcalls : ∀ call ∈ calls, ∀ steps, call.2 = .tick steps → 0 ≤ steps) :
    Run.AllSteps step Steady clock calls := by
  induction calls generalizing clock with
  | nil => trivial
  | cons call calls ih =>
      have hidle : ¬ clock.Running := fun hrun => hmode hrun.1
      refine ⟨?_, ih (by rwa [step_mode]) (by rwa [step_stepS]) fun later hlater =>
        hcalls later (List.mem_cons_of_mem _ hlater)⟩
      obtain ⟨monotonic, _ | steps | _ | _⟩ := call
      · trivial
      · refine fun _ => ⟨Rounded.le_add_of_nonneg _ ?_, fun hrun => absurd hrun hidle⟩
        exact Rounded.nonneg_mul hstep
          (Rounded.ofInt_nonneg (hcalls _ (List.mem_cons_self ..) steps rfl))
      · trivial
      · exact fun hrun => absurd hrun hidle

/-- For every mode and every scale that is not negative, on a wall clock that does not go back: a
clock that is read before and after every call of a run never goes back exactly when every call is
steady, and then the times that the calls of the run return never decrease. -/
theorem monotone_iff_steady (mode : ClockMode) (stepS scale simTimeS : R) (paused : Bool)
    (monotonic : R) (calls : List (R × ClockCall)) (hscale : 0 ≤ scale)
    (hcalls : (monotonic :: calls.map Prod.fst).Pairwise (· ≤ ·)) :
    let clock := init mode stepS scale simTimeS paused monotonic
    ((clock.times (probed calls)).Pairwise (· ≤ ·) ↔ Run.AllSteps step Steady clock calls) ∧
      (Run.AllSteps step Steady clock calls → (clock.times calls).Pairwise (· ≤ ·)) := by
  intro clock
  have hprobed : (clock.times (probed calls)).Pairwise (· ≤ ·) ↔
      Run.AllSteps step Steady clock calls := by
    rw [← List.isChain_iff_pairwise]
    exact isChain_times_probed hscale (List.pairwise_cons.mp hcalls).2
  refine ⟨hprobed, fun hsteady => ?_⟩
  exact (hprobed.mpr hsteady).sublist (clock.times_sublist_probed calls)

/-- A clock in real time that is paused and resumed between two readings. -/
theorem monotone_pauseResume :
    let clock : SimulationClock ℚ := init .realTime (1 / 60) 1 0 false 0
    let calls : List (ℚ × ClockCall) := [(1, .now), (2, .pause), (5, .resume), (6, .now)]
    Run.AllSteps step Steady clock calls ∧ clock.times calls = [1, 3] ∧
      (clock.times calls).Pairwise (· ≤ ·) := by
  have hsteady : Run.AllSteps step Steady (init .realTime (1 / 60) 1 0 false 0 : SimulationClock ℚ)
      [(1, .now), (2, .pause), (5, .resume), (6, .now)] := by decide +kernel
  refine ⟨hsteady, by decide +kernel, ?_⟩
  exact (monotone_iff_steady .realTime (1 / 60) 1 0 false 0 _ (by decide +kernel)
    (by decide +kernel)).2 hsteady

/-- In real time a tick returns a time that the next reading falls behind, and a resumption that no
pause precedes starts the clock again at the time it was made with. -/
theorem not_monotone_realTime :
    let clock : SimulationClock ℚ := init .realTime (1 / 60) 1 0 false 0
    clock.times [(1, .tick 1), (1, .now)] = [1 + 1 / 60, 1] ∧
      ¬ (clock.times [(1, .tick 1), (1, .now)]).Pairwise (· ≤ ·) ∧
      clock.times [(1, .now), (1, .resume), (1, .now)] = [1, 0] ∧
      ¬ (clock.times [(1, .now), (1, .resume), (1, .now)]).Pairwise (· ≤ ·) := by
  decide +kernel

end SimulationClock

end Netlab
