import Netlab.Prelude.Motion
import Netlab.Prelude.Run

/-!
# The energy of a UAV

`EnergyState` of `netlab/energy.py` counts the joules that a UAV spends on propulsion,
communication, computing and payload, and the watt-hours that remain of what it had. The counters
grow without bound, and what remains stops at zero. Over the reals the two agree all the same: what
remains is what there was less the sum of the counters, or nothing (`energy_consistent`).
Subtractions that stop at zero can be made in one or in two parts (`drain_drain`), so a call can be
split as well.
-/

/-! ## Subtraction that stops at zero -/

section

variable {K : Type*} [AddCommGroup K] [LinearOrder K]

/-- What is left of an amount after something has been taken away, at least nothing. -/
def drain (amount taken : K) : K := max 0 (amount - taken)

theorem drain_nonneg (amount taken : K) : 0 ≤ drain amount taken := le_max_left ..

theorem drain_zero {amount : K} (h : 0 ≤ amount) : drain amount 0 = amount := by
  rw [drain, sub_zero, max_eq_right h]

variable [IsOrderedAddMonoid K]

/-- Taking away in two parts. -/
theorem drain_drain (amount first : K) {second : K} (h : 0 ≤ second) :
    drain (drain amount first) second = drain amount (first + second) := by
  unfold drain
  rcases le_total (amount - first) 0 with hempty | hleft
  · -- nothing is left after the first part
    have htotal : amount - (first + second) ≤ 0 := by
      rw [← sub_sub]
      exact (sub_le_self _ h).trans hempty
    rw [max_eq_left hempty, max_eq_left htotal, zero_sub, max_eq_left (neg_nonpos.mpr h)]
  · rw [max_eq_right hleft, sub_sub]

/-- Nothing is gained. -/
theorem drain_le {amount taken : K} (hamount : 0 ≤ amount) (htaken : 0 ≤ taken) :
    drain amount taken ≤ amount :=
  max_le hamount (sub_le_self _ htaken)

end

namespace Netlab

variable {F : Type}

/-! ## The power of a rotary wing -/

section

variable [PyMotion F]

/-- `math.sqrt(x)`, which raises for a negative number. -/
def sqrt? (x : F) : Option F := if PyFloat.lt x 0.0 then none else some (PyMotion.sqrt x)

/-- `x ** n`. -/
def power (x : F) : ℕ → F
  | 0 => 1.0
  | n + 1 => power x n * x

/-- `rotary_wing_power_w` with its default parameters. -/
def rotaryWingPowerW (speedMps : F) : Option F :=
  let p0 : F := 79.86
  let pi : F := 88.63
  let uTip : F := 120.0
  let v0 : F := 4.03
  let d0 : F := 0.6
  let rho : F := 1.225
  let s : F := 0.05
  let area : F := 0.503
  if PyFloat.lt speedMps 0.0 then none
  else do
    let v := speedMps
    let profile := p0 * (1.0 + (← PyFloat.div (3.0 * v * v) (uTip * uTip)))
    -- the inner root is at least the square that is taken from it
    let root ← sqrt? (1.0 + (← PyFloat.div (power v 4) (4.0 * power v0 4)))
    let induced := pi * (← sqrt? (root - (← PyFloat.div (v * v) (2.0 * v0 * v0))))
    let parasite := 0.5 * d0 * rho * s * area * power v 3
    return profile + induced + parasite

end

/-! ## The state -/

/-- `EnergyState`. -/
structure EnergyState (F : Type) where
  capacityWh : F
  remainingWh : F
  propulsionJ : F
  communicationJ : F
  computingJ : F
  payloadJ : F

/-- The arguments of `consume`. -/
structure Consumption (F : Type) where
  dtS : F
  speedMps : F
  communicationW : F
  computingW : F
  payloadW : F

namespace EnergyState

section

variable [PyMotion F]

/-- A state as it is made, with nothing counted. -/
def new (capacityWh remainingWh : F) : EnergyState F where
  capacityWh := capacityWh
  remainingWh := remainingWh
  propulsionJ := 0.0
  communicationJ := 0.0
  computingJ := 0.0
  payloadJ := 0.0

/-- `soc_pct`. -/
def socPct (state : EnergyState F) : Option F :=
  if PyFloat.lt 0.0 state.capacityWh then do
    let share ← PyFloat.div (100.0 * state.remainingWh) state.capacityWh
    return PyFloat.max 0.0 (PyFloat.min 100.0 share)
  else some 0.0

/-- `consume`. It raises before it has written anything. -/
def consume (state : EnergyState F) (call : Consumption F) : Option (EnergyState F) :=
  -- a negative time raises, as does a negative speed in the power
  if PyFloat.lt call.dtS 0.0 then none
  else do
    let p ← rotaryWingPowerW call.speedMps
    let spentWh ← PyFloat.div
      ((p + call.communicationW + call.computingW + call.payloadW) * call.dtS) 3600.0
    return { state with
      propulsionJ := state.propulsionJ + p * call.dtS
      communicationJ := state.communicationJ + call.communicationW * call.dtS
      computingJ := state.computingJ + call.computingW * call.dtS
      payloadJ := state.payloadJ + call.payloadW * call.dtS
      remainingWh := PyFloat.max 0.0 (state.remainingWh - spentWh) }

/-- The state after a call. One that raises leaves it as it was. -/
def afterCall (state : EnergyState F) (call : Consumption F) : EnergyState F :=
  (state.consume call).getD state

/-- The `total_energy_j` of the metrics. -/
def totalEnergyJ (state : EnergyState F) : F :=
  state.propulsionJ + state.communicationJ + state.computingJ + state.payloadJ

end

end EnergyState

/-! ## Over the reals -/

theorem power_real (x : ℝ) (n : ℕ) : power x n = x ^ n := by
  induction n with
  | zero => norm_num [power]
  | succ n ih => rw [power, ih, pow_succ]

theorem sqrt?_real {x : ℝ} (h : 0 ≤ x) : sqrt? x = some (√x) := by
  rw [sqrt?, if_neg]
  · rfl
  · rw [PyFloat.lt_real, decide_eq_true_eq, not_lt]
    norm_num [h]

/-- The induced power has a root to be taken of. -/
theorem inducedRoot_nonneg (v v0 : ℝ) :
    0 ≤ √(1 + v ^ 4 / (4 * v0 ^ 4)) - v * v / (2 * v0 * v0) := by
  have hsquare : v ^ 4 / (4 * v0 ^ 4) = (v * v / (2 * v0 * v0)) ^ 2 := by
    rw [div_pow]
    congr 1 <;> ring
  rw [sub_nonneg, hsquare]
  exact Real.le_sqrt_of_sq_le (by linarith)

/-- There is no power at a negative speed; at any other it is not negative. -/
theorem rotaryWingPowerW_cases (v : ℝ) :
    rotaryWingPowerW v = none ∨ ∃ p, rotaryWingPowerW v = some p ∧ 0 ≤ p := by
  have hzero : (0.0 : ℝ) = 0 := by norm_num
  rcases lt_or_ge v 0 with hback | h
  · left
    rw [rotaryWingPowerW, if_pos]
    rw [PyFloat.lt_real, hzero, decide_eq_true_eq]
    exact hback
  right
  -- both roots are of numbers that are not negative
  have hroot := inducedRoot_nonneg v 4.03
  have hinner : 0 ≤ 1 + v ^ 4 / (4 * (4.03 : ℝ) ^ 4) := by positivity
  have hpower : rotaryWingPowerW v = some (79.86 * (1.0 + 3.0 * v * v / (120.0 * 120.0)) +
      88.63 * √(√(1 + v ^ 4 / (4 * 4.03 ^ 4)) - v * v / (2 * 4.03 * 4.03)) +
      0.5 * 0.6 * 1.225 * 0.05 * 0.503 * v ^ 3) := by
    have hone : (1.0 : ℝ) = 1 := by norm_num
    have htwo : (2.0 : ℝ) = 2 := by norm_num
    have hfour : (4.0 : ℝ) = 4 := by norm_num
    have hspeed : PyFloat.lt v (0.0 : ℝ) = false := by
      rw [PyFloat.lt_real, hzero, decide_eq_false_iff_not, not_lt]
      exact h
    simp only [rotaryWingPowerW, hspeed, power_real, hone, htwo, hfour, bind, pure,
      Bool.false_eq_true, if_false]
    rw [PyFloat.div_real (by norm_num), PyFloat.div_real (by norm_num),
      PyFloat.div_real (by norm_num)]
    simp only [Option.bind_some]
    rw [sqrt?_real hinner, Option.bind_some, sqrt?_real hroot, Option.bind_some]
  exact ⟨_, hpower, by positivity⟩

/-- A call that is made neither backwards in time nor with a power below zero. -/
structure Consumption.Physical (call : Consumption ℝ) : Prop where
  dtS : 0 ≤ call.dtS
  communicationW : 0 ≤ call.communicationW
  computingW : 0 ≤ call.computingW
  payloadW : 0 ≤ call.payloadW

/-- A call takes nothing below zero. -/
theorem Consumption.Physical.spent_nonneg {call : Consumption ℝ} (h : call.Physical) {p : ℝ}
    (hp : 0 ≤ p) :
    0 ≤ (p + call.communicationW + call.computingW + call.payloadW) * call.dtS / 3600.0 := by
  have := h.dtS
  have := h.communicationW
  have := h.computingW
  have := h.payloadW
  positivity

namespace EnergyState

/-- The state after a call that takes the power `p` for propulsion. -/
noncomputable def counted (state : EnergyState ℝ) (p : ℝ) (call : Consumption ℝ) :
    EnergyState ℝ where
  capacityWh := state.capacityWh
  remainingWh := drain state.remainingWh
    ((p + call.communicationW + call.computingW + call.payloadW) * call.dtS / 3600.0)
  propulsionJ := state.propulsionJ + p * call.dtS
  communicationJ := state.communicationJ + call.communicationW * call.dtS
  computingJ := state.computingJ + call.computingW * call.dtS
  payloadJ := state.payloadJ + call.payloadW * call.dtS

/-- A call at a speed without a power raises. -/
theorem afterCall_of_none (state : EnergyState ℝ) {call : Consumption ℝ}
    (h : rotaryWingPowerW call.speedMps = none) : state.afterCall call = state := by
  rw [afterCall, consume, h]
  split <;> rfl

/-- A call at a speed with a power is counted. -/
theorem afterCall_of_some (state : EnergyState ℝ) {call : Consumption ℝ} (h : 0 ≤ call.dtS) {p : ℝ}
    (hp : rotaryWingPowerW call.speedMps = some p) :
    state.afterCall call = state.counted p call := by
  have hzero : (0.0 : ℝ) = 0 := by norm_num
  have hdt : PyFloat.lt call.dtS (0.0 : ℝ) = false := by
    rw [PyFloat.lt_real, hzero, decide_eq_false_iff_not, not_lt]
    exact h
  simp only [afterCall, consume, hdt, hp, Bool.false_eq_true, if_false, bind, Option.bind_some]
  rw [PyFloat.div_real (by norm_num), Option.bind_some, PyFloat.max_real, hzero]
  rfl

/-- A call raises, or it is counted with a power that is not negative. -/
theorem afterCall_cases (state : EnergyState ℝ) {call : Consumption ℝ} (h : call.Physical) :
    state.afterCall call = state ∨ ∃ p, 0 ≤ p ∧ state.afterCall call = state.counted p call := by
  rcases rotaryWingPowerW_cases call.speedMps with hnone | ⟨p, hp, hpos⟩
  · exact Or.inl (afterCall_of_none state hnone)
  · exact Or.inr ⟨p, hpos, afterCall_of_some state h.dtS hp⟩

/-- What remains is what there was at first less what has been counted. -/
def Consistent (initialWh : ℝ) (state : EnergyState ℝ) : Prop :=
  state.remainingWh = drain initialWh (state.totalEnergyJ / 3600.0)

theorem consistent_new (capacityWh : ℝ) {initialWh : ℝ} (h : 0 ≤ initialWh) :
    (new capacityWh initialWh).Consistent initialWh := by
  have htotal : (new capacityWh initialWh).totalEnergyJ / 3600.0 = 0 := by
    norm_num [new, totalEnergyJ]
  rw [Consistent, htotal, drain_zero h]
  rfl

/-- A call keeps what remains in line with the counters. -/
theorem Consistent.afterCall {initialWh : ℝ} {state : EnergyState ℝ}
    (h : state.Consistent initialWh) {call : Consumption ℝ} (hcall : call.Physical) :
    (state.afterCall call).Consistent initialWh := by
  rcases afterCall_cases state hcall with heq | ⟨p, hp, heq⟩
  · rw [heq]
    exact h
  · have hremains : (state.counted p call).remainingWh = drain initialWh
        (state.totalEnergyJ / 3600.0 +
          (p + call.communicationW + call.computingW + call.payloadW) * call.dtS / 3600.0) := by
      rw [← drain_drain _ _ (hcall.spent_nonneg hp), ← h]
      rfl
    have hhour : (3600.0 : ℝ) = 3600 := by norm_num
    rw [Consistent, heq, hremains]
    congr 1
    simp only [totalEnergyJ, counted]
    rw [hhour]
    ring

/-- So does a run of calls. -/
theorem Consistent.run {initialWh : ℝ} {state : EnergyState ℝ} (h : state.Consistent initialWh)
    {calls : List (Consumption ℝ)} (hcalls : ∀ call ∈ calls, call.Physical) :
    (Run.run EnergyState.afterCall state calls).Consistent initialWh := by
  induction calls generalizing state with
  | nil => exact h
  | cons call calls ih =>
      exact ih (h.afterCall (hcalls call List.mem_cons_self)) fun call hcall =>
        hcalls call (List.mem_cons_of_mem _ hcall)

/-- Nothing remains below zero, and a call leaves no more than there was. -/
theorem Consistent.remainingWh_nonneg {initialWh : ℝ} {state : EnergyState ℝ}
    (h : state.Consistent initialWh) : 0 ≤ state.remainingWh := by
  rw [h]
  exact drain_nonneg ..

theorem remainingWh_afterCall_le {state : EnergyState ℝ} (h : 0 ≤ state.remainingWh)
    {call : Consumption ℝ} (hcall : call.Physical) :
    (state.afterCall call).remainingWh ≤ state.remainingWh := by
  rcases afterCall_cases state hcall with heq | ⟨p, hp, heq⟩
  · rw [heq]
  · rw [heq]
    exact drain_le h (hcall.spent_nonneg hp)

theorem capacityWh_afterCall (state : EnergyState ℝ) {call : Consumption ℝ} (h : call.Physical) :
    (state.afterCall call).capacityWh = state.capacityWh := by
  rcases afterCall_cases state h with heq | ⟨p, -, heq⟩
  · rw [heq]
  · rw [heq]
    rfl

/-- The state of charge over the reals. -/
theorem socPct_real (state : EnergyState ℝ) : state.socPct = some
    (if 0 < state.capacityWh then max 0 (min 100 (100 * state.remainingWh / state.capacityWh))
    else 0) := by
  have hzero : (0.0 : ℝ) = 0 := by norm_num
  have hundred : (100.0 : ℝ) = 100 := by norm_num
  by_cases h : 0 < state.capacityWh
  · have hlt : PyFloat.lt (0.0 : ℝ) state.capacityWh = true := by
      rw [PyFloat.lt_real, hzero, decide_eq_true_eq]
      exact h
    rw [socPct, if_pos hlt, if_pos h, PyFloat.div_real h.ne', hundred, hzero]
    simp only [bind, pure, Option.bind_some, PyFloat.max_real, PyFloat.min_real]
  · have hlt : PyFloat.lt (0.0 : ℝ) state.capacityWh = false := by
      rw [PyFloat.lt_real, hzero, decide_eq_false_iff_not]
      exact h
    rw [socPct, hlt, if_neg h, hzero]
    rfl

/-- The state of charge is not negative, and where less remains it is no higher. -/
theorem socPct_le {state state' : EnergyState ℝ} (hcapacity : state'.capacityWh = state.capacityWh)
    (h : state'.remainingWh ≤ state.remainingWh) : ∃ soc soc', state.socPct = some soc ∧
      state'.socPct = some soc' ∧ soc' ≤ soc ∧ 0 ≤ soc' := by
  refine ⟨_, _, socPct_real state, socPct_real state', ?_, ?_⟩
  · rw [hcapacity]
    split
    · gcongr
    · exact le_refl 0
  · split
    · exact le_max_left ..
    · exact le_refl 0

/-- A call in two parts. -/
theorem afterCall_split (state : EnergyState ℝ) {call : Consumption ℝ} (h : call.Physical)
    {first second : ℝ} (hfirst : 0 ≤ first) (hsecond : 0 ≤ second)
    (hsum : first + second = call.dtS) :
    (state.afterCall { call with dtS := first }).afterCall { call with dtS := second } =
      state.afterCall call := by
  let front : Consumption ℝ := { call with dtS := first }
  let back : Consumption ℝ := { call with dtS := second }
  show (state.afterCall front).afterCall back = state.afterCall call
  have hback : back.Physical := ⟨hsecond, h.communicationW, h.computingW, h.payloadW⟩
  rcases rotaryWingPowerW_cases call.speedMps with hnone | ⟨p, hp, hpos⟩
  · rw [@afterCall_of_none state front hnone, @afterCall_of_none state back hnone,
      afterCall_of_none state hnone]
  · rw [@afterCall_of_some state front hfirst p hp,
      @afterCall_of_some (state.counted p front) back hsecond p hp,
      afterCall_of_some state h.dtS hp]
    have hhour : (3600.0 : ℝ) = 3600 := by norm_num
    have hremains : ((state.counted p front).counted p back).remainingWh =
        (state.counted p call).remainingWh := by
      refine (drain_drain _ _ (hback.spent_nonneg hpos)).trans ?_
      show drain state.remainingWh _ = drain state.remainingWh _
      rw [← hsum, hhour]
      congr 1
      ring
    -- the counters add up in the same way
    have hcount : ∀ spent watts : ℝ, spent + watts * first + watts * second =
        spent + watts * call.dtS := by
      intro spent watts
      rw [← hsum]
      ring
    simp only [counted, EnergyState.mk.injEq] at hremains ⊢
    exact ⟨trivial, hremains, hcount _ _, hcount _ _, hcount _ _, hcount _ _⟩

/-- The books of a battery agree after every run of calls: what remains is what there was less what
has been counted, or nothing. Neither it nor the state of charge ever grows or falls below zero, and
a call can be made in two parts. -/
theorem energy_consistent (capacityWh : ℝ) {initialWh : ℝ} (hinitial : 0 ≤ initialWh)
    {calls : List (Consumption ℝ)} (hcalls : ∀ call ∈ calls, call.Physical) :
    let state := Run.run afterCall (new capacityWh initialWh) calls
    state.remainingWh = max 0 (initialWh - state.totalEnergyJ / 3600) ∧
      0 ≤ state.remainingWh ∧ (∃ soc, state.socPct = some soc ∧ 0 ≤ soc) ∧
      ∀ call : Consumption ℝ, call.Physical →
        (state.afterCall call).remainingWh ≤ state.remainingWh ∧
        (∃ soc soc', state.socPct = some soc ∧ (state.afterCall call).socPct = some soc' ∧
          soc' ≤ soc) ∧
        ∀ first second, 0 ≤ first → 0 ≤ second → first + second = call.dtS → ∀ rest,
          Run.run afterCall state ({ call with dtS := first } :: { call with dtS := second } ::
            rest) = Run.run afterCall state (call :: rest) := by
  intro state
  have hconsistent : state.Consistent initialWh := (consistent_new capacityWh hinitial).run hcalls
  have hhour : (3600.0 : ℝ) = 3600 := by norm_num
  refine ⟨?_, hconsistent.remainingWh_nonneg, ?_, fun call hcall => ?_⟩
  · rw [hconsistent, hhour]
    rfl
  · obtain ⟨-, soc, -, hsoc, -, hnonneg⟩ := @socPct_le state state rfl le_rfl
    exact ⟨soc, hsoc, hnonneg⟩
  · have hless := remainingWh_afterCall_le hconsistent.remainingWh_nonneg hcall
    refine ⟨hless, ?_, fun first second hfirst hsecond hsum rest => ?_⟩
    · obtain ⟨soc, soc', hsoc, hsoc', hle, -⟩ :=
        socPct_le (capacityWh_afterCall state hcall) hless
      exact ⟨soc, soc', hsoc, hsoc', hle⟩
    · rw [Run.run_cons, Run.run_cons, Run.run_cons, afterCall_split state hcall hfirst hsecond hsum]

/-- A minute of hovering. -/
noncomputable def hover : Consumption ℝ where
  dtS := 60.0
  speedMps := 0
  communicationW := 1
  computingW := 1
  payloadW := 0

/-- The books agree after an hour of hovering, when the battery is long empty. -/
theorem energy_consistent_hover :
    let state := Run.run afterCall (new 50 (20 : ℝ)) (List.replicate 60 hover)
    state.remainingWh = max 0 (20 - state.totalEnergyJ / 3600) := by
  refine (@energy_consistent 50 20 (by norm_num) (List.replicate 60 hover) ?_).1
  intro call hcall
  rw [List.eq_of_mem_replicate hcall]
  exact ⟨by norm_num [hover], by norm_num [hover], by norm_num [hover], by norm_num [hover]⟩

end EnergyState

end Netlab
