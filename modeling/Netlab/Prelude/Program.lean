import Mathlib.Logic.Basic

/-!
# Programs that change a state and may raise

`EStateM ε σ` is the monad of such a program: what it changed before it raised stays. `Ends prog Q E
s` says that `prog`, run from `s`, returns with `Q` or raises with `E`; the rules follow the
constructors of a program.

A program of type `Guarded R ε α` changes the state only as the relation `R` allows, however it
ends. The guarded programs form a monad, so a program that is built from guarded ones needs no proof
of its own, and one under a stricter relation may be used under a weaker one (`weaken`).
-/

namespace Program

variable {ε σ α β : Type}

/-- From `s` the program returns a result and a state with `Q`, or raises in a state with `E`. -/
def Ends (prog : EStateM ε σ α) (Q : α → σ → Prop) (E : ε → σ → Prop) (s : σ) : Prop :=
  match prog s with
  | .ok a s' => Q a s'
  | .error e s' => E e s'

/-- The state in which the program ends, whether it returns or raises. -/
def final (prog : EStateM ε σ α) (s : σ) : σ :=
  match prog s with
  | .ok _ s' => s'
  | .error _ s' => s'

section Ends

variable {prog : EStateM ε σ α} {Q Q' : α → σ → Prop} {E E' : ε → σ → Prop} {s : σ}

theorem Ends.mono (h : Ends prog Q E s) (hQ : ∀ a s', Q a s' → Q' a s')
    (hE : ∀ e s', E e s' → E' e s') : Ends prog Q' E' s := by
  unfold Ends at h ⊢
  split at h
  · exact hQ _ _ h
  · exact hE _ _ h

/-- What holds however the program ends, holds in the state in which it ends. -/
theorem Ends.final {P : σ → Prop} (h : Ends prog (fun _ => P) (fun _ => P) s) :
    P (final prog s) := by
  unfold Ends at h
  unfold Program.final
  split at h <;> exact h

theorem Ends.and (h : Ends prog Q E s) (h' : Ends prog Q' E' s) :
    Ends prog (fun a s' => Q a s' ∧ Q' a s') (fun e s' => E e s' ∧ E' e s') s := by
  unfold Ends at *
  cases hrun : prog s with
  | ok a s' =>
      rw [hrun] at h h'
      exact ⟨h, h'⟩
  | error e s' =>
      rw [hrun] at h h'
      exact ⟨h, h'⟩

theorem ends_bind {f : α → EStateM ε σ β} {Q : β → σ → Prop} :
    Ends (prog >>= f) Q E s ↔ Ends prog (fun a => Ends (f a) Q E) E s := by
  have hrun : (prog >>= f) s = match prog s with
      | .ok a s' => f a s'
      | .error e s' => .error e s' := rfl
  unfold Ends
  rw [hrun]
  cases prog s <;> rfl

theorem ends_tryCatch {handler : ε → EStateM ε σ α} :
    Ends (tryCatch prog handler) Q E s ↔ Ends prog Q (fun e => Ends (handler e) Q E) s := by
  have hrun : (tryCatch prog handler) s = match prog s with
      | .ok a s' => .ok a s'
      | .error e s' => handler e s' := by
    show EStateM.tryCatch prog handler s = _
    unfold EStateM.tryCatch
    cases prog s <;> rfl
  unfold Ends
  rw [hrun]
  cases prog s <;> rfl

end Ends

/-! ## Guarded programs -/

/-- A relation between states that a run can be composed of. -/
class Composable (R : σ → σ → Prop) : Prop where
  refl : ∀ s, R s s
  trans : ∀ {a b c}, R a b → R b c → R a c

/-- However the program ends, the state before and the state after are related. -/
def Keeps (R : σ → σ → Prop) (prog : EStateM ε σ α) : Prop :=
  ∀ s, Ends prog (fun _ => R s) (fun _ => R s) s

/-- A program that changes the state only as a relation allows. -/
structure Guarded (R : σ → σ → Prop) (ε α : Type) where
  /-- the program -/
  run : EStateM ε σ α
  /-- the states before and after are related -/
  keeps : Keeps R run

namespace Guarded

variable {R S : σ → σ → Prop}

section Monad

variable [Composable R]

instance : Monad (Guarded R ε) where
  pure a := ⟨pure a, fun s => Composable.refl s⟩
  bind prog f :=
    { run := prog.run >>= fun a => (f a).run
      keeps := fun s => ends_bind.mpr ((prog.keeps s).mono
        (fun a s' hs => ((f a).keeps s').mono (fun _ _ => Composable.trans hs)
          fun _ _ => Composable.trans hs)
        fun _ _ he => he) }

instance : MonadExceptOf ε (Guarded R ε) where
  throw e := ⟨throw e, fun s => Composable.refl s⟩
  tryCatch prog handler :=
    { run := tryCatch prog.run fun e => (handler e).run
      keeps := fun s => ends_tryCatch.mpr ((prog.keeps s).mono (fun _ _ hs => hs) fun e s' hs =>
        ((handler e).keeps s').mono (fun _ _ => Composable.trans hs)
          fun _ _ => Composable.trans hs) }

/-- Look at the state. -/
def look : Guarded R ε σ := ⟨get, fun s => Composable.refl s⟩

/-- A step that gives a result and a state, or raises and leaves the state. -/
def step (f : σ → Except ε (α × σ)) (h : ∀ s a s', f s = .ok (a, s') → R s s') :
    Guarded R ε α where
  run s :=
    match f s with
    | .ok (a, s') => .ok a s'
    | .error e => .error e s
  keeps s := by
    show match (match f s with
        | .ok (a, s') => EStateM.Result.ok a s'
        | .error e => EStateM.Result.error e s) with
      | .ok _ s' => R s s'
      | .error _ s' => R s s'
    cases hf : f s with
    | error e => exact Composable.refl s
    | ok result => exact h s result.1 result.2 hf

end Monad

/-- A program under a relation that allows more. -/
def weaken (h : ∀ a b, R a b → S a b) (prog : Guarded R ε α) : Guarded S ε α :=
  ⟨prog.run, fun s => (prog.keeps s).mono (fun _ _ => h _ _) fun _ _ => h _ _⟩

/-! ## Rules -/

/-- From `s` the guarded program returns with `Q` or raises with `E`. -/
structure Ends (prog : Guarded R ε α) (Q : α → σ → Prop) (E : ε → σ → Prop) (s : σ) : Prop where
  /-- what the program does -/
  run : Program.Ends prog.run Q E s

variable {prog : Guarded R ε α} {Q Q' : α → σ → Prop} {E E' : ε → σ → Prop} {s : σ}

theorem Ends.mono (h : prog.Ends Q E s) (hQ : ∀ a s', Q a s' → Q' a s')
    (hE : ∀ e s', E e s' → E' e s') : prog.Ends Q' E' s :=
  ⟨h.run.mono hQ hE⟩

theorem Ends.and (h : prog.Ends Q E s) (h' : prog.Ends Q' E' s) :
    prog.Ends (fun a s' => Q a s' ∧ Q' a s') (fun e s' => E e s' ∧ E' e s') s :=
  ⟨h.run.and h'.run⟩

/-- What the type of a program says. -/
theorem ends_keeps (prog : Guarded R ε α) (s : σ) : prog.Ends (fun _ => R s) (fun _ => R s) s :=
  ⟨prog.keeps s⟩

theorem Ends.weaken (h : prog.Ends Q E s) (hRS : ∀ a b, R a b → S a b) :
    (weaken hRS prog : Guarded S ε α).Ends Q E s := ⟨h.run⟩

section Monad

variable [Composable R]

theorem ends_look {Q : σ → σ → Prop} (h : Q s s) : (look : Guarded R ε σ).Ends Q E s := ⟨h⟩

theorem ends_pure {a : α} (h : Q a s) : (pure a : Guarded R ε α).Ends Q E s := ⟨h⟩

/-- A step ends with its result, or where it began. -/
theorem ends_step {f : σ → Except ε (α × σ)} {h : ∀ s a s', f s = .ok (a, s') → R s s'}
    (hQ : ∀ a s', f s = .ok (a, s') → Q a s') (hE : ∀ e, f s = .error e → E e s) :
    (step f h).Ends Q E s := by
  refine ⟨?_⟩
  show match (match f s with
      | .ok (a, s') => EStateM.Result.ok a s'
      | .error e => EStateM.Result.error e s) with
    | .ok a s' => Q a s'
    | .error e s' => E e s'
  cases hf : f s with
  | error e => exact hE e hf
  | ok result => exact hQ result.1 result.2 hf

/-- To run one program after the other, give what holds in between. -/
theorem Ends.bind {f : α → Guarded R ε β} {P : α → σ → Prop} {Q : β → σ → Prop}
    (h : prog.Ends P E' s) (hf : ∀ a s', P a s' → (f a).Ends Q E s')
    (hE : ∀ e s', E' e s' → E e s') : (prog >>= f).Ends Q E s :=
  ⟨Program.ends_bind.mpr (h.run.mono (fun a s' ha => (hf a s' ha).run) hE)⟩

theorem Ends.tryCatch {handler : ε → Guarded R ε α} (h : prog.Ends Q E' s)
    (hf : ∀ e s', E' e s' → (handler e).Ends Q E s') :
    (MonadExcept.tryCatch prog handler).Ends Q E s :=
  ⟨Program.ends_tryCatch.mpr (h.run.mono (fun _ _ hQ => hQ) fun e s' he => (hf e s' he).run)⟩

end Monad

end Guarded

end Program
