import Mathlib

/-!
# Runs of stateful computations that may fail

A routine that changes global state in place and returns `false` part way
keeps what it changed before the failure. `EStateM ε σ` is that shape: a run
from a state ends `ok` with a value and a state, or `error` with a reason and
the state as the failure left it. These are the facts that take a run of a
sequence apart into runs of its steps, and the invariant rule for a
property every step keeps.

## Main results

* `bind_run_eq_ok`, `bind_run_eq_error` — a sequence ends `ok` exactly when
  each step does in turn; it fails when a step fails after the ones before
  it succeeded.
* `Preserves` and `Preserves.bind` — a property kept by every step, on
  success and on failure, is kept by the sequence.
-/

namespace FairCoin.Verified.StateRun

variable {ε σ α β : Type}

@[simp] theorem get_run (s : σ) : (get : EStateM ε σ σ) s = .ok s s := rfl

@[simp] theorem set_run (s s₁ : σ) : (set s₁ : EStateM ε σ PUnit) s = .ok ⟨⟩ s₁ := rfl

@[simp] theorem pure_run (a : α) (s : σ) : (pure a : EStateM ε σ α) s = .ok a s := rfl

@[simp] theorem throw_run (e : ε) (s : σ) : (throw e : EStateM ε σ α) s = .error e s := rfl

/-- A sequence ends `ok` exactly when its first step does and the rest,
run from the state the first step left, does too. -/
@[simp] theorem bind_run_eq_ok {x : EStateM ε σ α} {f : α → EStateM ε σ β} {s s' : σ} {b : β} :
    (x >>= f) s = .ok b s' ↔ ∃ a s₁, x s = .ok a s₁ ∧ f a s₁ = .ok b s' := by
  show EStateM.bind x f s = _ ↔ _
  unfold EStateM.bind
  cases x s <;> simp

/-- A sequence fails when its first step fails, or when the first step
succeeds and the rest fails. -/
theorem bind_run_eq_error {x : EStateM ε σ α} {f : α → EStateM ε σ β} {s s' : σ} {e : ε} :
    (x >>= f) s = .error e s' ↔
      x s = .error e s' ∨ ∃ a s₁, x s = .ok a s₁ ∧ f a s₁ = .error e s' := by
  show EStateM.bind x f s = _ ↔ _
  unfold EStateM.bind
  cases x s <;> simp

/-- The state a run ends in, whether it succeeded or failed. -/
def Result.state : EStateM.Result ε σ α → σ
  | .ok _ s => s
  | .error _ s => s

@[simp] theorem state_ok (a : α) (s : σ) : Result.state (.ok a s : EStateM.Result ε σ α) = s := rfl

@[simp] theorem state_error (e : ε) (s : σ) :
    Result.state (.error e s : EStateM.Result ε σ α) = s := rfl

/-! ## Invariants -/

/-- `x` keeps the relation `R` between the state it starts in and the state
it ends in, whether it succeeds or fails. -/
def Preserves (R : σ → σ → Prop) (x : EStateM ε σ α) : Prop :=
  ∀ s, R s (Result.state (x s))

theorem Preserves.pure {R : σ → σ → Prop} (hRefl : ∀ s, R s s) (a : α) :
    Preserves R (pure a : EStateM ε σ α) := fun s => hRefl s

/-- The invariant rule for a sequence: a transitive relation kept by the
first step and by every continuation is kept by the whole. -/
theorem Preserves.bind {R : σ → σ → Prop} (hTrans : ∀ s₁ s₂ s₃, R s₁ s₂ → R s₂ s₃ → R s₁ s₃)
    {x : EStateM ε σ α} {f : α → EStateM ε σ β} (hx : Preserves R x) (hf : ∀ a, Preserves R (f a)) :
    Preserves R (x >>= f) := by
  intro s
  show R s (Result.state (EStateM.bind x f s))
  unfold EStateM.bind
  have hxs := hx s
  cases hRun : x s with
  | ok a s₁ =>
    rw [hRun] at hxs
    exact hTrans _ _ _ hxs (hf a s₁)
  | error e s₁ =>
    rw [hRun] at hxs
    exact hxs

end FairCoin.Verified.StateRun
