import Mathlib

/-!
# Validators in the `Except` monad

A validation routine that stops at the first failed check is a sequence of
guards in `Except`: each check either throws its reason or lets the rest run.
These are the facts that read back, from a successful run, what each guard
established, and the facts that evaluate a run whose checks are known to pass.

## Main results

* `bind_eq_ok` — a sequence succeeds exactly when each step succeeds in turn.
* `failIf_eq_ok`, `onlyIf_eq_ok`, `orFail_eq_ok` — a guard succeeds exactly
  when its condition lets it pass.
* `forM_eq_ok` — a loop of checks over a list succeeds exactly when every
  element passes.
-/

namespace FairCoin.Verified.Checks

variable {ε α β : Type}

/-- A guard: fail with `e` when `c` holds, as the code's
`if (c) return state.DoS(...)`. -/
def failIf (c : Bool) (e : ε) : Except ε Unit := if c then .error e else .ok ()

/-- A group of checks that runs only when `c` holds. -/
def onlyIf (c : Bool) (x : Except ε Unit) : Except ε Unit := if c then x else .ok ()

/-- A value that must be present, else the failure `e`. -/
def orFail (o : Option α) (e : ε) : Except ε α :=
  match o with
  | some a => .ok a
  | none => .error e

@[simp] theorem failIf_eq_ok {c : Bool} {e : ε} {u : Unit} : failIf c e = .ok u ↔ c = false := by
  cases c <;> simp [failIf]

@[simp] theorem onlyIf_eq_ok {c : Bool} {x : Except ε Unit} {u : Unit} :
    onlyIf c x = .ok u ↔ (c = true → x = .ok ()) := by
  cases c <;> simp [onlyIf]

@[simp] theorem orFail_eq_ok {o : Option α} {e : ε} {a : α} : orFail o e = .ok a ↔ o = some a := by
  cases o <;> simp [orFail]

/-- A sequenced computation succeeds exactly when each step succeeds in turn. -/
@[simp] theorem bind_eq_ok {x : Except ε α} {f : α → Except ε β} {b : β} :
    x >>= f = .ok b ↔ ∃ a, x = .ok a ∧ f a = .ok b := by
  cases x <;> simp [bind, Except.bind]

@[simp] theorem pure_eq_ok {a b : α} : (pure a : Except ε α) = .ok b ↔ a = b := by
  simp [pure, Except.pure]

/-- A loop of checks over a list succeeds exactly when every element passes. -/
theorem forM_eq_ok {xs : List α} {g : α → Except ε Unit} :
    xs.forM g = .ok () ↔ ∀ x ∈ xs, g x = .ok () := by
  induction xs with
  | nil => simp [pure, Except.pure]
  | cons x xs ih =>
    show (g x >>= fun _ => xs.forM g) = .ok () ↔ _
    rw [bind_eq_ok, List.forall_mem_cons, ← ih]
    constructor
    · rintro ⟨⟨⟩, hx, hs⟩
      exact ⟨hx, hs⟩
    · rintro ⟨hx, hs⟩
      exact ⟨(), hx, hs⟩

end FairCoin.Verified.Checks
