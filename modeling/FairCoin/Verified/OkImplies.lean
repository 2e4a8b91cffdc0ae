import FairCoin.Verified.Checks

/-!
# Success that carries over: one failing computation refining another

`OkImplies x y` says that whenever the computation `x` succeeds, `y`
succeeds with the same value; `y` may fail less, never differently. It
relates a program run with more checks to the same program run with fewer,
when a check can only make the program fail.

The relation is a preorder, composes along `bind`, and holds between two
guards when the second one's failure condition implies the first one's. A
program written as a chain of binds and guards is therefore related to the
same chain with weaker guards step by step, and a loop by induction on its
steps.

## Main results

* `OkImplies.bind` — the relation composes along `bind`.
* `OkImplies.ite_error`, `OkImplies.failIf_of_imp` — a guard that fails on
  `c` refines one that fails on a `c'` implying `c`.
* `OkImplies.onlyIf_of_imp` — checks run on `c` refine checks run on a `c'`
  implying `c`, when the first refine the second where `c'` holds.
-/

namespace FairCoin.Verified

/-- Whenever `x` succeeds, `y` succeeds with the same value. -/
def OkImplies {ε α : Type} (x y : Except ε α) : Prop := ∀ a, x = .ok a → y = .ok a

namespace OkImplies

variable {ε α β : Type}

theorem refl (x : Except ε α) : OkImplies x x := fun _ h => h

theorem trans {x y z : Except ε α} (hxy : OkImplies x y) (hyz : OkImplies y z) : OkImplies x z :=
  fun a h => hyz a (hxy a h)

/-- A failing computation refines anything. -/
theorem error_left (e : ε) (y : Except ε α) : OkImplies (.error e) y := fun _ h => by cases h

theorem bind {x y : Except ε α} {f g : α → Except ε β} (hxy : OkImplies x y)
    (hfg : ∀ a, OkImplies (f a) (g a)) : OkImplies (x >>= f) (y >>= g) := by
  intro b h
  cases hx : x with
  | error e =>
    rw [hx] at h
    cases h
  | ok a =>
    rw [hx] at h
    rw [hxy a hx]
    exact hfg a b h

/-- The same first step, then continuations that refine one another. -/
theorem bind_right (x : Except ε α) {f g : α → Except ε β} (hfg : ∀ a, OkImplies (f a) (g a)) :
    OkImplies (x >>= f) (x >>= g) :=
  bind (refl x) hfg

/-- A guard failing on `c` refines one failing on `c'` when `c'` implies
`c`. -/
theorem ite_error {c c' : Prop} [Decidable c] [Decidable c'] {e e' : ε} {x y : Except ε α}
    (hc : c' → c) (hxy : OkImplies x y) :
    OkImplies (if c then .error e else x) (if c' then .error e' else y) := by
  by_cases hC : c
  · rw [if_pos hC]
    exact error_left e _
  · rw [if_neg hC, if_neg (fun hC' => hC (hc hC'))]
    exact hxy

theorem failIf_of_imp {c c' : Bool} {e e' : ε} (hc : c' = true → c = true) :
    OkImplies (Checks.failIf c e) (Checks.failIf c' e') := by
  unfold Checks.failIf
  exact ite_error hc (refl _)

theorem onlyIf_of_imp {c c' : Bool} {x y : Except ε Unit} (hc : c' = true → c = true)
    (hxy : c' = true → OkImplies x y) : OkImplies (Checks.onlyIf c x) (Checks.onlyIf c' y) := by
  intro u h
  cases u
  cases hC' : c'
  · simp [Checks.onlyIf]
  · rw [Checks.onlyIf, if_pos (hc hC')] at h
    rw [Checks.onlyIf, if_pos rfl]
    exact hxy hC' () h

/-- A computation with no result refines any success. -/
theorem ok_unit_right (x : Except ε Unit) : OkImplies x (.ok ()) := fun _ _ => rfl

end OkImplies

end FairCoin.Verified
