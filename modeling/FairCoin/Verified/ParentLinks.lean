import Mathlib.Logic.Function.Iterate
import Mathlib.Order.Basic

/-!
# Walks up parent links

A forest given by a partial parent function. `up parent k a` is the node `k`
links above `a`, and `up_add` composes walks, so a walk that mixes single
steps with longer jumps is read off the number of links it has gone up.

Under `Graded` (each node one above its parent, a node without a parent at
zero) that number is the drop in height (`height_up`), and every height
below a node is reached (`exists_up`). A walk reads the parent function only
at the nodes it passes (`up_congr`).
-/

namespace FairCoin.Verified.ParentLinks

variable {α : Type} (parent : α → Option α)

/-- The node `k` parent links above `a`, if the links go that far. -/
def up (k : Nat) (a : α) : Option α := (fun o => o.bind parent)^[k] (some a)

@[simp] theorem up_zero (a : α) : up parent 0 a = some a := rfl

theorem up_one (a : α) : up parent 1 a = parent a := rfl

theorem up_succ (k : Nat) (a : α) : up parent (k + 1) a = (up parent k a).bind parent :=
  Function.iterate_succ_apply' _ _ _

/-- An iterate of parent steps from any start, `none` included. -/
theorem iterate_bind (k : Nat) (o : Option α) :
    (fun o => o.bind parent)^[k] o = o.bind (up parent k) := by
  cases o with
  | none => exact Function.iterate_fixed rfl k
  | some a => rfl

theorem up_add (j k : Nat) (a : α) : up parent (j + k) a = (up parent j a).bind (up parent k) := by
  rw [up, Nat.add_comm, Function.iterate_add_apply]
  exact iterate_bind parent k _

variable {parent}

/-- One more step past the end of a walk. -/
theorem up_succ_of_up {k : Nat} {a b p : α} (hab : up parent k a = some b)
    (hp : parent b = some p) : up parent (k + 1) a = some p := by
  rw [up_succ, hab]
  exact hp

/-- A walk reads `parent` only at the nodes it passes. -/
theorem up_congr {parent' : α → Option α} (k : Nat) {a : α}
    (h : ∀ i b, up parent i a = some b → parent b = parent' b) :
    up parent k a = up parent' k a := by
  induction k with
  | zero => rfl
  | succ k ih =>
    rw [up_succ, up_succ, ← ih]
    cases hb : up parent k a with
    | none => rfl
    | some b => exact h k b hb

section Graded

variable (parent) (height : α → Nat)

/-- Each node sits one above its parent; a node without a parent is at zero. -/
structure Graded : Prop where
  succ : ∀ a p, parent a = some p → height p + 1 = height a
  root : ∀ a, parent a = none → height a = 0

variable {parent height} (hg : Graded parent height)
include hg

/-- A walk of `k` links drops the height by `k`. -/
theorem height_up {k : Nat} {a b : α} (h : up parent k a = some b) : height b + k = height a := by
  induction k generalizing b with
  | zero =>
    obtain rfl : a = b := Option.some.inj h
    rfl
  | succ k ih =>
    rw [up_succ] at h
    obtain ⟨c, hc, hcb⟩ := Option.bind_eq_some_iff.mp h
    have hStep := hg.succ c b hcb
    have hWalk := ih hc
    omega

/-- Every height at or below a node's is on its walk. -/
theorem exists_up {k : Nat} {a : α} (hk : k ≤ height a) : ∃ b, up parent k a = some b := by
  induction k with
  | zero => exact ⟨a, rfl⟩
  | succ k ih =>
    obtain ⟨b, hb⟩ := ih (by omega)
    have hh := height_up hg hb
    cases hp : parent b with
    | none =>
      have := hg.root b hp
      omega
    | some p => exact ⟨p, up_succ_of_up hb hp⟩

end Graded

end FairCoin.Verified.ParentLinks
