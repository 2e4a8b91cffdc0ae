import Mathlib

/-!
# Sums of selected values, and signed 64-bit sums in range

A list of flags selects values of a list (`selectedSum`: the sum of the
values whose flag is set). Setting a clear flag adds its value, clearing a set
flag takes it away, and for non-negative values a selected sum lies between
zero and the whole sum.

`Int64` addition wraps: its integer value is the exact sum reduced by
`Int.bmod (2 ^ 64)`. While the exact result stays in `[-2 ^ 63, 2 ^ 63)`
nothing wraps (`toInt_add_of_bounds`).

## Main results

* `selectedSum_set_true`, `selectedSum_set_false` — flipping one flag.
* `selectedSum_nonneg`, `selectedSum_le_sum` — bounds for non-negative values.
* `selectedSum_map` — the selected sum is the sum over the selected elements,
  which form a sublist (`zip_filter_map_fst_sublist`).
* `toInt_add_of_bounds`, `toInt_sub_of_bounds` — `Int64` arithmetic against
  the integers.
-/

namespace FairCoin.Verified.SelectedSum

/-! ## Selected sums -/

section Selected

variable {α : Type _} [AddCommGroup α]

/-- The sum of the values whose flag is set; values without a flag count as
unselected. -/
def selectedSum : List α → List Bool → α
  | x :: xs, b :: bs => (if b then x else 0) + selectedSum xs bs
  | _, _ => 0

@[simp] theorem selectedSum_nil (mask : List Bool) : selectedSum ([] : List α) mask = 0 := rfl

@[simp] theorem selectedSum_cons (x : α) (xs : List α) (b : Bool) (bs : List Bool) :
    selectedSum (x :: xs) (b :: bs) = (if b then x else 0) + selectedSum xs bs := rfl

@[simp] theorem selectedSum_replicate_false (xs : List α) (n : Nat) :
    selectedSum xs (List.replicate n false) = 0 := by
  induction xs generalizing n with
  | nil => rfl
  | cons x xs ih =>
    cases n with
    | zero => rfl
    | succ n => simp [List.replicate_succ, ih]

theorem selectedSum_replicate_true (xs : List α) :
    selectedSum xs (List.replicate xs.length true) = xs.sum := by
  induction xs with
  | nil => rfl
  | cons x xs ih => simp [List.replicate_succ, ih]

/-- Setting the clear flag `i` adds the value `i`. -/
theorem selectedSum_set_true {xs : List α} {mask : List Bool} {i : Nat} (hi : i < xs.length)
    (hOff : mask[i]? = some false) :
    selectedSum xs (mask.set i true) = selectedSum xs mask + xs[i] := by
  induction xs generalizing mask i with
  | nil => simp at hi
  | cons x xs ih =>
    cases mask with
    | nil => simp at hOff
    | cons b bs =>
      cases i with
      | zero =>
        simp only [List.getElem?_cons_zero, Option.some.injEq] at hOff
        subst hOff
        simp only [List.set_cons_zero, selectedSum_cons, if_true, List.getElem_cons_zero]
        simp only [Bool.false_eq_true, if_false]
        abel
      | succ i =>
        simp only [List.set_cons_succ, selectedSum_cons, List.getElem_cons_succ]
        rw [ih (by simpa using hi) (by simpa using hOff), add_assoc]

/-- Clearing the set flag `i` takes the value `i` away. -/
theorem selectedSum_set_false {xs : List α} {mask : List Bool} {i : Nat} (hi : i < xs.length)
    (hOn : mask[i]? = some true) :
    selectedSum xs (mask.set i false) = selectedSum xs mask - xs[i] := by
  induction xs generalizing mask i with
  | nil => simp at hi
  | cons x xs ih =>
    cases mask with
    | nil => simp at hOn
    | cons b bs =>
      cases i with
      | zero =>
        simp only [List.getElem?_cons_zero, Option.some.injEq] at hOn
        subst hOn
        simp only [List.set_cons_zero, selectedSum_cons, Bool.false_eq_true, if_false, if_true,
          List.getElem_cons_zero]
        abel
      | succ i =>
        simp only [List.set_cons_succ, selectedSum_cons, List.getElem_cons_succ]
        rw [ih (by simpa using hi) (by simpa using hOn), add_sub_assoc]

/-- The selected sum of a list of values is the sum over the selected
elements. -/
theorem selectedSum_map {β : Type _} (f : β → α) (ys : List β) (mask : List Bool) :
    selectedSum (ys.map f) mask = (((ys.zip mask).filter (·.2)).map (f ∘ Prod.fst)).sum := by
  induction ys generalizing mask with
  | nil => rfl
  | cons y ys ih =>
    cases mask with
    | nil => simp [selectedSum]
    | cons b bs =>
      cases b <;> simp [ih]

/-- The selected elements keep their order: they form a sublist. -/
theorem zip_filter_map_fst_sublist {β : Type _} (ys : List β) (mask : List Bool) :
    List.Sublist (((ys.zip mask).filter (·.2)).map Prod.fst) ys := by
  induction ys generalizing mask with
  | nil => simp
  | cons y ys ih =>
    cases mask with
    | nil => simp
    | cons b bs =>
      cases b
      · simpa using (ih bs).cons y
      · simpa using (ih bs).cons_cons y

end Selected

section Bounds

variable {α : Type _} [AddCommGroup α] [PartialOrder α] [IsOrderedAddMonoid α]

theorem selectedSum_nonneg {xs : List α} (h : ∀ x ∈ xs, 0 ≤ x) (mask : List Bool) :
    0 ≤ selectedSum xs mask := by
  induction xs generalizing mask with
  | nil => exact le_rfl
  | cons x xs ih =>
    cases mask with
    | nil => exact le_rfl
    | cons b bs =>
      have hx : 0 ≤ (if b then x else 0) := by
        split
        · exact h x List.mem_cons_self
        · exact le_rfl
      exact add_nonneg hx (ih (fun y hy => h y (List.mem_cons_of_mem x hy)) bs)

theorem selectedSum_le_sum {xs : List α} (h : ∀ x ∈ xs, 0 ≤ x) (mask : List Bool) :
    selectedSum xs mask ≤ xs.sum := by
  induction xs generalizing mask with
  | nil => exact le_rfl
  | cons x xs ih =>
    have hRest : ∀ y ∈ xs, 0 ≤ y := fun y hy => h y (List.mem_cons_of_mem x hy)
    cases mask with
    | nil => exact List.sum_nonneg (fun y hy => h y hy)
    | cons b bs =>
      have hx : (if b then x else 0) ≤ x := by
        split
        · exact le_rfl
        · exact h x List.mem_cons_self
      rw [selectedSum_cons, List.sum_cons]
      exact add_le_add hx (ih hRest bs)

end Bounds

/-! ## Signed 64-bit sums -/

section Int64

/-- An integer in `[-2 ^ 63, 2 ^ 63)` is its own balanced residue. -/
theorem bmod_of_bounds {x : Int} (h1 : -2 ^ 63 ≤ x) (h2 : x < 2 ^ 63) : x.bmod (2 ^ 64) = x :=
  Int.bmod_eq_of_le (by norm_num; omega) (by norm_num; omega)

theorem toInt_add_of_bounds {a b : Int64} (h1 : -2 ^ 63 ≤ a.toInt + b.toInt)
    (h2 : a.toInt + b.toInt < 2 ^ 63) : (a + b).toInt = a.toInt + b.toInt := by
  rw [Int64.toInt_add, bmod_of_bounds h1 h2]

theorem toInt_sub_of_bounds {a b : Int64} (h1 : -2 ^ 63 ≤ a.toInt - b.toInt)
    (h2 : a.toInt - b.toInt < 2 ^ 63) : (a - b).toInt = a.toInt - b.toInt := by
  rw [Int64.toInt_sub, bmod_of_bounds h1 h2]

theorem toInt_lt_of_ne_of_not_lt {a b : Int64} (hNe : a ≠ b) (hNotLt : ¬ a < b) :
    b.toInt < a.toInt := by
  have h1 : a.toInt ≠ b.toInt := fun hEq => hNe (Int64.toInt_inj.1 hEq)
  have h2 := mt Int64.lt_iff_toInt_lt.2 hNotLt
  omega

theorem toInt_bmod_self (a : Int64) : a.toInt.bmod (2 ^ 64) = a.toInt :=
  bmod_of_bounds (Int64.le_toInt a) (Int64.toInt_lt a)

end Int64

end FairCoin.Verified.SelectedSum
