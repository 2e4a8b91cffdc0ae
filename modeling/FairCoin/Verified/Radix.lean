import Mathlib

/-!
# Base conversion into a fixed buffer

A number kept as a big-endian list of digits in base `base`, in a buffer of
fixed length, is multiplied by `mul` and a digit is added with one pass from
the last digit, each digit carrying into the next (`mulAddBE`). Feeding the
digits of a number in base `mul` in turn (`horner`) converts it, and the
carry out of each pass is zero while the buffer has room (`Fits`). A zero
buffer of `L * p / q + 1` digits, for `mul ^ q ≤ base ^ p`, has room for `L`
digits. Stripping the leading zeros of the buffer then gives `Nat.digits`.

## Main results

* `mulAdd_value` — one pass: the output value plus the weighted carry out is
  `carry + mul * value`.
* `Fits.mulAddBE_carry`, `Fits.mulAddBE` — with room for a digit, a pass
  carries nothing out and leaves room for one digit fewer.
* `valueBE_horner` — after `horner` the buffer holds the converted value.
* `fits_replicate_zero` — a zero buffer of `L * p / q + 1` digits has room
  for `L` digits.
* `dropWhile_zero_eq_digits` — the buffer without its leading zeros is the
  big-endian `Nat.digits` of its value.
-/

namespace FairCoin.Verified.Radix

/-- The value of a big-endian digit list. -/
def valueBE (base : Nat) (ds : List Nat) : Nat := Nat.ofDigits base ds.reverse

/-- One pass `buf = buf * mul + carry` over a little-endian buffer: each digit
becomes `(carry + mul * d) % base` and the quotient carries on. -/
def mulAdd (mul base : Nat) : Nat → List Nat → List Nat × Nat
  | carry, [] => ([], carry)
  | carry, d :: ds =>
    ((carry + mul * d) % base :: (mulAdd mul base ((carry + mul * d) / base) ds).1,
     (mulAdd mul base ((carry + mul * d) / base) ds).2)

/-- The pass over a big-endian buffer, from its last digit. -/
def mulAddBE (mul base : Nat) (buf : List Nat) (d : Nat) : List Nat × Nat :=
  ((mulAdd mul base d buf.reverse).1.reverse, (mulAdd mul base d buf.reverse).2)

/-- The buffer after one pass for each digit of `ds`, first digit first. -/
def horner (mul base : Nat) (buf ds : List Nat) : List Nat :=
  ds.foldl (fun b d => (mulAddBE mul base b d).1) buf

/-- The buffer's digits are below `base`, and it can take `k` more digits
below `mul` without overflowing. -/
structure Fits (mul base k : Nat) (buf : List Nat) : Prop where
  digit_lt : ∀ x ∈ buf, x < base
  bound : (valueBE base buf + 1) * mul ^ k ≤ base ^ buf.length

/-! ## Values of big-endian lists -/

section Value

variable {base : Nat}

@[simp] theorem valueBE_nil : valueBE base [] = 0 := rfl

theorem valueBE_append (xs ys : List Nat) :
    valueBE base (xs ++ ys) = valueBE base xs * base ^ ys.length + valueBE base ys := by
  rw [valueBE, valueBE, valueBE, List.reverse_append, Nat.ofDigits_append, List.length_reverse]
  ring

theorem valueBE_cons (d : Nat) (ds : List Nat) :
    valueBE base (d :: ds) = d * base ^ ds.length + valueBE base ds := by
  rw [← List.singleton_append, valueBE_append]
  simp [valueBE]

@[simp] theorem valueBE_replicate_zero (k : Nat) : valueBE base (List.replicate k 0) = 0 := by
  simp [valueBE]

@[simp] theorem valueBE_replicate_zero_append (k : Nat) (ds : List Nat) :
    valueBE base (List.replicate k 0 ++ ds) = valueBE base ds := by
  rw [valueBE_append]
  simp [valueBE]

@[simp] theorem valueBE_digits (n : Nat) : valueBE base (Nat.digits base n).reverse = n := by
  rw [valueBE, List.reverse_reverse, Nat.ofDigits_digits]

end Value

/-! ## Leading runs -/

section Leading

variable {α : Type _} (p : α → Bool)

theorem takeWhile_replicate_append {a : α} (ha : p a = true) (k : Nat) {xs : List α}
    (hxs : ∀ y ∈ xs.head?, p y = false) :
    (List.replicate k a ++ xs).takeWhile p = List.replicate k a := by
  induction k with
  | zero =>
    cases xs with
    | nil => rfl
    | cons y ys => simp [hxs y rfl]
  | succ k ih => rw [List.replicate_succ, List.cons_append, List.takeWhile_cons, if_pos ha, ih]

theorem dropWhile_replicate_append {a : α} (ha : p a = true) (k : Nat) {xs : List α}
    (hxs : ∀ y ∈ xs.head?, p y = false) :
    (List.replicate k a ++ xs).dropWhile p = xs := by
  induction k with
  | zero =>
    cases xs with
    | nil => rfl
    | cons y ys => simp [hxs y rfl]
  | succ k ih => rw [List.replicate_succ, List.cons_append, List.dropWhile_cons, if_pos ha, ih]

/-- A list is its leading run of `a`s followed by what is left. -/
theorem replicate_takeWhile_append {a : α} [DecidableEq α] (l : List α) :
    List.replicate (l.takeWhile (· == a)).length a ++ l.dropWhile (· == a) = l := by
  have hRun : l.takeWhile (· == a) = List.replicate (l.takeWhile (· == a)).length a := by
    rw [List.eq_replicate_iff]
    refine ⟨rfl, fun b hb => ?_⟩
    simpa using List.mem_takeWhile_imp hb
  rw [← hRun, List.takeWhile_append_dropWhile]

/-- What the leading run leaves starts with an element outside it. -/
theorem mem_head?_dropWhile (l : List α) : ∀ y ∈ (l.dropWhile p).head?, p y = false := by
  induction l with
  | nil => intro y hy; cases hy
  | cons a as ih =>
    rw [List.dropWhile_cons]
    split
    · exact ih
    · next ha =>
      intro y hy
      cases hy
      simpa using ha

/-- Mapping there and back is the identity where the second map undoes the
first. -/
theorem map_map_eq_self {β : Type _} {f : α → β} {g : β → α} {l : List α}
    (h : ∀ x ∈ l, g (f x) = x) : (l.map f).map g = l := by
  rw [List.map_map]
  conv_rhs => rw [← List.map_id l]
  exact List.map_congr_left h

theorem length_takeWhile_append_le (xs ys : List α) :
    ((xs ++ ys).takeWhile p).length ≤ (xs.takeWhile p).length + ys.length := by
  rw [List.takeWhile_append]
  split
  · next h =>
    simp only [List.length_append, h]
    exact Nat.add_le_add_left (List.takeWhile_sublist p).length_le _
  · exact Nat.le_add_right _ _

end Leading

/-! ## One pass -/

section Pass

variable {mul base : Nat}

@[simp] theorem length_mulAdd (carry : Nat) (ds : List Nat) :
    (mulAdd mul base carry ds).1.length = ds.length := by
  induction ds generalizing carry with
  | nil => rfl
  | cons d ds ih => simp [mulAdd, ih]

theorem mulAdd_lt (hb : 0 < base) (carry : Nat) (ds : List Nat) :
    ∀ x ∈ (mulAdd mul base carry ds).1, x < base := by
  induction ds generalizing carry with
  | nil => simp [mulAdd]
  | cons d ds ih =>
    intro x hx
    rcases List.mem_cons.1 hx with rfl | hMem
    · exact Nat.mod_lt _ hb
    · exact ih _ x hMem

/-- The pass computes `carry + mul * value`: the digits hold it modulo
`base ^ length`, the carry out the rest. -/
theorem mulAdd_value (carry : Nat) (ds : List Nat) :
    Nat.ofDigits base (mulAdd mul base carry ds).1 +
        base ^ ds.length * (mulAdd mul base carry ds).2 =
      carry + mul * Nat.ofDigits base ds := by
  induction ds generalizing carry with
  | nil => simp [mulAdd]
  | cons d ds ih =>
    have hStep := ih ((carry + mul * d) / base)
    have hDiv := Nat.mod_add_div (carry + mul * d) base
    simp only [mulAdd, Nat.ofDigits_cons, List.length_cons, pow_succ]
    generalize Nat.ofDigits base (mulAdd mul base ((carry + mul * d) / base) ds).1 = low at hStep
    generalize (mulAdd mul base ((carry + mul * d) / base) ds).2 = high at hStep
    calc (carry + mul * d) % base + base * low + base ^ ds.length * base * high
        = (carry + mul * d) % base + base * (low + base ^ ds.length * high) := by ring
      _ = (carry + mul * d) % base + base * ((carry + mul * d) / base) +
            base * (mul * Nat.ofDigits base ds) := by rw [hStep]; ring
      _ = carry + mul * (d + base * Nat.ofDigits base ds) := by rw [hDiv]; ring

@[simp] theorem length_mulAddBE (buf : List Nat) (d : Nat) :
    (mulAddBE mul base buf d).1.length = buf.length := by
  simp [mulAddBE]

theorem mulAddBE_lt (hb : 0 < base) (buf : List Nat) (d : Nat) :
    ∀ x ∈ (mulAddBE mul base buf d).1, x < base := by
  intro x hx
  exact mulAdd_lt hb d buf.reverse x (List.mem_reverse.1 hx)

theorem valueBE_mulAddBE (buf : List Nat) (d : Nat) :
    valueBE base (mulAddBE mul base buf d).1 + base ^ buf.length * (mulAddBE mul base buf d).2 =
      valueBE base buf * mul + d := by
  have h := @mulAdd_value mul base d buf.reverse
  rw [List.length_reverse] at h
  rw [valueBE, mulAddBE, List.reverse_reverse, h, valueBE]
  ring

end Pass

/-! ## Room in the buffer -/

section Room

variable {mul base k : Nat} {buf : List Nat} {d : Nat}

/-- With room for a digit the value after the pass stays below `base ^ length`. -/
theorem Fits.value_mul_add_lt (h : Fits mul base (k + 1) buf) (hd : d < mul) :
    valueBE base buf * mul + d < base ^ buf.length := by
  have hPow : mul ≤ mul ^ (k + 1) := Nat.le_self_pow (Nat.succ_ne_zero k) mul
  calc valueBE base buf * mul + d
      < (valueBE base buf + 1) * mul := by rw [Nat.add_mul, Nat.one_mul]; omega
    _ ≤ (valueBE base buf + 1) * mul ^ (k + 1) := Nat.mul_le_mul_left _ hPow
    _ ≤ base ^ buf.length := h.bound

theorem Fits.mulAddBE_carry (hb : 1 < base) (h : Fits mul base (k + 1) buf) (hd : d < mul) :
    (mulAddBE mul base buf d).2 = 0 := by
  have hValue := @valueBE_mulAddBE mul base buf d
  have hLt := h.value_mul_add_lt hd
  have hPos : 0 < base ^ buf.length := Nat.pow_pos (by omega)
  by_contra hCarry
  have : base ^ buf.length ≤ base ^ buf.length * (mulAddBE mul base buf d).2 :=
    Nat.le_mul_of_pos_right _ (Nat.pos_of_ne_zero hCarry)
  omega

theorem Fits.value_mulAddBE (hb : 1 < base) (h : Fits mul base (k + 1) buf) (hd : d < mul) :
    valueBE base (mulAddBE mul base buf d).1 = valueBE base buf * mul + d := by
  have hValue := @valueBE_mulAddBE mul base buf d
  rw [h.mulAddBE_carry hb hd, Nat.mul_zero, Nat.add_zero] at hValue
  exact hValue

theorem Fits.mulAddBE (hb : 1 < base) (h : Fits mul base (k + 1) buf) (hd : d < mul) :
    Fits mul base k (mulAddBE mul base buf d).1 := by
  refine ⟨mulAddBE_lt (by omega) buf d, ?_⟩
  rw [h.value_mulAddBE hb hd, length_mulAddBE]
  calc (valueBE base buf * mul + d + 1) * mul ^ k
      ≤ (valueBE base buf + 1) * mul * mul ^ k := by
        apply Nat.mul_le_mul_right
        rw [Nat.add_mul, Nat.one_mul]
        omega
    _ = (valueBE base buf + 1) * mul ^ (k + 1) := by ring
    _ ≤ base ^ buf.length := h.bound

end Room

/-! ## Converting a digit list -/

section Horner

variable {mul base : Nat}

@[simp] theorem horner_nil (buf : List Nat) : horner mul base buf [] = buf := rfl

theorem horner_cons (buf : List Nat) (d : Nat) (ds : List Nat) :
    horner mul base buf (d :: ds) = horner mul base (mulAddBE mul base buf d).1 ds := rfl

@[simp] theorem length_horner (buf ds : List Nat) :
    (horner mul base buf ds).length = buf.length := by
  induction ds generalizing buf with
  | nil => rfl
  | cons d ds ih => rw [horner_cons, ih, length_mulAddBE]

theorem Fits.horner (hb : 1 < base) {k : Nat} {ds : List Nat} (hds : ∀ d ∈ ds, d < mul) :
    ∀ {buf : List Nat}, Fits mul base (k + ds.length) buf →
      Fits mul base k (horner mul base buf ds) := by
  induction ds with
  | nil => exact fun h => h
  | cons d ds ih =>
    intro buf h
    rw [horner_cons]
    exact ih (fun x hx => hds x (List.mem_cons_of_mem d hx))
      (Fits.mulAddBE hb (by simpa [Nat.add_assoc] using h) (hds d List.mem_cons_self))

/-- The buffer after `horner` holds the old value shifted by the digits, plus
their value. -/
theorem valueBE_horner (hb : 1 < base) {k : Nat} {ds : List Nat} (hds : ∀ d ∈ ds, d < mul) :
    ∀ {buf : List Nat}, Fits mul base (k + ds.length) buf →
      valueBE base (horner mul base buf ds) =
        valueBE base buf * mul ^ ds.length + valueBE mul ds := by
  induction ds with
  | nil => intro buf _; simp
  | cons d ds ih =>
    intro buf h
    have hFits : Fits mul base (k + ds.length + 1) buf := by simpa [Nat.add_assoc] using h
    rw [horner_cons, ih (fun x hx => hds x (List.mem_cons_of_mem d hx))
      (hFits.mulAddBE hb (hds d List.mem_cons_self)), hFits.value_mulAddBE hb
      (hds d List.mem_cons_self), valueBE_cons, List.length_cons]
    ring

/-- If `mul ^ q ≤ base ^ p`, a number of `L` digits in base `mul` has at most
`L * p / q + 1` digits in base `base`. -/
theorem pow_le_pow_div_add_one {p q : Nat} (hRatio : mul ^ q ≤ base ^ p) (hq : 0 < q)
    (hb : 0 < base) (L : Nat) : mul ^ L ≤ base ^ (L * p / q + 1) := by
  have hLt : L * p < (L * p / q + 1) * q := by
    rw [Nat.add_mul, Nat.one_mul]
    exact Nat.lt_div_mul_add hq
  rw [← Nat.pow_le_pow_iff_left hq.ne']
  calc (mul ^ L) ^ q = (mul ^ q) ^ L := by rw [← pow_mul, ← pow_mul, Nat.mul_comm]
    _ ≤ (base ^ p) ^ L := Nat.pow_le_pow_left hRatio L
    _ = base ^ (L * p) := by rw [← pow_mul, Nat.mul_comm]
    _ ≤ base ^ ((L * p / q + 1) * q) := Nat.pow_le_pow_right hb hLt.le
    _ = (base ^ (L * p / q + 1)) ^ q := by rw [pow_mul]

/-- A zero buffer sized `L * p / q + 1` has room for `k ≤ L` digits. -/
theorem fits_replicate_zero {p q k L : Nat} (hRatio : mul ^ q ≤ base ^ p) (hq : 0 < q)
    (hmul : 0 < mul) (hb : 0 < base) (hk : k ≤ L) :
    Fits mul base k (List.replicate (L * p / q + 1) 0) := by
  refine ⟨fun x hx => by rw [List.eq_of_mem_replicate hx]; exact hb, ?_⟩
  rw [valueBE, List.reverse_replicate, Nat.ofDigits_replicate_zero, Nat.zero_add, Nat.one_mul,
    List.length_replicate]
  exact (Nat.pow_le_pow_right hmul hk).trans (pow_le_pow_div_add_one hRatio hq hb L)

end Horner

/-! ## Leading zeros -/

/-- The buffer without its leading zeros is the big-endian `Nat.digits` of
its value. -/
theorem dropWhile_zero_eq_digits {base : Nat} (hb : 1 < base) {buf : List Nat}
    (h : ∀ x ∈ buf, x < base) :
    buf.dropWhile (· == 0) = (Nat.digits base (valueBE base buf)).reverse := by
  have hSplit := replicate_takeWhile_append (a := 0) buf
  have hValue : valueBE base buf = valueBE base (buf.dropWhile (· == 0)) := by
    conv_lhs => rw [← hSplit]
    rw [valueBE_replicate_zero_append]
  have hLast : ∀ (hne : (buf.dropWhile (· == 0)).reverse ≠ []),
      (buf.dropWhile (· == 0)).reverse.getLast hne ≠ 0 := by
    intro hne
    rw [List.getLast_reverse]
    simpa using List.head_dropWhile_not (· == 0) (List.reverse_ne_nil_iff.1 hne)
  rw [hValue, valueBE, Nat.digits_ofDigits base hb _
    (fun x hx => h x ((List.dropWhile_sublist _).subset (List.mem_reverse.1 hx))) hLast,
    List.reverse_reverse]

/-- The first of the big-endian `Nat.digits` is not zero. -/
theorem ne_zero_of_mem_head?_digits {base n d : Nat}
    (h : d ∈ (Nat.digits base n).reverse.head?) : d ≠ 0 := by
  rw [List.head?_reverse] at h
  obtain ⟨hne, rfl⟩ := List.mem_getLast?_eq_getLast h
  exact Nat.getLast_digit_ne_zero base (fun hn => hne (by simp [hn]))

/-- A list without leading zeros is the big-endian `Nat.digits` of its value. -/
theorem eq_digits_of_head? {base : Nat} (hb : 1 < base) {ds : List Nat}
    (h : ∀ x ∈ ds, x < base) (hHead : ∀ d ∈ ds.head?, d ≠ 0) :
    ds = (Nat.digits base (valueBE base ds)).reverse := by
  rw [← dropWhile_zero_eq_digits hb h]
  cases ds with
  | nil => rfl
  | cons d ds => simp [hHead d rfl]

end FairCoin.Verified.Radix
