import Mathlib

/-!
# Rounding to single precision

A finite binary32 number other than zero is `m * 2 ^ u` with `m < 2 ^ 24`, and
an operation on binary32 numbers returns its exact result rounded to the
nearest such number, ties to the even `m`. The numbers here are their exact
values in `ℚ`, and an operation is the rounding `roundF32` of the exact
result: `roundF32 q` finds the exponent `e` of the leading bit of `q`
(`leadExp`) and rounds `q / 2 ^ (e - 23)` to an integer, half to even
(`roundDiv`).

Below the exponent range the spacing of binary32 numbers stops shrinking, and
above it the result is infinite; `roundF32` leaves out both ends, so it is
binary32 rounding for results of magnitude between `2 ^ -126` and `2 ^ 128`.

## Main results

* `abs_roundF32_sub_le` — one rounding moves a non-negative value `q` by at
  most `q / 2 ^ 24`.
* `roundF32_natCast` — integers below `2 ^ 24` are exact.
-/

namespace FairCoin.Verified.Binary32

/-- `n / d` rounded to an integer, half to even. -/
def roundDiv (n d : Nat) : Nat :=
  if d < 2 * (n % d) ∨ (2 * (n % d) = d ∧ n / d % 2 = 1) then n / d + 1 else n / d

/-- The exponent `e` of the leading bit of `a / b`, with `2 ^ e ≤ a / b`,
from the leading bits of `a` and `b`. -/
def leadExp (a b : Nat) : Int :=
  if b * 2 ^ a.log2 ≤ a * 2 ^ b.log2 then (a.log2 : Int) - b.log2
  else (a.log2 : Int) - b.log2 - 1

/-- `a / b` rounded to 24 significant bits, half to even. -/
def roundDivF32 (a b : Nat) : ℚ :=
  if a = 0 ∨ b = 0 then 0
  else
    let u := leadExp a b - 23
    if 0 ≤ u then (roundDiv a (b * 2 ^ u.toNat) : ℚ) * 2 ^ u.toNat
    else (roundDiv (a * 2 ^ (-u).toNat) b : ℚ) / 2 ^ (-u).toNat

/-- A non-negative rational rounded to single precision. -/
def roundF32 (q : ℚ) : ℚ := roundDivF32 q.num.toNat q.den

/-! ## Rounding a quotient to an integer -/

/-- Half to even is within half a unit of the quotient:
`|2 * roundDiv n d * d - 2 * n| ≤ d`. -/
theorem roundDiv_half (n d : Nat) (hd : 0 < d) :
    d * (2 * roundDiv n d) ≤ 2 * n + d ∧ 2 * n ≤ d * (2 * roundDiv n d) + d := by
  have hSplit := Nat.div_add_mod n d
  have hRem := Nat.mod_lt n hd
  unfold roundDiv
  generalize n / d = q at *
  generalize n % d = r at *
  have hTwice : d * (2 * q) = 2 * (d * q) := by ring
  split
  · have hNext : d * (2 * (q + 1)) = 2 * (d * q) + 2 * d := by ring
    omega
  · omega

theorem abs_roundDiv_sub_le (n d : Nat) (hd : 0 < d) :
    |(roundDiv n d : ℚ) - n / d| ≤ 1 / 2 := by
  obtain ⟨hUp, hDown⟩ := roundDiv_half n d hd
  have hdq : (0 : ℚ) < d := by exact_mod_cast hd
  have hUp' : (d : ℚ) * (2 * roundDiv n d) ≤ 2 * n + d := by exact_mod_cast hUp
  have hDown' : 2 * (n : ℚ) ≤ d * (2 * roundDiv n d) + d := by exact_mod_cast hDown
  have hScale : (roundDiv n d : ℚ) - n / d = ((d : ℚ) * roundDiv n d - n) / d := by
    field_simp
  rw [hScale, abs_div, abs_of_pos hdq, div_le_iff₀ hdq, abs_le]
  constructor <;> linarith

@[simp] theorem roundDiv_one (n : Nat) : roundDiv n 1 = n := by
  simp [roundDiv, Nat.mod_one]

/-! ## The leading bit -/

theorem two_zpow_leadExp_le {a b : Nat} (ha : 0 < a) (hb : 0 < b) :
    (2 : ℚ) ^ leadExp a b ≤ a / b := by
  have hbq : (0 : ℚ) < b := by exact_mod_cast hb
  have hPowB : (0 : ℚ) < 2 ^ b.log2 := by positivity
  unfold leadExp
  split
  · next hLe =>
    rw [zpow_sub₀ (by norm_num), zpow_natCast, zpow_natCast, div_le_div_iff₀ hPowB hbq]
    exact_mod_cast (by rw [Nat.mul_comm _ b]; exact hLe : 2 ^ a.log2 * b ≤ a * 2 ^ b.log2)
  · -- `a` is at least its leading bit, `b` below twice its own.
    have hA : 2 ^ a.log2 ≤ a := Nat.log2_self_le (Nat.pos_iff_ne_zero.1 ha)
    have hB : b < 2 ^ (b.log2 + 1) := Nat.lt_log2_self
    have hCross : 2 ^ a.log2 * b ≤ a * (2 ^ b.log2 * 2) := by
      rw [← Nat.pow_succ]
      exact Nat.mul_le_mul hA hB.le
    have hPow : (2 : ℚ) ^ ((a.log2 : Int) - b.log2 - 1) = 2 ^ a.log2 / (2 ^ b.log2 * 2) := by
      rw [zpow_sub₀ (by norm_num), zpow_sub₀ (by norm_num), zpow_natCast, zpow_natCast,
        zpow_one, div_div]
    rw [hPow, div_le_div_iff₀ (by positivity) hbq]
    exact_mod_cast hCross

/-! ## One rounding -/

/-- Rounding `a / b` to 24 significant bits moves it by at most
`a / b / 2 ^ 24`: the unit is `2 ^ (e - 23)` for the leading bit `2 ^ e`,
and the rounding half a unit. -/
theorem abs_roundDivF32_sub_le (a b : Nat) (hb : 0 < b) :
    |roundDivF32 a b - a / b| ≤ (a / b : ℚ) / 2 ^ 24 := by
  rcases Nat.eq_zero_or_pos a with rfl | ha
  · simp [roundDivF32]
  have hbq : (0 : ℚ) < b := by exact_mod_cast hb
  have hLead := two_zpow_leadExp_le ha hb
  have hUnit : (2 : ℚ) ^ (leadExp a b - 23) = 2 ^ leadExp a b / 2 ^ 23 := by
    rw [zpow_sub₀ (by norm_num)]
    rfl
  unfold roundDivF32
  rw [if_neg (by omega)]
  dsimp only
  split
  · next hu =>
    -- The unit `N` is a whole number: the quotient by `b * N` is rounded.
    set N : Nat := 2 ^ (leadExp a b - 23).toNat with hN
    have hNq : (N : ℚ) = 2 ^ (leadExp a b - 23) := by
      rw [hN, Nat.cast_pow, Nat.cast_ofNat, ← zpow_natCast, Int.toNat_of_nonneg hu]
    have hNpos : (0 : ℚ) < N := by rw [hNq]; positivity
    have hRound := abs_roundDiv_sub_le a (b * N) (Nat.mul_pos hb (Nat.two_pow_pos _))
    have hScale : (roundDiv a (b * N) : ℚ) * 2 ^ (leadExp a b - 23).toNat - a / b =
        N * ((roundDiv a (b * N) : ℚ) - (a : ℚ) / (b * N : Nat)) := by
      rw [hN]
      push_cast
      field_simp
    rw [hScale, abs_mul, abs_of_pos hNpos]
    calc (N : ℚ) * |(roundDiv a (b * N) : ℚ) - (a : ℚ) / (b * N : Nat)|
        ≤ N * (1 / 2) := mul_le_mul_of_nonneg_left hRound hNpos.le
      _ = 2 ^ leadExp a b / 2 ^ 24 := by rw [hNq, hUnit]; ring
      _ ≤ (a / b : ℚ) / 2 ^ 24 := by gcongr
  · next hu =>
    -- The unit is `1 / M`: the quotient of `a * M` by `b` is rounded.
    set M : Nat := 2 ^ (-(leadExp a b - 23)).toNat with hM
    have hMq : (M : ℚ) = 2 ^ (-(leadExp a b - 23)) := by
      rw [hM, Nat.cast_pow, Nat.cast_ofNat, ← zpow_natCast, Int.toNat_of_nonneg (by omega)]
    have hMpos : (0 : ℚ) < M := by rw [hMq]; positivity
    have hRound := abs_roundDiv_sub_le (a * M) b hb
    have hScale : (roundDiv (a * M) b : ℚ) / 2 ^ (-(leadExp a b - 23)).toNat - a / b =
        ((roundDiv (a * M) b : ℚ) - (a * M : Nat) / b) / M := by
      rw [hM]
      push_cast
      field_simp
    rw [hScale, abs_div, abs_of_pos hMpos, div_le_iff₀ hMpos]
    calc |(roundDiv (a * M) b : ℚ) - (a * M : Nat) / b|
        ≤ 1 / 2 := hRound
      _ = 2 ^ leadExp a b / 2 ^ 24 * M := by
        rw [hMq, zpow_neg, hUnit]
        field_simp
      _ ≤ (a / b : ℚ) / 2 ^ 24 * M := by gcongr

/-- One rounding of a non-negative rational moves it by at most
`q / 2 ^ 24`. -/
theorem abs_roundF32_sub_le {q : ℚ} (hq : 0 ≤ q) : |roundF32 q - q| ≤ q / 2 ^ 24 := by
  have hNum : ((q.num.toNat : Nat) : ℚ) = q.num := by
    have hInt : (q.num.toNat : Int) = q.num := Int.toNat_of_nonneg (Rat.num_nonneg.2 hq)
    exact_mod_cast hInt
  have hq' : q = (q.num.toNat : Nat) / (q.den : ℚ) := by
    rw [hNum, Rat.num_div_den]
  have hBound := abs_roundDivF32_sub_le q.num.toNat q.den q.den_pos
  rw [← hq'] at hBound
  exact hBound

/-- Integers below `2 ^ 24` are single-precision numbers. -/
theorem roundF32_natCast {n : Nat} (hn : n < 2 ^ 24) : roundF32 n = n := by
  rcases Nat.eq_zero_or_pos n with rfl | hPos
  · simp [roundF32, roundDivF32]
  have hLog : n.log2 < 24 := (Nat.log2_lt (Nat.pos_iff_ne_zero.1 hPos)).2 hn
  have hLead : leadExp n 1 = n.log2 := by
    have hSelf : 2 ^ n.log2 ≤ n := Nat.log2_self_le (Nat.pos_iff_ne_zero.1 hPos)
    have hOne : Nat.log2 1 = 0 := by decide
    simp [leadExp, hSelf, hOne]
  simp only [roundF32, Rat.num_natCast, Int.toNat_natCast, Rat.den_natCast, roundDivF32,
    hLead]
  rw [if_neg (by omega)]
  by_cases hTop : n.log2 = 23
  · have hu : (0 : Int) ≤ (n.log2 : Int) - 23 := by omega
    have hZero : ((n.log2 : Int) - 23).toNat = 0 := by omega
    simp [hZero]
  · have hu : ¬ (0 : Int) ≤ (n.log2 : Int) - 23 := by omega
    simp only [hu, if_false, Nat.one_mul, roundDiv_one]
    push_cast
    field_simp

end FairCoin.Verified.Binary32
