import FairCoin.Ports.Primitives

/-!
# The amount compressor

`CTxOutCompressor` stores an output's value as a code: a zero amount is `0`;
otherwise up to nine trailing decimal zeros are stripped and counted (`e`),
and below nine the last remaining digit `d` (not zero) is stored apart, so
that the code `1 + 10 * (9 * n + d - 1) + e` packs the rest `n`, the digit
and the exponent; nine stripped zeros leave only `n ≥ 1`, stored as
`1 + 10 * (n - 1) + 9`. Both directions compute in `uint64_t`.

The loops of the code are bounded: `CompressAmount` strips at most nine
zeros (`stripZeros`, with fuel nine), and `DecompressAmount` multiplies by
ten `e` times (`timesTen`).

## Main results

* `decompressAmount_compressAmount` — the code of an amount in
  `[0, MAX_MONEY]` decodes to it, and a code whose decoding does not exceed
  64 bits is the code of what it decodes to.
-/

namespace FairCoin.Ports.Compressor

open FairCoin.Ports.Primitives

/-! ## The two directions -/

/-- The loop of `CompressAmount`: while the number ends in a zero and fewer
than nine have been stripped, strip one; the fuel is the number still
allowed. -/
def stripZeros : Nat → UInt64 → Nat → UInt64 × Nat
  | 0, n, e => (n, e)
  | k + 1, n, e => if n % 10 = 0 then stripZeros k (n / 10) (e + 1) else (n, e)

/-- `CTxOutCompressor::CompressAmount`. -/
def CompressAmount (n : UInt64) : UInt64 :=
  if n = 0 then 0
  else
    let (n, e) := stripZeros 9 n 0
    if e < 9 then
      let d := n % 10
      let n := n / 10
      1 + (n * 9 + d - 1) * 10 + e.toUInt64
    else 1 + (n - 1) * 10 + 9

/-- The loop `while (e) { n *= 10; e--; }`. -/
def timesTen : Nat → UInt64 → UInt64
  | 0, n => n
  | e + 1, n => timesTen e (n * 10)

/-- The mantissa `DecompressAmount` reads from a code less one: below
exponent nine the digit and the rest, at nine the rest plus one. -/
def decodeMantissa (x : UInt64) : UInt64 :=
  let e := x % 10
  let x := x / 10
  if e < 9 then
    let d := x % 9 + 1
    let x := x / 9
    x * 10 + d
  else x + 1

/-- `CTxOutCompressor::DecompressAmount`. -/
def DecompressAmount (x : UInt64) : UInt64 :=
  if x = 0 then 0
  else timesTen ((x - 1) % 10).toNat (decodeMantissa (x - 1))

/-- The multiplications of `DecompressAmount x` stay below `2^64`. -/
def DecompressFits (x : UInt64) : Prop :=
  x = 0 ∨ (decodeMantissa (x - 1)).toNat * 10 ^ ((x - 1) % 10).toNat < 2 ^ 64

/-! ## The loops on `Nat` -/

/-- What `stripZeros` leaves: a number that times a power of ten is the one
it started from, the count of zeros stripped, and a last digit that is not
zero unless the fuel ran out. -/
theorem stripZeros_spec (k : Nat) (n : UInt64) (e : Nat) :
    (stripZeros k n e).1.toNat * 10 ^ ((stripZeros k n e).2 - e) = n.toNat ∧
    e ≤ (stripZeros k n e).2 ∧ (stripZeros k n e).2 ≤ e + k ∧
    ((stripZeros k n e).2 < e + k → (stripZeros k n e).1.toNat % 10 ≠ 0) := by
  induction k generalizing n e with
  | zero => simp [stripZeros]
  | succ k ih =>
    by_cases hZero : n % 10 = 0
    · have hDiv : n.toNat % 10 = 0 := by
        simpa [UInt64.toNat_mod] using congrArg UInt64.toNat hZero
      obtain ⟨hVal, hLe, hGe, hDigit⟩ := ih (n / 10) (e + 1)
      rw [stripZeros, if_pos hZero]
      refine ⟨?_, by omega, by omega, fun h => hDigit (by omega)⟩
      have hExp : (stripZeros k (n / 10) (e + 1)).2 - e =
          (stripZeros k (n / 10) (e + 1)).2 - (e + 1) + 1 := by omega
      rw [hExp, Nat.pow_succ, ← Nat.mul_assoc, hVal, UInt64.toNat_div]
      show n.toNat / 10 * 10 = n.toNat
      omega
    · have hDigit : n.toNat % 10 ≠ 0 := by
        intro h
        apply hZero
        rw [UInt64.ext_iff, UInt64.toNat_mod]
        simpa using h
      rw [stripZeros, if_neg hZero]
      simp [hDigit]

theorem timesTen_toNat (e : Nat) (n : UInt64) :
    (timesTen e n).toNat = n.toNat * 10 ^ e % 2 ^ 64 := by
  induction e generalizing n with
  | zero =>
    rw [timesTen, Nat.pow_zero, Nat.mul_one, Nat.mod_eq_of_lt n.toNat_lt]
  | succ e ih =>
    rw [timesTen, ih, UInt64.toNat_mul, Nat.pow_succ]
    show n.toNat * 10 % 2 ^ 64 * 10 ^ e % 2 ^ 64 = n.toNat * (10 ^ e * 10) % 2 ^ 64
    rw [Nat.mod_mul_mod, Nat.mul_assoc, Nat.mul_comm 10]

/-- The mantissa a code less one stands for; it is computed without
overflow. -/
theorem decodeMantissa_toNat (x : UInt64) :
    (decodeMantissa x).toNat = if x.toNat % 10 < 9
      then x.toNat / 10 / 9 * 10 + (x.toNat / 10 % 9 + 1) else x.toNat / 10 + 1 := by
  have hLt := x.toNat_lt
  have hExp : (x % 10 < 9) ↔ x.toNat % 10 < 9 := by
    rw [UInt64.lt_iff_toNat_lt, UInt64.toNat_mod]
    rfl
  unfold decodeMantissa
  by_cases hSmall : x.toNat % 10 < 9
  · rw [if_pos (hExp.2 hSmall), if_pos hSmall]
    simp only [UInt64.toNat_add, UInt64.toNat_mul, UInt64.toNat_div, UInt64.toNat_mod]
    show (x.toNat / 10 / 9 * 10 % 2 ^ 64 + (x.toNat / 10 % 9 + 1) % 2 ^ 64) % 2 ^ 64 = _
    omega
  · rw [if_neg (fun h => hSmall (hExp.1 h)), if_neg hSmall]
    simp only [UInt64.toNat_add, UInt64.toNat_div]
    show (x.toNat / 10 + 1) % 2 ^ 64 = _
    omega

theorem DecompressAmount_toNat {x : UInt64} (hx : x ≠ 0) :
    (DecompressAmount x).toNat =
      (decodeMantissa (x - 1)).toNat * 10 ^ ((x.toNat - 1) % 10) % 2 ^ 64 := by
  have hPos : 1 ≤ x.toNat := by
    rw [Nat.one_le_iff_ne_zero]
    intro h
    exact hx (UInt64.ext_iff.2 h)
  have hSub : (x - 1).toNat = x.toNat - 1 := UInt64.toNat_sub_of_le _ _ (UInt64.le_iff_toNat_le.2 hPos)
  rw [DecompressAmount, if_neg hx, timesTen_toNat, UInt64.toNat_mod, hSub]
  rfl

/-- A multiple of a positive power of ten ends in a zero. -/
theorem mul_pow_ten_mod_ten {k : Nat} (hk : 0 < k) (a : Nat) : a * 10 ^ k % 10 = 0 := by
  obtain ⟨j, rfl⟩ : ∃ j, k = j + 1 := ⟨k - 1, by omega⟩
  rw [Nat.pow_succ, ← Nat.mul_assoc, Nat.mul_mod_left]

/-- Written as a mantissa times a power of ten, with a last digit other than
zero below nine zeros, a number is split that way by `stripZeros 9`. -/
theorem stripZeros_nine_eq {n : UInt64} {D e : Nat} (hVal : n.toNat = D * 10 ^ e)
    (hForm : (e < 9 ∧ D % 10 ≠ 0) ∨ e = 9) :
    (stripZeros 9 n 0).1.toNat = D ∧ (stripZeros 9 n 0).2 = e := by
  obtain ⟨hSplit, -, hLe, hDigit⟩ := stripZeros_spec 9 n 0
  generalize stripZeros 9 n 0 = r at hSplit hLe hDigit ⊢
  obtain ⟨m, e'⟩ := r
  simp only [Nat.sub_zero, Nat.zero_add] at hSplit hLe hDigit ⊢
  rw [hVal] at hSplit
  have hPow : 0 < 10 ^ e' := Nat.pow_pos (by decide)
  rcases Nat.lt_trichotomy e' e with hLt | hEq | hGt
  · -- fewer zeros stripped: what is left still ends in a zero
    have hMul : m.toNat = D * 10 ^ (e - e') := by
      apply Nat.eq_of_mul_eq_mul_right hPow
      rw [hSplit, Nat.mul_assoc, ← Nat.pow_add, Nat.sub_add_cancel hLt.le]
    exact absurd (hMul ▸ mul_pow_ten_mod_ten (by omega) D) (hDigit (by omega))
  · subst hEq
    exact ⟨Nat.eq_of_mul_eq_mul_right hPow hSplit, rfl⟩
  · -- more zeros stripped than the mantissa allows
    have hPowE : 0 < 10 ^ e := Nat.pow_pos (by decide)
    have hMul : D = m.toNat * 10 ^ (e' - e) := by
      apply Nat.eq_of_mul_eq_mul_right hPowE
      rw [← hSplit, Nat.mul_assoc, ← Nat.pow_add, Nat.sub_add_cancel hGt.le]
    rcases hForm with ⟨_, hD⟩ | hNine
    · exact absurd (hMul ▸ mul_pow_ten_mod_ten (by omega) m.toNat) hD
    · omega

/-- The code of a number split as `D * 10 ^ e`, when it fits in 64 bits. -/
theorem CompressAmount_toNat {n : UInt64} {D e : Nat} (hn : n ≠ 0)
    (hStrip : (stripZeros 9 n 0).1.toNat = D ∧ (stripZeros 9 n 0).2 = e)
    (hFits : (if e < 9 then 1 + (D / 10 * 9 + D % 10 - 1) * 10 + e
      else 1 + (D - 1) * 10 + 9) < 2 ^ 64) (hD : 1 ≤ D) :
    (CompressAmount n).toNat = if e < 9 then 1 + (D / 10 * 9 + D % 10 - 1) * 10 + e
      else 1 + (D - 1) * 10 + 9 := by
  rw [CompressAmount, if_neg hn]
  generalize hr : stripZeros 9 n 0 = r at hStrip
  obtain ⟨m, e'⟩ := r
  obtain ⟨rfl, rfl⟩ := hStrip
  have hLt := m.toNat_lt
  dsimp only at hFits hD ⊢
  by_cases hSmall : e' < 9
  · rw [if_pos hSmall] at hFits ⊢
    rw [if_pos hSmall]
    have hSum : 1 ≤ m.toNat / 10 * 9 + m.toNat % 10 := by omega
    have hSub : ((m / 10 * 9 + m % 10) - 1).toNat = m.toNat / 10 * 9 + m.toNat % 10 - 1 := by
      rw [UInt64.toNat_sub_of_le]
      · simp only [UInt64.toNat_add, UInt64.toNat_mul, UInt64.toNat_div, UInt64.toNat_mod]
        show (m.toNat / 10 * 9 % 2 ^ 64 + m.toNat % 10) % 2 ^ 64 - 1 = _
        omega
      · rw [UInt64.le_iff_toNat_le]
        simp only [UInt64.toNat_add, UInt64.toNat_mul, UInt64.toNat_div, UInt64.toNat_mod]
        show 1 ≤ (m.toNat / 10 * 9 % 2 ^ 64 + m.toNat % 10) % 2 ^ 64
        omega
    have hExp : e'.toUInt64.toNat = e' := by
      rw [Nat.toUInt64_eq, UInt64.toNat_ofNat']
      omega
    simp only [UInt64.toNat_add, UInt64.toNat_mul, hSub, hExp, UInt64.reduceToNat]
    omega
  · rw [if_neg hSmall] at hFits ⊢
    rw [if_neg hSmall]
    have hSub : (m - 1).toNat = m.toNat - 1 := UInt64.toNat_sub_of_le _ _ (UInt64.le_iff_toNat_le.2 hD)
    simp only [UInt64.toNat_add, UInt64.toNat_mul, hSub, UInt64.reduceToNat]
    omega

theorem toNat_pos_of_ne_zero {x : UInt64} (hx : x ≠ 0) : 1 ≤ x.toNat := by
  rw [Nat.one_le_iff_ne_zero]
  intro h
  exact hx (UInt64.ext_iff.2 h)

/-! ## The round trips -/

/-- The code of a number below `2^60` decodes to it. -/
theorem decompress_compress_of_lt {n : UInt64} (hSmall : n.toNat < 2 ^ 60) :
    DecompressAmount (CompressAmount n) = n := by
  by_cases hn : n = 0
  · subst hn
    rfl
  obtain ⟨hVal, -, hLe, hDigit⟩ := stripZeros_spec 9 n 0
  generalize hD : (stripZeros 9 n 0).1.toNat = D at hVal hDigit
  generalize hE : (stripZeros 9 n 0).2 = e at hVal hLe hDigit
  simp only [Nat.sub_zero, Nat.zero_add] at hVal hLe hDigit
  have hPow : 1 ≤ 10 ^ e := Nat.one_le_pow _ _ (by decide)
  have hPos : 1 ≤ n.toNat := toNat_pos_of_ne_zero hn
  have hDPos : 1 ≤ D := by
    rw [Nat.one_le_iff_ne_zero]
    rintro rfl
    omega
  have hDLe : D ≤ n.toNat := hVal ▸ Nat.le_mul_of_pos_right D hPow
  have hCode := CompressAmount_toNat hn ⟨hD, hE⟩ (by split_ifs <;> omega) hDPos
  have hCodePos : CompressAmount n ≠ 0 := by
    intro h
    rw [h, UInt64.toNat_zero] at hCode
    split_ifs at hCode
    omega
  have hSub : (CompressAmount n - 1).toNat = (CompressAmount n).toNat - 1 :=
    UInt64.toNat_sub_of_le _ _ (UInt64.le_iff_toNat_le.2 (toNat_pos_of_ne_zero hCodePos))
  have hExp : ((CompressAmount n).toNat - 1) % 10 = e := by
    rw [hCode]
    split_ifs <;> omega
  have hMantissa : (decodeMantissa (CompressAmount n - 1)).toNat = D := by
    rw [decodeMantissa_toNat, hSub, hCode]
    by_cases hSmallE : e < 9
    · have hLast := hDigit (by omega)
      simp only [if_pos hSmallE]
      rw [if_pos (by omega)]
      omega
    · simp only [if_neg hSmallE]
      rw [if_neg (by omega)]
      omega
  rw [UInt64.ext_iff, DecompressAmount_toNat hCodePos, hExp, hMantissa, hVal]
  exact Nat.mod_eq_of_lt n.toNat_lt

/-- A code whose decoding fits in 64 bits is the code of that decoding. -/
theorem compress_decompress {x : UInt64} (hFits : DecompressFits x) :
    CompressAmount (DecompressAmount x) = x := by
  by_cases hx : x = 0
  · subst hx
    rfl
  have hPos := toNat_pos_of_ne_zero hx
  have hSub : (x - 1).toNat = x.toNat - 1 :=
    UInt64.toNat_sub_of_le _ _ (UInt64.le_iff_toNat_le.2 hPos)
  have hExpNat : ((x - 1) % 10).toNat = (x.toNat - 1) % 10 := by
    rw [UInt64.toNat_mod, hSub]
    rfl
  have hFit := hFits.resolve_left hx
  rw [hExpNat] at hFit
  generalize hD : (decodeMantissa (x - 1)).toNat = D at hFit
  have hDForm := decodeMantissa_toNat (x - 1)
  rw [hD, hSub] at hDForm
  have hValue : (DecompressAmount x).toNat = D * 10 ^ ((x.toNat - 1) % 10) := by
    rw [DecompressAmount_toNat hx, hD, Nat.mod_eq_of_lt hFit]
  have hDPos : 1 ≤ D := by
    split_ifs at hDForm <;> omega
  have hForm : ((x.toNat - 1) % 10 < 9 ∧ D % 10 ≠ 0) ∨ (x.toNat - 1) % 10 = 9 := by
    by_cases hSmallE : (x.toNat - 1) % 10 < 9
    · rw [if_pos hSmallE] at hDForm
      exact Or.inl ⟨hSmallE, by omega⟩
    · exact Or.inr (by omega)
  have hValuePos : DecompressAmount x ≠ 0 := by
    intro h
    rw [h] at hValue
    have hPow : 1 ≤ 10 ^ ((x.toNat - 1) % 10) := Nat.one_le_pow _ _ (by decide)
    have hMul : 1 ≤ D * 10 ^ ((x.toNat - 1) % 10) := Nat.one_le_iff_ne_zero.2
      (Nat.mul_ne_zero (by omega) (by omega))
    simp at hValue
    omega
  have hCodeX : (if (x.toNat - 1) % 10 < 9 then 1 + (D / 10 * 9 + D % 10 - 1) * 10 + (x.toNat - 1) % 10
      else 1 + (D - 1) * 10 + 9) = x.toNat := by
    have hLt := x.toNat_lt
    split_ifs at hDForm ⊢ <;> omega
  have hCodeLt : (if (x.toNat - 1) % 10 < 9 then 1 + (D / 10 * 9 + D % 10 - 1) * 10 +
      (x.toNat - 1) % 10 else 1 + (D - 1) * 10 + 9) < 2 ^ 64 := by
    rw [hCodeX]
    exact x.toNat_lt
  rw [UInt64.ext_iff, CompressAmount_toNat hValuePos (stripZeros_nine_eq hValue hForm) hCodeLt hDPos,
    hCodeX]

/-- One coin, `10 ^ 8`, has the code `9`: eight zeros and the digit `1`. -/
example : CompressAmount 100000000 = 9 ∧ DecompressAmount 9 = 100000000 := by decide

/-- **Round trips.** `DecompressAmount` inverts `CompressAmount` on the amounts
in `[0, MAX_MONEY]`, and `CompressAmount` inverts `DecompressAmount` on the
codes whose decoding does not overflow. -/
theorem decompressAmount_compressAmount :
    (∀ n : UInt64, n ≤ MAX_MONEY.toUInt64 → DecompressAmount (CompressAmount n) = n) ∧
    (∀ x : UInt64, DecompressFits x → CompressAmount (DecompressAmount x) = x) := by
  refine ⟨fun n hMax => decompress_compress_of_lt ?_, fun x hFits => compress_decompress hFits⟩
  have hMaxNat : MAX_MONEY.toUInt64.toNat < 2 ^ 60 := by decide
  exact Nat.lt_of_le_of_lt (UInt64.le_iff_toNat_le.1 hMax) hMaxNat

end FairCoin.Ports.Compressor
