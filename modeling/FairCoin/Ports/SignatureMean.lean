import FairCoin.Verified.Binary32
import FairCoin.Ports.NextCreator

/-!
# The signature-mean rule: `HasEnoughSignatures`

`HasEnoughSignatures(pindexPrev, n)` sums `GetNumChainSigs` over at most
`nBlocksToConsiderForSigCheck` entries back from `pindexPrev`, takes their
mean `S / k` and accepts `n` signatures when `n > mean * (p / 100)`, with `p`
the `nPercentageOfSignaturesMean` of the parameters. The quotients and the
product are single-precision: each is the exact result rounded
(`FairCoin.Verified.Binary32`).

Exact arithmetic would decide `100 * n * k > p * S`. Under parameters that
`CheckDynamicChainParameters` accepts and counts of at most
`MAX_NUMBER_OF_CVNS`, the three roundings move the product by less than
`403 / 2 ^ 24`, while `n` stands at least `1 / 10000` from the exact product
unless `100 * n * k = p * S`; so the float rule is the exact one off that
boundary. On it the roundings may fall either way, and they do: `0.53` is
rounded down, and one block of 100 signatures under `p = 53` accepts 53
signatures although 53 is exactly 53% of the mean.

## Main results

* `hasEnoughSignatures_iff_of_ne` — off the boundary `100 * n * k = p * S`,
  `HasEnoughSignatures` is the exact rule.
* `hasEnoughSignatures_boundary_flip` — on it, an accepted parameter set and a
  one-block chain under which the function accepts.
-/

namespace FairCoin.Ports.SignatureMean

open FairCoin.Verified FairCoin.Verified.Binary32 FairCoin.Ports.Primitives
open FairCoin.Ports.PocState FairCoin.Ports.NextCreator

/-! ## The model -/

/-- The loop of `HasEnoughSignatures`: from `pindexPrev` back through `pprev`
(the list, newest first), while fewer than `nBlocksToConsider` entries were
counted and the entry is not null, its chain signatures are added to the
`size_t` sum and the `uint32_t` count goes up. Fewer than `2 ^ 32` entries of
at most `2 ^ 32 - 1` signatures keep the sum below `2 ^ 64`. -/
def sumSignatures (mapCVNInfoCache : CvnInfoCacheType) (nBlocksToConsider : UInt32) :
    List CBlockIndex → Nat → UInt32 → Nat × UInt32
  | [], nSignatures, nBlocks => (nSignatures, nBlocks)
  | pindex :: pprev, nSignatures, nBlocks =>
    if nBlocks < nBlocksToConsider then
      sumSignatures mapCVNInfoCache nBlocksToConsider pprev
        (nSignatures + (GetNumChainSigs mapCVNInfoCache pindex).toNat) (nBlocks + 1)
    else (nSignatures, nBlocks)

/-- `HasEnoughSignatures(pindexPrev, nSignaturesToCheck)` under the globals
`mapCVNInfoCache` and `dynParams`; `chain` is `pindexPrev` and its ancestors,
empty for a null `pindexPrev`. `(float) x / (float) y`, `... / 100.0f` and the
product are each rounded to single precision. -/
def HasEnoughSignatures (mapCVNInfoCache : CvnInfoCacheType) (dynParams : CDynamicChainParams)
    (chain : List CBlockIndex) (nSignaturesToCheck : UInt32) : Bool :=
  let (nSignatures, nBlocks) :=
    sumSignatures mapCVNInfoCache dynParams.nBlocksToConsiderForSigCheck chain 0 0
  let nSignaturesMean : ℚ :=
    if nBlocks ≠ 0 then roundF32 (roundF32 nSignatures / roundF32 nBlocks.toNat) else 0
  decide (roundF32 (nSignaturesMean *
      roundF32 (roundF32 dynParams.nPercentageOfSignaturesMean.toNat / 100)) <
    roundF32 nSignaturesToCheck.toNat)

/-- The chain signatures of an entry, as a number. -/
def chainSigCount (mapCVNInfoCache : CvnInfoCacheType) (pindex : CBlockIndex) : Nat :=
  (GetNumChainSigs mapCVNInfoCache pindex).toNat

/-- `S` and `k` of the rule: the chain signatures of the entries the loop
reads (the first `nBlocksToConsider` of the chain), summed, and their
number. -/
def signatureWindow (mapCVNInfoCache : CvnInfoCacheType) (nBlocksToConsider : UInt32)
    (chain : List CBlockIndex) : Nat × Nat :=
  ((chain.take nBlocksToConsider.toNat).map (chainSigCount mapCVNInfoCache) |>.sum,
    (chain.take nBlocksToConsider.toNat).length)

/-! ## The loop -/

/-- The loop adds the counts of the entries it reads, and counts them. -/
theorem sumSignatures_eq (mapCVNInfoCache : CvnInfoCacheType) (nBlocksToConsider : UInt32)
    (chain : List CBlockIndex) (nSignatures : Nat) (nBlocks : UInt32)
    (hBlocks : nBlocks ≤ nBlocksToConsider) :
    sumSignatures mapCVNInfoCache nBlocksToConsider chain nSignatures nBlocks =
      (nSignatures + ((chain.take (nBlocksToConsider.toNat - nBlocks.toNat)).map
          (chainSigCount mapCVNInfoCache)).sum,
        UInt32.ofNat (nBlocks.toNat +
          (chain.take (nBlocksToConsider.toNat - nBlocks.toNat)).length)) := by
  induction chain generalizing nSignatures nBlocks with
  | nil => simp [sumSignatures]
  | cons pindex pprev ih =>
    rw [UInt32.le_iff_toNat_le] at hBlocks
    by_cases hMore : nBlocks < nBlocksToConsider
    · have hLt : nBlocks.toNat < nBlocksToConsider.toNat := UInt32.lt_iff_toNat_lt.1 hMore
      have hSucc : (nBlocks + 1).toNat = nBlocks.toNat + 1 := by
        have hMax := nBlocksToConsider.toNat_lt
        simp only [UInt32.toNat_add, UInt32.reduceToNat]
        exact Nat.mod_eq_of_lt (by omega)
      have hNext : nBlocks + 1 ≤ nBlocksToConsider := by
        rw [UInt32.le_iff_toNat_le, hSucc]
        omega
      have hTake : nBlocksToConsider.toNat - nBlocks.toNat =
          nBlocksToConsider.toNat - (nBlocks + 1).toNat + 1 := by
        omega
      rw [sumSignatures, if_pos hMore, ih _ _ hNext, hTake, List.take_succ_cons, hSucc]
      simp only [List.map_cons, List.sum_cons, List.length_cons, chainSigCount]
      rw [Prod.mk.injEq]
      exact ⟨Nat.add_assoc _ _ _, congrArg UInt32.ofNat (by omega)⟩
    · have hEq : nBlocksToConsider.toNat - nBlocks.toNat = 0 := by
        rw [UInt32.lt_iff_toNat_lt] at hMore
        omega
      simp [sumSignatures, hMore, hEq]

/-- An accepted parameter set reads at most 100 entries and asks for at most
100 percent. -/
theorem sigCheck_bounds_of_accepted {p : CDynamicChainParams}
    (h : CheckDynamicChainParameters p = true) :
    p.nBlocksToConsiderForSigCheck.toNat ≤ 100 ∧ p.nPercentageOfSignaturesMean.toNat ≤ 100 := by
  simp only [CheckDynamicChainParameters, Bool.and_eq_true, Bool.not_eq_eq_eq_not, Bool.not_true,
    Bool.or_eq_false_iff, decide_eq_false_iff_not, not_lt] at h
  have hWindow := h.1.1.1.1.1.1.2.2
  have hPercent := h.1.1.1.1.1.2.2
  rw [UInt32.le_iff_toNat_le] at hWindow hPercent
  exact ⟨hWindow, hPercent⟩

/-! ## Three roundings against the exact product -/

/-- A mean of at most 100 and a fraction of at most 1, each rounded, and
their product rounded: the result is within `403 / 2 ^ 24` of the exact
product. -/
theorem abs_roundedProduct_sub_le {a b : ℚ} (ha : 0 ≤ a) (ha100 : a ≤ 100) (hb : 0 ≤ b)
    (hb1 : b ≤ 1) :
    |roundF32 (roundF32 a * roundF32 b) - a * b| ≤ 403 / 2 ^ 24 := by
  have hA := abs_roundF32_sub_le ha
  have hB := abs_roundF32_sub_le hb
  obtain ⟨hA₁, hA₂⟩ := abs_le.1 hA
  obtain ⟨hB₁, hB₂⟩ := abs_le.1 hB
  have hAnn : 0 ≤ roundF32 a := by linarith
  have hBnn : 0 ≤ roundF32 b := by linarith
  have hAle : roundF32 a ≤ 101 := by linarith
  have hBle : roundF32 b ≤ 2 := by linarith
  have hAerr : |roundF32 a - a| ≤ 100 / 2 ^ 24 := hA.trans (by gcongr)
  have hBerr : |roundF32 b - b| ≤ 1 / 2 ^ 24 := hB.trans (by gcongr)
  have hProd : 0 ≤ roundF32 a * roundF32 b := mul_nonneg hAnn hBnn
  have hProdLe : roundF32 a * roundF32 b ≤ 202 := by nlinarith
  -- Rounding the operands: the error of each, weighted by the other.
  have hMid : |roundF32 a * roundF32 b - a * b| ≤ 201 / 2 ^ 24 := by
    have hSplit : roundF32 a * roundF32 b - a * b =
        roundF32 a * (roundF32 b - b) + b * (roundF32 a - a) := by ring
    rw [hSplit]
    calc |roundF32 a * (roundF32 b - b) + b * (roundF32 a - a)|
        ≤ |roundF32 a * (roundF32 b - b)| + |b * (roundF32 a - a)| := abs_add_le _ _
      _ = roundF32 a * |roundF32 b - b| + b * |roundF32 a - a| := by
        rw [abs_mul, abs_mul, abs_of_nonneg hAnn, abs_of_nonneg hb]
      _ ≤ 101 * (1 / 2 ^ 24) + 1 * (100 / 2 ^ 24) :=
        add_le_add (mul_le_mul hAle hBerr (abs_nonneg _) (by norm_num))
          (mul_le_mul hb1 hAerr (abs_nonneg _) (by norm_num))
      _ = 201 / 2 ^ 24 := by norm_num
  -- Rounding the product.
  have hLast : |roundF32 (roundF32 a * roundF32 b) - roundF32 a * roundF32 b| ≤ 202 / 2 ^ 24 :=
    (abs_roundF32_sub_le hProd).trans (by gcongr)
  calc |roundF32 (roundF32 a * roundF32 b) - a * b|
      ≤ |roundF32 (roundF32 a * roundF32 b) - roundF32 a * roundF32 b| +
          |roundF32 a * roundF32 b - a * b| := abs_sub_le _ _ _
    _ ≤ 202 / 2 ^ 24 + 201 / 2 ^ 24 := add_le_add hLast hMid
    _ = 403 / 2 ^ 24 := by norm_num

/-- Off the boundary `100 * n * k = p * S`, `n` stands at least `1 / 10000`
from the exact product `S / k * (p / 100)`. -/
theorem one_div_le_abs_sub {n S k p : Nat} (hk : 0 < k) (hk100 : k ≤ 100)
    (hNe : 100 * n * k ≠ p * S) : 1 / 10000 ≤ |(n : ℚ) - S / k * (p / 100)| := by
  have hkq : (0 : ℚ) < k := by exact_mod_cast hk
  have hDiff : (n : ℚ) - S / k * (p / 100) =
      (((100 * n * k : Nat) : ℚ) - (p * S : Nat)) / (100 * k) := by
    push_cast
    field_simp
  have hApart : (1 : ℚ) ≤ |((100 * n * k : Nat) : ℚ) - (p * S : Nat)| := by
    have hNeZ : ((100 * n * k : Nat) : ℤ) - (p * S : Nat) ≠ 0 :=
      sub_ne_zero.2 (by exact_mod_cast hNe)
    have hOne : (1 : ℤ) ≤ |((100 * n * k : Nat) : ℤ) - (p * S : Nat)| := Int.one_le_abs hNeZ
    exact_mod_cast hOne
  have hWidth : (100 * k : ℚ) ≤ 10000 := by
    have : (k : ℚ) ≤ 100 := by exact_mod_cast hk100
    linarith
  have hDen : (0 : ℚ) < 100 * k := by positivity
  rw [hDiff, abs_div, abs_of_pos hDen, le_div_iff₀ hDen]
  calc 1 / 10000 * (100 * k : ℚ) ≤ 1 := by
        rw [div_mul_eq_mul_div, one_mul, div_le_one (by norm_num)]
        exact hWidth
    _ ≤ _ := hApart

/-- Off the boundary the rounded rule is the exact one: the product of the
rounded mean and the rounded fraction, rounded, is below `n` exactly when
`p * S < 100 * n * k`. -/
theorem roundedRule_iff {n S k p : Nat} (hk : 0 < k) (hk100 : k ≤ 100) (hS : S ≤ 100 * k)
    (hp : p ≤ 100) (hNe : 100 * n * k ≠ p * S) :
    roundF32 (roundF32 (S / k) * roundF32 (p / 100)) < n ↔ p * S < 100 * n * k := by
  have hkq : (0 : ℚ) < k := by exact_mod_cast hk
  have hMean : (S : ℚ) / k ≤ 100 := by
    rw [div_le_iff₀ hkq]
    exact_mod_cast hS
  have hFrac : (p : ℚ) / 100 ≤ 1 := by
    rw [div_le_one (by norm_num)]
    exact_mod_cast hp
  have hClose := abs_roundedProduct_sub_le (by positivity) hMean (by positivity) hFrac
  have hGap := one_div_le_abs_sub hk hk100 hNe
  have hExact : (S : ℚ) / k * (p / 100) < n ↔ p * S < 100 * n * k := by
    have hForm : (S : ℚ) / k * (p / 100) = (p * S : Nat) / (100 * k) := by
      push_cast
      field_simp
    rw [hForm, div_lt_iff₀ (by positivity)]
    constructor
    · intro h
      have h' : ((p * S : Nat) : ℚ) < (100 * n * k : Nat) := by
        push_cast at h ⊢
        linarith
      exact_mod_cast h'
    · intro h
      have h' : ((p * S : Nat) : ℚ) < (100 * n * k : Nat) := by exact_mod_cast h
      push_cast at h' ⊢
      linarith
  rw [← hExact]
  have hTiny : (403 : ℚ) / 2 ^ 24 < 1 / 10000 := by norm_num
  obtain ⟨hClose₁, hClose₂⟩ := abs_le.1 hClose
  constructor
  · intro hLt
    by_contra hGe
    have hAbove : 1 / 10000 ≤ (S : ℚ) / k * (p / 100) - n := by
      rwa [abs_sub_comm, abs_of_nonneg (by linarith)] at hGap
    linarith
  · intro hLt
    have hBelow : 1 / 10000 ≤ (n : ℚ) - S / k * (p / 100) := by
      rwa [abs_of_pos (by linarith)] at hGap
    linarith

/-! ## The rule `HasEnoughSignatures` decides -/

/-- The loop from the start reads the window: its sum, and its length as
the `uint32_t` count. -/
theorem sumSignatures_window (mapCVNInfoCache : CvnInfoCacheType) (nBlocksToConsider : UInt32)
    (chain : List CBlockIndex) :
    sumSignatures mapCVNInfoCache nBlocksToConsider chain 0 0 =
      ((signatureWindow mapCVNInfoCache nBlocksToConsider chain).1,
        UInt32.ofNat (signatureWindow mapCVNInfoCache nBlocksToConsider chain).2) := by
  have hStart : (0 : UInt32) ≤ nBlocksToConsider := by
    rw [UInt32.le_iff_toNat_le]
    exact Nat.zero_le _
  rw [sumSignatures_eq _ _ _ _ _ hStart]
  simp [signatureWindow]

/-- Entries of at most `MAX_NUMBER_OF_CVNS` chain signatures give a mean of
at most 100. -/
theorem signatureWindow_sum_le {mapCVNInfoCache : CvnInfoCacheType} {nBlocksToConsider : UInt32}
    {chain : List CBlockIndex}
    (hCounts : ∀ pindex ∈ chain.take nBlocksToConsider.toNat,
      chainSigCount mapCVNInfoCache pindex ≤ MAX_NUMBER_OF_CVNS) :
    (signatureWindow mapCVNInfoCache nBlocksToConsider chain).1 ≤
      100 * (signatureWindow mapCVNInfoCache nBlocksToConsider chain).2 := by
  have hSum := List.sum_le_card_nsmul
    ((chain.take nBlocksToConsider.toNat).map (chainSigCount mapCVNInfoCache)) MAX_NUMBER_OF_CVNS
    (by
      intro x hx
      obtain ⟨pindex, hMem, rfl⟩ := List.mem_map.1 hx
      exact hCounts pindex hMem)
  rw [List.length_map, smul_eq_mul] at hSum
  simp only [signatureWindow, MAX_NUMBER_OF_CVNS] at hSum ⊢
  omega

/-- **The signature-mean rule off its boundary.** Under parameters that
`CheckDynamicChainParameters` accepts, with at most `MAX_NUMBER_OF_CVNS`
chain signatures in each entry read and `n ≤ MAX_NUMBER_OF_CVNS`: unless
`100 * n * k = p * S`, `HasEnoughSignatures` returns whether
`100 * n * k > p * S`. -/
theorem hasEnoughSignatures_iff_of_ne (mapCVNInfoCache : CvnInfoCacheType)
    (dynParams : CDynamicChainParams) (chain : List CBlockIndex) (nSignaturesToCheck : UInt32)
    (hParams : CheckDynamicChainParameters dynParams = true)
    (hCounts : ∀ pindex ∈ chain.take dynParams.nBlocksToConsiderForSigCheck.toNat,
      chainSigCount mapCVNInfoCache pindex ≤ MAX_NUMBER_OF_CVNS)
    (hn : nSignaturesToCheck.toNat ≤ MAX_NUMBER_OF_CVNS)
    (hNe : 100 * nSignaturesToCheck.toNat *
        (signatureWindow mapCVNInfoCache dynParams.nBlocksToConsiderForSigCheck chain).2 ≠
      dynParams.nPercentageOfSignaturesMean.toNat *
        (signatureWindow mapCVNInfoCache dynParams.nBlocksToConsiderForSigCheck chain).1) :
    HasEnoughSignatures mapCVNInfoCache dynParams chain nSignaturesToCheck =
      decide (dynParams.nPercentageOfSignaturesMean.toNat *
          (signatureWindow mapCVNInfoCache dynParams.nBlocksToConsiderForSigCheck chain).1 <
        100 * nSignaturesToCheck.toNat *
          (signatureWindow mapCVNInfoCache dynParams.nBlocksToConsiderForSigCheck chain).2) := by
  obtain ⟨hWindow, hPercent⟩ := sigCheck_bounds_of_accepted hParams
  have hS := signatureWindow_sum_le hCounts
  unfold HasEnoughSignatures
  rw [sumSignatures_window]
  generalize (signatureWindow mapCVNInfoCache dynParams.nBlocksToConsiderForSigCheck chain).1 = S
    at hS hNe ⊢
  have hk100 : (signatureWindow mapCVNInfoCache dynParams.nBlocksToConsiderForSigCheck chain).2 ≤
      100 := (List.length_take_le _ _).trans hWindow
  generalize (signatureWindow mapCVNInfoCache dynParams.nBlocksToConsiderForSigCheck chain).2 = k
    at hS hNe hk100 ⊢
  unfold MAX_NUMBER_OF_CVNS at hn
  have hk : 0 < k := by
    rcases Nat.eq_zero_or_pos k with rfl | hk
    · have hS0 : S = 0 := by omega
      exact absurd (by rw [hS0]; simp) hNe
    · exact hk
  have hkNat : (UInt32.ofNat k).toNat = k := by
    rw [UInt32.toNat_ofNat', Nat.mod_eq_of_lt (by omega)]
  have hkNe : UInt32.ofNat k ≠ 0 := by
    intro h0
    have hZero := congrArg UInt32.toNat h0
    rw [hkNat, UInt32.toNat_zero] at hZero
    omega
  dsimp only
  rw [if_pos hkNe, hkNat, roundF32_natCast (by omega : S < 2 ^ 24),
    roundF32_natCast (by omega : k < 2 ^ 24), roundF32_natCast (by omega : _ < 2 ^ 24),
    roundF32_natCast (by omega : nSignaturesToCheck.toNat < 2 ^ 24)]
  exact decide_eq_decide.2 (roundedRule_iff hk hk100 hS hPercent hNe)

/-! ## On the boundary -/

/-- A cache that gives every block 100 CVNs. -/
def hundredCvnCache : CvnInfoCacheType := ⟨[(0, ⟨⟨0⟩, 100⟩)], by decide⟩

/-- `oneSignatureParams` asking for 53 percent of the mean. -/
def fiftyThreeParams : CDynamicChainParams :=
  { oneSignatureParams with nPercentageOfSignaturesMean := 53 }

/-- Off the boundary, 54 signatures against one block of 100 under 53
percent: the rule as exact arithmetic decides it. -/
theorem hasEnoughSignatures_fiftyFour :
    CheckDynamicChainParameters fiftyThreeParams = true ∧
      HasEnoughSignatures hundredCvnCache fiftyThreeParams [default] 54 =
        decide (fiftyThreeParams.nPercentageOfSignaturesMean.toNat *
            (signatureWindow hundredCvnCache fiftyThreeParams.nBlocksToConsiderForSigCheck
              [default]).1 <
          100 * (54 : UInt32).toNat *
            (signatureWindow hundredCvnCache fiftyThreeParams.nBlocksToConsiderForSigCheck
              [default]).2) :=
  ⟨by decide, hasEnoughSignatures_iff_of_ne hundredCvnCache fiftyThreeParams [default] 54
    (by decide) (by decide) (by decide) (by decide)⟩

/-- On the boundary the roundings decide: `0.53` rounds down, so one block of
100 chain signatures under an accepted 53 percent accepts 53 signatures,
although `100 * 53 * 1 = 53 * 100` is no more than the exact threshold. -/
theorem hasEnoughSignatures_boundary_flip :
    CheckDynamicChainParameters fiftyThreeParams = true ∧
      signatureWindow hundredCvnCache fiftyThreeParams.nBlocksToConsiderForSigCheck [default] =
        (100, 1) ∧
      HasEnoughSignatures hundredCvnCache fiftyThreeParams [default] 53 = true ∧
      ¬ (53 * 100 < 100 * 53 * 1) :=
  ⟨by decide, by decide, by decide +kernel, by decide⟩

end FairCoin.Ports.SignatureMean
