import FairCoin.Ports.NextCreator

/-!
# The arithmetic of the dynamic chain parameters

`CheckDynamicChainParameters` bounds ten fields of a parameter set, and
`UpdateChainParameters` installs the set a chain-parameter block carries. The
PoC code then divides by and subtracts from those fields: `GetCandidateOffset`
divides the time a block is overdue by `nBlockSpacingGracePeriod`, the timer
of `handleWaitingForSignatures` takes remainders by it and by
`nRetryNewSigSetInterval` and sets `nSleep` (a `uint32_t`) to
`nRetryNewSigSetInterval - 5`, and `PopulateBlock` makes
`nMaxBlockSize - 7000` its size limit. The grace period has no bound, and the
retry interval may be as low as 2.

## Main results

* `CheckDynamicChainParameters_gracePeriod` — acceptance does not read the
  grace period.
* `GetCandidateOffset_due_of_zero_grace`,
  `sigSetRetryDue_overdue_of_zero_grace` — with a zero grace period the
  creator offset and the overdue timer take a quotient or remainder by zero.
* `retrySleep_toNat` — the sleep after a retry is `nRetryNewSigSetInterval - 5`
  only for intervals of at least 5; below, it wraps past `2³²`.
* `nBlockMaxSize_toNat` — the block size limit never wraps.
* `zeroGraceParams_traps` — an accepted parameter set under which all three
  fail.
-/

namespace FairCoin.Ports.PocThread

open FairCoin.Ports.Primitives FairCoin.Ports.NextCreator

/-! ## The uses of the parameters -/

/-- The retry test of `handleWaitingForSignatures` on the timer: a new set
is tried when the timer is a multiple of `nRetryNewSigSetInterval` (the
`int32_t` timer taken as unsigned). A remainder by zero traps. -/
def retryAt (dynParams : CDynamicChainParams) (nBaseTime : Int32) : Except Unit (Option Bool) :=
  if dynParams.nRetryNewSigSetInterval = 0 then .error ()
  else .ok (some (nBaseTime.toUInt32 % dynParams.nRetryNewSigSetInterval == 0))

/-- The timer of `handleWaitingForSignatures` at adjusted time
`nAdjustedTime` after the parent's time `nPrevTime`: in the overdue state the
seconds past the block spacing, modulo the grace period; otherwise the
seconds past the propagation wait. `some none` is the early return, `some
(some b)` whether a smaller set is tried; a remainder by zero traps, which is
`Except.error`. -/
def sigSetRetryDue (dynParams : CDynamicChainParams) (fIsOverdue : Bool) (nAdjustedTime : Int64)
    (nPrevTime : UInt32) : Except Unit (Option Bool) :=
  if fIsOverdue then
    let nBaseTime : Int32 :=
      (nAdjustedTime - nPrevTime.toUInt64.toInt64 - dynParams.nBlockSpacing.toUInt64.toInt64).toInt32
    if nBaseTime < 0 then .ok none
    else if dynParams.nBlockSpacingGracePeriod = 0 then .error ()
    else retryAt dynParams (nBaseTime.toUInt32 % dynParams.nBlockSpacingGracePeriod).toInt32
  else
    let nBaseTime : Int32 := (nAdjustedTime - nPrevTime.toUInt64.toInt64).toInt32
    if nBaseTime - dynParams.nBlockPropagationWaitTime.toInt32 < 0 then .ok none
    else retryAt dynParams (nBaseTime - dynParams.nBlockPropagationWaitTime.toInt32)

/-- `s.nSleep` after a retry: `nRetryNewSigSetInterval - 5` in `uint32_t`. -/
def retrySleep (dynParams : CDynamicChainParams) : UInt32 :=
  dynParams.nRetryNewSigSetInterval - 5

/-- `nBlockMaxSize` of `PopulateBlock`: `nMaxBlockSize - 7000` in `unsigned
int`. -/
def nBlockMaxSize (dynParams : CDynamicChainParams) : UInt32 := dynParams.nMaxBlockSize - 7000

/-! ## What acceptance bounds -/

/-- `CheckDynamicChainParameters` does not read the grace period: any value
passes with the rest of the set. -/
theorem CheckDynamicChainParameters_gracePeriod (p : CDynamicChainParams) (nGrace : UInt32) :
    CheckDynamicChainParameters { p with nBlockSpacingGracePeriod := nGrace } =
      CheckDynamicChainParameters p := rfl

/-- An accepted set has a retry interval of at least 2 and a block size of
at least `MIN_SIZE_OF_BLOCK`. -/
theorem bounds_of_accepted {p : CDynamicChainParams} (h : CheckDynamicChainParameters p = true) :
    MIN_RETRY_NEW_SIG_SET_INTERVAL ≤ p.nRetryNewSigSetInterval ∧ MIN_SIZE_OF_BLOCK ≤ p.nMaxBlockSize := by
  simp only [CheckDynamicChainParameters, Bool.and_eq_true, Bool.not_eq_eq_eq_not, Bool.not_true,
    Bool.or_eq_false_iff, decide_eq_false_iff_not, not_lt] at h
  exact ⟨h.1.1.2.1, h.1.1.1.1.2.1⟩

/-! ## Division by the grace period -/

/-- With a zero grace period, `GetCandidateOffset` divides by zero at the
moment the block is due. -/
theorem GetCandidateOffset_due_of_zero_grace (p : CDynamicChainParams) (nPrevBlockTime : UInt64)
    (hGrace : p.nBlockSpacingGracePeriod = 0) :
    GetCandidateOffset p nPrevBlockTime (nPrevBlockTime + p.nBlockSpacing.toUInt64).toInt64 = none := by
  -- the block is overdue by exactly zero seconds, which is not below a zero grace period
  simp [GetCandidateOffset, hGrace]

/-- With a zero grace period, the overdue timer of
`handleWaitingForSignatures` takes a remainder by zero once the block is
due. -/
theorem sigSetRetryDue_overdue_of_zero_grace (p : CDynamicChainParams) (nAdjustedTime : Int64)
    (nPrevTime : UInt32) (hGrace : p.nBlockSpacingGracePeriod = 0)
    (hDue : ¬ (nAdjustedTime - nPrevTime.toUInt64.toInt64 - p.nBlockSpacing.toUInt64.toInt64).toInt32 < 0) :
    sigSetRetryDue p true nAdjustedTime nPrevTime = .error () := by
  unfold sigSetRetryDue
  simp only [if_true, hDue, if_false, hGrace]

/-! ## Subtractions -/

/-- The sleep after a retry is the interval less five seconds when the
interval is at least 5, and wraps to `2³² - 5 + interval` below. -/
theorem retrySleep_toNat (p : CDynamicChainParams) :
    (retrySleep p).toNat =
      if 5 ≤ p.nRetryNewSigSetInterval.toNat then p.nRetryNewSigSetInterval.toNat - 5
      else 2 ^ 32 - 5 + p.nRetryNewSigSetInterval.toNat := by
  have hLt := p.nRetryNewSigSetInterval.toNat_lt
  unfold retrySleep
  split_ifs with hLe
  · rw [UInt32.toNat_sub_of_le _ _ (by rw [UInt32.le_iff_toNat_le]; exact hLe)]
    rfl
  · rw [UInt32.toNat_sub, show (5 : UInt32).toNat = 5 from rfl]
    omega

/-- The block size limit of an accepted set is its size less 7000, with no
wrap. -/
theorem nBlockMaxSize_toNat {p : CDynamicChainParams} (h : CheckDynamicChainParameters p = true) :
    (nBlockMaxSize p).toNat = p.nMaxBlockSize.toNat - 7000 := by
  have hSize := (bounds_of_accepted h).2
  unfold nBlockMaxSize
  rw [UInt32.toNat_sub_of_le _ _ (by
    rw [UInt32.le_iff_toNat_le] at hSize ⊢
    exact le_trans (by decide) hSize)]
  rfl

/-! ## An accepted set with a zero grace period -/

/-- `oneSignatureParams` with a zero grace period and a retry interval of 2. -/
def zeroGraceParams : CDynamicChainParams :=
  { oneSignatureParams with nBlockSpacingGracePeriod := 0, nRetryNewSigSetInterval := 2 }

/-- The set is accepted; when a block after one at time 1000 is due (time
1180), `GetCandidateOffset` divides by zero and the overdue timer takes a
remainder by zero; a retry sleeps `2³² - 3` seconds. -/
theorem zeroGraceParams_traps :
    CheckDynamicChainParameters zeroGraceParams = true ∧
      GetCandidateOffset zeroGraceParams 1000 1180 = none ∧
      sigSetRetryDue zeroGraceParams true 1180 1000 = .error () ∧
      (retrySleep zeroGraceParams).toNat = 2 ^ 32 - 3 := by
  refine ⟨by decide, GetCandidateOffset_due_of_zero_grace zeroGraceParams 1000 rfl,
    sigSetRetryDue_overdue_of_zero_grace zeroGraceParams 1180 1000 rfl (by decide), ?_⟩
  rw [retrySleep_toNat]
  rfl

end FairCoin.Ports.PocThread
