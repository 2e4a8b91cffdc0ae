import FairCoin.Verified.RoundLoop
import FairCoin.Ports.NextCreator

/-!
# The do-while loops of `CheckNextBlockCreator`

After the scan, `CheckNextBlockCreator` walks the candidates with a reverse
iterator in two do-while loops: the choice of the creator, from `rbegin`
plus the candidate offset, and, when a `CCvnStatus` is requested, the
prediction of the node's next block, from `rbegin`. Both test
`mapLastSignatures[c] >= nMinSignatures` (the prediction also
`c == state->nNodeId`), return to `rbegin + nCandidateOffset` at `rend`
lowering the `uint32_t` counter `nMinSignatures`, and stop at
`while (nMinSignatures)`. They are the library's `RoundLoop.run` over
`vCreatorCandidates.reverse`; the prediction's `tick` is
`nPredictedNextBlock++`.

## Main results

* `candidateLoops_bounded` — the creator loop ends within
  `(nMinSuccessiveSignatures + 1) * vCreatorCandidates.size()` passes, with the
  iterator in `[rbegin, rend)` and the counter never taken through zero; the
  prediction loop does the same unless `nMinSuccessiveSignatures = 0` and the
  only candidate is not the node.
* `predictionLoop_counter_wraps` — there the counter wraps to `2 ^ 32 - 1`,
  the loop runs `2 ^ 32` passes, and `nPredictedNextBlock` wraps back to the
  next height.
-/

namespace FairCoin.Ports.CreatorLoop

open FairCoin.Verified FairCoin.Verified.RoundLoop FairCoin.Ports.Primitives
  FairCoin.Ports.PocState FairCoin.Ports.NextCreator

/-- `mapLastSignatures[c] >= nMinSignatures`: `operator[]` reads a CVN that
signed nothing as `0`. -/
def signedEnough (mapLastSignatures : SortedMap UInt32 UInt32) (c nMinSignatures : UInt32) : Bool :=
  decide (mapLastSignatures.findD c 0 ≥ nMinSignatures)

/-- The prediction loop's test: enough signatures, and the requested node. -/
def isPredicted (mapLastSignatures : SortedMap UInt32 UInt32) (nNodeId c nMinSignatures : UInt32) :
    Bool :=
  signedEnough mapLastSignatures c nMinSignatures && c == nNodeId

/-- `nCandidateOffset`, reduced modulo the number of candidates when it
exceeds it. -/
def candidateOffset (nOffset : UInt32) (nCandidates : Nat) : Nat :=
  if nOffset.toNat ≥ nCandidates then nOffset.toNat % nCandidates else nOffset.toNat

/-- The creator loop, with `nMinSignatures` reset to
`nMinSuccessiveSignatures`, from `rbegin + nCandidateOffset`. -/
def creatorLoop (mapLastSignatures : SortedMap UInt32 UInt32) (vCreatorCandidates : List UInt32)
    (nOffset nMinSuccessiveSignatures : UInt32) (fuel : Nat) : Option (Next UInt32 Unit) :=
  run vCreatorCandidates.reverse (candidateOffset nOffset vCreatorCandidates.length)
    (signedEnough mapLastSignatures) id fuel
    ⟨candidateOffset nOffset vCreatorCandidates.length, nMinSuccessiveSignatures, ()⟩

/-- The prediction loop for `state->nNodeId`, from `rbegin`, with
`nPredictedNextBlock = chainActive.Tip()->nHeight + 1`. -/
def predictionLoop (mapLastSignatures : SortedMap UInt32 UInt32) (vCreatorCandidates : List UInt32)
    (nOffset nMinSuccessiveSignatures nNodeId : UInt32) (nTipHeight : Int32) (fuel : Nat) :
    Option (Next UInt32 UInt32) :=
  run vCreatorCandidates.reverse (candidateOffset nOffset vCreatorCandidates.length)
    (isPredicted mapLastSignatures nNodeId) (· + 1) fuel
    ⟨0, nMinSuccessiveSignatures, (nTipHeight + 1).toUInt32⟩

theorem candidateOffset_lt (nOffset : UInt32) {n : Nat} (h : 0 < n) : candidateOffset nOffset n < n := by
  unfold candidateOffset
  split_ifs with hGe
  · exact Nat.mod_lt _ h
  · omega

/-- Every candidate has at least zero signatures: a first pass at zero breaks. -/
theorem signedEnough_zero (mapLastSignatures : SortedMap UInt32 UInt32) (c : UInt32) :
    signedEnough mapLastSignatures c 0 = true := by
  simp [signedEnough, UInt32.le_iff_toNat_le]

/-- The prediction loop's first pass takes the counter through zero exactly
when no signatures are required and the only candidate is not the node. -/
theorem predictionLoop_wraps_iff (mapLastSignatures : SortedMap UInt32 UInt32)
    (vCreatorCandidates : List UInt32) (nMinSuccessiveSignatures nNodeId : UInt32) (acc : UInt32) :
    wraps vCreatorCandidates.reverse (isPredicted mapLastSignatures nNodeId)
        ⟨0, nMinSuccessiveSignatures, acc⟩ = true ↔
      nMinSuccessiveSignatures = 0 ∧ ∃ c, vCreatorCandidates = [c] ∧ c ≠ nNodeId := by
  rw [wraps_zero_iff]
  constructor
  · rintro ⟨hm, c, hc, hFail⟩
    refine ⟨hm, c, ?_, ?_⟩
    · rw [← List.reverse_reverse vCreatorCandidates, hc]
      rfl
    · intro hEq
      simp [isPredicted, signedEnough_zero, hEq] at hFail
  · rintro ⟨hm, c, rfl, hNe⟩
    exact ⟨hm, c, rfl, by simp [isPredicted, hNe]⟩

section Bounded

variable (mapLastSignatures : SortedMap UInt32 UInt32) (vCreatorCandidates : List UInt32)
  (nOffset nMinSuccessiveSignatures : UInt32)

/-- The creator loop from its start: the iterator stays in `[rbegin, rend)`,
the counter is never taken through zero, and the loop ends within
`(nMinSuccessiveSignatures + 1) * vCreatorCandidates.size()` passes. -/
theorem creatorLoop_bounded (hNonempty : vCreatorCandidates ≠ []) :
    (∀ v, Reach vCreatorCandidates.reverse (candidateOffset nOffset vCreatorCandidates.length)
        (signedEnough mapLastSignatures) id
        ⟨candidateOffset nOffset vCreatorCandidates.length, nMinSuccessiveSignatures, ()⟩ v →
      v.it < vCreatorCandidates.length ∧
        wraps vCreatorCandidates.reverse (signedEnough mapLastSignatures) v = false) ∧
    ∃ r, creatorLoop mapLastSignatures vCreatorCandidates nOffset nMinSuccessiveSignatures
        ((nMinSuccessiveSignatures.toNat + 1) * vCreatorCandidates.length) = some r ∧
      r.ended = true := by
  have hOff : candidateOffset nOffset vCreatorCandidates.reverse.length <
      vCreatorCandidates.reverse.length := by
    rw [List.length_reverse]
    exact candidateOffset_lt nOffset (List.length_pos_iff.2 hNonempty)
  have hNoWrap : wraps vCreatorCandidates.reverse (signedEnough mapLastSignatures)
      ⟨candidateOffset nOffset vCreatorCandidates.length, nMinSuccessiveSignatures, ()⟩ = false := by
    unfold wraps
    split
    · rfl
    · next c _ =>
      by_cases hm : nMinSuccessiveSignatures = 0
      · simp [hm, signedEnough_zero]
      · simp [hm]
  rw [List.length_reverse] at hOff
  refine ⟨fun v hv => ?_, ?_⟩
  · have := hv.safe (by rwa [List.length_reverse]) (by rwa [List.length_reverse]) hNoWrap
    rwa [List.length_reverse] at this
  · have := @run_ends_within _ _ _ _ _ id (by rwa [List.length_reverse]) _
      (by rwa [List.length_reverse]) hNoWrap
    rwa [List.length_reverse] at this

/-- The prediction loop from its start, when its first pass does not wrap:
the same bounds as the creator loop. -/
theorem predictionLoop_bounded (nNodeId : UInt32) (nTipHeight : Int32)
    (hNonempty : vCreatorCandidates ≠ [])
    (hNoWrap : ¬ (nMinSuccessiveSignatures = 0 ∧ ∃ c, vCreatorCandidates = [c] ∧ c ≠ nNodeId)) :
    (∀ v, Reach vCreatorCandidates.reverse (candidateOffset nOffset vCreatorCandidates.length)
        (isPredicted mapLastSignatures nNodeId) (· + 1)
        ⟨0, nMinSuccessiveSignatures, (nTipHeight + 1).toUInt32⟩ v →
      v.it < vCreatorCandidates.length ∧
        wraps vCreatorCandidates.reverse (isPredicted mapLastSignatures nNodeId) v = false) ∧
    ∃ r, predictionLoop mapLastSignatures vCreatorCandidates nOffset nMinSuccessiveSignatures nNodeId
        nTipHeight ((nMinSuccessiveSignatures.toNat + 1) * vCreatorCandidates.length) = some r ∧
      r.ended = true := by
  have hPos : 0 < vCreatorCandidates.reverse.length := by
    rw [List.length_reverse]
    exact List.length_pos_iff.2 hNonempty
  have hOff : candidateOffset nOffset vCreatorCandidates.length < vCreatorCandidates.reverse.length := by
    rw [List.length_reverse]
    exact candidateOffset_lt nOffset (List.length_pos_iff.2 hNonempty)
  have hFirst : wraps vCreatorCandidates.reverse (isPredicted mapLastSignatures nNodeId)
      ⟨0, nMinSuccessiveSignatures, (nTipHeight + 1).toUInt32⟩ = false := by
    cases hWrap : wraps vCreatorCandidates.reverse (isPredicted mapLastSignatures nNodeId)
        ⟨0, nMinSuccessiveSignatures, (nTipHeight + 1).toUInt32⟩ with
    | false => rfl
    | true => exact absurd ((predictionLoop_wraps_iff _ _ _ _ _).1 hWrap) hNoWrap
  refine ⟨fun v hv => ?_, ?_⟩
  · have := hv.safe hOff hPos hFirst
    rwa [List.length_reverse] at this
  · have := @run_ends_within _ _ _ _ _ (· + 1) hOff _ hPos hFirst
    rwa [List.length_reverse] at this

end Bounded

/-- The creator loop ends within `(nMinSuccessiveSignatures + 1) *
vCreatorCandidates.size()` passes, with its iterator in `[rbegin, rend)` at
every dereference and without taking `nMinSignatures` through zero; the
prediction loop's first pass takes it through zero exactly when no signatures
are required and the only candidate is not the node, and otherwise the
prediction loop keeps the same bounds. -/
theorem candidateLoops_bounded (mapLastSignatures : SortedMap UInt32 UInt32)
    (vCreatorCandidates : List UInt32) (nOffset nMinSuccessiveSignatures nNodeId : UInt32)
    (nTipHeight : Int32) (hNonempty : vCreatorCandidates ≠ []) :
    ((∀ v, Reach vCreatorCandidates.reverse (candidateOffset nOffset vCreatorCandidates.length)
        (signedEnough mapLastSignatures) id
        ⟨candidateOffset nOffset vCreatorCandidates.length, nMinSuccessiveSignatures, ()⟩ v →
      v.it < vCreatorCandidates.length ∧
        wraps vCreatorCandidates.reverse (signedEnough mapLastSignatures) v = false) ∧
      ∃ r, creatorLoop mapLastSignatures vCreatorCandidates nOffset nMinSuccessiveSignatures
          ((nMinSuccessiveSignatures.toNat + 1) * vCreatorCandidates.length) = some r ∧
        r.ended = true) ∧
    (wraps vCreatorCandidates.reverse (isPredicted mapLastSignatures nNodeId)
        ⟨0, nMinSuccessiveSignatures, (nTipHeight + 1).toUInt32⟩ = true ↔
      nMinSuccessiveSignatures = 0 ∧ ∃ c, vCreatorCandidates = [c] ∧ c ≠ nNodeId) ∧
    (¬ (nMinSuccessiveSignatures = 0 ∧ ∃ c, vCreatorCandidates = [c] ∧ c ≠ nNodeId) →
      (∀ v, Reach vCreatorCandidates.reverse (candidateOffset nOffset vCreatorCandidates.length)
          (isPredicted mapLastSignatures nNodeId) (· + 1)
          ⟨0, nMinSuccessiveSignatures, (nTipHeight + 1).toUInt32⟩ v →
        v.it < vCreatorCandidates.length ∧
          wraps vCreatorCandidates.reverse (isPredicted mapLastSignatures nNodeId) v = false) ∧
      ∃ r, predictionLoop mapLastSignatures vCreatorCandidates nOffset nMinSuccessiveSignatures
          nNodeId nTipHeight ((nMinSuccessiveSignatures.toNat + 1) * vCreatorCandidates.length) =
          some r ∧ r.ended = true) :=
  ⟨creatorLoop_bounded mapLastSignatures vCreatorCandidates nOffset nMinSuccessiveSignatures hNonempty,
    predictionLoop_wraps_iff mapLastSignatures vCreatorCandidates nMinSuccessiveSignatures nNodeId _,
    predictionLoop_bounded mapLastSignatures vCreatorCandidates nOffset nMinSuccessiveSignatures
      nNodeId nTipHeight hNonempty⟩

/-- Counted signatures: CVN 1 signed 2 of the blocks scanned, CVN 2 one. -/
def countedSignatures : SortedMap UInt32 UInt32 := (SortedMap.empty.insert 1 2).insert 2 1

/-- The bounds with no signatures required, and with three required of
`countedSignatures`: there the creator loop lowers the counter once and stops
at CVN 1, and the prediction for CVN 2 stops at block 13 after five passes. -/
theorem candidateLoops_bounded_counted :
    (((∀ v, Reach [(1 : UInt32), 2].reverse (candidateOffset 3 [(1 : UInt32), 2].length)
         (signedEnough default) id ⟨candidateOffset 3 [(1 : UInt32), 2].length, 0, ()⟩ v →
       v.it < [(1 : UInt32), 2].length ∧ wraps [(1 : UInt32), 2].reverse (signedEnough default) v = false) ∧
       ∃ r, creatorLoop default [1, 2] 3 0 (((0 : UInt32).toNat + 1) * [(1 : UInt32), 2].length) =
         some r ∧ r.ended = true) ∧
     (wraps [(1 : UInt32), 2].reverse (isPredicted default 1) ⟨0, 0, ((7 : Int32) + 1).toUInt32⟩ = true ↔
       (0 : UInt32) = 0 ∧ ∃ c : UInt32, [(1 : UInt32), 2] = [c] ∧ c ≠ 1) ∧
     (¬ ((0 : UInt32) = 0 ∧ ∃ c : UInt32, [(1 : UInt32), 2] = [c] ∧ c ≠ 1) →
       (∀ v, Reach [(1 : UInt32), 2].reverse (candidateOffset 3 [(1 : UInt32), 2].length)
           (isPredicted default 1) (· + 1) ⟨0, 0, ((7 : Int32) + 1).toUInt32⟩ v →
         v.it < [(1 : UInt32), 2].length ∧
           wraps [(1 : UInt32), 2].reverse (isPredicted default 1) v = false) ∧
       ∃ r, predictionLoop default [1, 2] 3 0 1 7 (((0 : UInt32).toNat + 1) * [(1 : UInt32), 2].length) =
         some r ∧ r.ended = true)) ∧
    (((∀ v, Reach [(1 : UInt32), 2, 3].reverse (candidateOffset 1 [(1 : UInt32), 2, 3].length)
         (signedEnough countedSignatures) id ⟨candidateOffset 1 [(1 : UInt32), 2, 3].length, 3, ()⟩ v →
       v.it < [(1 : UInt32), 2, 3].length ∧
         wraps [(1 : UInt32), 2, 3].reverse (signedEnough countedSignatures) v = false) ∧
       ∃ r, creatorLoop countedSignatures [1, 2, 3] 1 3
         (((3 : UInt32).toNat + 1) * [(1 : UInt32), 2, 3].length) = some r ∧ r.ended = true) ∧
     (wraps [(1 : UInt32), 2, 3].reverse (isPredicted countedSignatures 2)
         ⟨0, 3, ((7 : Int32) + 1).toUInt32⟩ = true ↔
       (3 : UInt32) = 0 ∧ ∃ c : UInt32, [(1 : UInt32), 2, 3] = [c] ∧ c ≠ 2) ∧
     (¬ ((3 : UInt32) = 0 ∧ ∃ c : UInt32, [(1 : UInt32), 2, 3] = [c] ∧ c ≠ 2) →
       (∀ v, Reach [(1 : UInt32), 2, 3].reverse (candidateOffset 1 [(1 : UInt32), 2, 3].length)
           (isPredicted countedSignatures 2) (· + 1) ⟨0, 3, ((7 : Int32) + 1).toUInt32⟩ v →
         v.it < [(1 : UInt32), 2, 3].length ∧
           wraps [(1 : UInt32), 2, 3].reverse (isPredicted countedSignatures 2) v = false) ∧
       ∃ r, predictionLoop countedSignatures [1, 2, 3] 1 3 2 7
         (((3 : UInt32).toNat + 1) * [(1 : UInt32), 2, 3].length) = some r ∧ r.ended = true)) ∧
    creatorLoop countedSignatures [1, 2, 3] 1 3 12 = some (.stop 1 ()) ∧
    predictionLoop countedSignatures [1, 2, 3] 1 3 2 7 12 = some (.stop 2 13) :=
  ⟨candidateLoops_bounded default [1, 2] 3 0 1 7 (by decide),
    candidateLoops_bounded countedSignatures [1, 2, 3] 1 3 2 7 (by decide), rfl, rfl⟩

/-! ## The counter wraps in the prediction loop -/

theorem candidateOffset_one (nOffset : UInt32) : candidateOffset nOffset 1 = 0 := by
  unfold candidateOffset
  split_ifs with hGe
  · exact Nat.mod_one _
  · omega

theorem iterate_add_one (b : UInt32) (n : Nat) : Nat.iterate (· + 1) n b = b + UInt32.ofNat n := by
  induction n generalizing b with
  | zero => simp
  | succ n ih =>
    rw [Function.iterate_succ_apply, ih, UInt32.ofNat_add, add_comm (UInt32.ofNat n), ← add_assoc]
    rfl

/-- CVNs 1 and 2, under parameters that require no successive signatures. -/
def noSignatureGlobals : PocGlobals :=
  { removedCvnGlobals with dynParams := { oneSignatureParams with nMinSuccessiveSignatures := 0 } }

/-- Genesis and block 1, both created by CVN 1. -/
def soloCreatorChain : List CBlockIndex := [cvnBlock 1 1000 1 [] [], cvnBlock 0 820 1 [] []]

/-- With no successive signatures required and CVN 1 the only candidate, the
status `getactivecvns` requests for CVN 2 takes `nMinSignatures` from `0` to
`2 ^ 32 - 1`: the prediction loop has not ended after the one pass of the
bound, nor after `2 ^ 32 - 1`, and after `2 ^ 32` it reports block 2, the
next one, for CVN 2, while the creator loop picks CVN 1. -/
theorem predictionLoop_counter_wraps :
    CheckDynamicChainParameters noSignatureGlobals.dynParams = true ∧
    noSignatureGlobals.mapCVNs.contains 2 = true ∧
    scanCandidates noSignatureGlobals POC_BLOCKS_TO_SCAN soloCreatorChain
      ⟨[], default, noSignatureGlobals.dynParams.nMinSuccessiveSignatures⟩ = some ⟨[1], default, 0⟩ ∧
    withAppended [1] (appendedCandidate noSignatureGlobals soloCreatorChain ⟨[1], default, 0⟩) = [1] ∧
    ∀ nOffset : UInt32,
      creatorLoop default [1] nOffset 0 1 = some (.stop 1 ()) ∧
      wraps [(1 : UInt32)].reverse (isPredicted default 2) ⟨0, 0, ((1 : Int32) + 1).toUInt32⟩ = true ∧
      predictionLoop default [1] nOffset 0 2 1 (((0 : UInt32).toNat + 1) * [(1 : UInt32)].length) =
        none ∧
      predictionLoop default [1] nOffset 0 2 1 (2 ^ 32 - 1) = none ∧
      predictionLoop default [1] nOffset 0 2 1 (2 ^ 32) = some (.exit 2) := by
  refine ⟨by decide, by decide, rfl, by decide, fun nOffset => ?_⟩
  have hOff : candidateOffset nOffset [(1 : UInt32)].length = 0 := candidateOffset_one nOffset
  have hFail : ∀ m, isPredicted default 2 1 m = false := fun m => by simp [isPredicted]
  obtain ⟨hWrap, hNone, hEnds⟩ :=
    @run_wrap_single _ _ _ _ (· + 1) _ hFail hOff ((1 : Int32) + 1).toUInt32
  have hCreator : creatorLoop default [1] nOffset 0 1 = some (.stop 1 ()) := by
    unfold creatorLoop
    rw [hOff]
    simp [run, body, signedEnough_zero]
  have hOnePass : predictionLoop default [1] nOffset 0 2 1 1 = none := by
    unfold predictionLoop
    rw [hOff]
    simp [run, body, hFail]
  refine ⟨hCreator, hWrap, hOnePass, hNone, ?_⟩
  have hBack : Nat.iterate (· + 1) (2 ^ 32) ((1 : Int32) + 1).toUInt32 = 2 := by
    rw [iterate_add_one, show UInt32.ofNat (2 ^ 32) = 0 from rfl, add_zero]
    rfl
  rw [hBack] at hEnds
  exact hEnds

end FairCoin.Ports.CreatorLoop
