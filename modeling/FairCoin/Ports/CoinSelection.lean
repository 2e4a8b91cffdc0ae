import FairCoin.Verified.SelectedSum
import FairCoin.Ports.Primitives

/-!
# Coin selection (`wallet.cpp`)

`CWallet::SelectCoinsMinConf` looks at the spendable outputs with enough
confirmations, in the order `random_shuffle` gave them. It returns at once a
coin of exactly the target; otherwise it keeps the coins below
`nTargetValue + MIN_CHANGE` with their `int64` total, and the smallest coin
above. It then takes all the smaller coins if they make the target exactly,
the larger coin if they fall short, and otherwise the better of the larger
coin and the subset `ApproximateBestSubset` finds: up to 1000 rounds of two
passes over the coins sorted by value, the first taking each coin on a coin
flip, the second every coin left out, each reaching the target recorded if it
beats the best so far, then a pass dropping coins the best subset does not
need.

The wallet's `IsFromMe`, the shuffle and the coin flips are parameters: the
order of `vCoins` is the shuffle's outcome, and `flip nRep i` is the
`insecure_rand() & 1` of coin `i` in round `nRep`.

## Main results

* `scanCoins_spec` — the loop over the coins keeps exactly the eligible coins
  below `nTargetValue + MIN_CHANGE`, their wrapped total, and a larger coin if
  there is one.
* `ApproximateBestSubset_spec` — the best subset's flags select coins whose
  total is `nBest`, at least the target.
* `selectCoins_sound_complete` — what `SelectCoinsMinConf` returns is a set
  of eligible outputs whose values sum to `nValueRet ≥ nTargetValue`, and it
  fails only when the eligible coins total less than the target, while their
  total fits in `int64`; `selectCoins_overflow` — 1734 coins just below
  `MAX_MONEY` wrap the total and it fails with enough funds.
-/

namespace FairCoin.Ports.CoinSelection

open FairCoin.Verified.SelectedSum FairCoin.Ports.Primitives

/-- `CENT`. -/
def CENT : CAmount := 1000000

/-- `MIN_CHANGE`. -/
def MIN_CHANGE : CAmount := CENT

/-- `COutput`: output `i` of the wallet transaction `tx`, its depth, and
whether the wallet can spend it. -/
structure COutput where
  tx : CTransaction
  i : Nat
  nDepth : Int
  fSpendable : Bool
  deriving DecidableEq, Repr

/-- The pair `make_pair(pcoin, i)` that identifies an output. -/
abbrev OutPoint := CTransaction × Nat

/-- `pcoin->vout[i].nValue`. -/
def COutput.value (o : COutput) : CAmount := (o.tx.vout.getD o.i CTxOut.null).nValue

/-- The value of the output a pair names. -/
def valueOf (c : OutPoint) : CAmount := (c.1.vout.getD c.2 CTxOut.null).nValue

/-- The coin `make_pair(n, make_pair(pcoin, i))`. -/
def COutput.coin (o : COutput) : CAmount × OutPoint := (o.value, (o.tx, o.i))

section Scan

variable (IsFromMe : CTransaction → Bool) (nTargetValue : CAmount) (nConfMine nConfTheirs : Int)

/-- An output the loop looks at: spendable, with enough confirmations. -/
def eligible (o : COutput) : Bool :=
  o.fSpendable && !decide (o.nDepth < if IsFromMe o.tx then nConfMine else nConfTheirs)

/-- What the loop over `vCoins` keeps: `coinLowestLarger` (`none` for its
`NULL` pointer), the coins below `nTargetValue + MIN_CHANGE` and their total. -/
structure ScanState where
  coinLowestLarger : CAmount × Option OutPoint
  vValue : List (CAmount × OutPoint)
  nTotalLower : CAmount

/-- Before the loop: `coinLowestLarger.first` is the largest `CAmount`. -/
def ScanState.init : ScanState := ⟨(Int64.maxValue, none), [], 0⟩

/-- The loop `BOOST_FOREACH(const COutput &output, vCoins)`: `.inl coin` where
it returns at a coin of exactly `nTargetValue`. -/
def scanCoins : List COutput → ScanState → (CAmount × OutPoint) ⊕ ScanState
  | [], st => .inr st
  | output :: rest, st =>
    if !output.fSpendable then scanCoins rest st
    else if output.nDepth < (if IsFromMe output.tx then nConfMine else nConfTheirs) then
      scanCoins rest st
    else
      let n := output.value
      if n = nTargetValue then .inl output.coin
      else if n < nTargetValue + MIN_CHANGE then
        scanCoins rest { st with vValue := st.vValue ++ [output.coin],
                                 nTotalLower := st.nTotalLower + n }
      else if n < st.coinLowestLarger.1 then
        scanCoins rest { st with coinLowestLarger := (n, some (output.tx, output.i)) }
      else scanCoins rest st

end Scan

/-! ## `ApproximateBestSubset` -/

/-- The search's variables: the coins taken in this round and their total,
whether the round reached the target, and the best subset so far. -/
structure SubsetState where
  vfIncluded : List Bool
  nTotal : CAmount
  fReachedTarget : Bool
  vfBest : List Bool
  nBest : CAmount

section Subset

variable {α : Type} (vValue : List (CAmount × α)) (nTargetValue : CAmount)

/-- The body for coin `i` once it is taken: add it, and at the target record
the subset if it beats the best and put the coin back. -/
def takeCoin (i : Nat) (st : SubsetState) : SubsetState :=
  let nTotal := st.nTotal + (vValue.map Prod.fst).getD i 0
  let vfIncluded := st.vfIncluded.set i true
  if nTotal ≥ nTargetValue then
    let better := decide (nTotal < st.nBest)
    { vfIncluded := vfIncluded.set i false
      nTotal := nTotal - (vValue.map Prod.fst).getD i 0
      fReachedTarget := true
      vfBest := if better then vfIncluded else st.vfBest
      nBest := if better then nTotal else st.nBest }
  else { st with nTotal, vfIncluded }

/-- One pass `for (i = 0; i < vValue.size(); i++) if (choose) ...`, where
`choose i vfIncluded` says whether coin `i` is taken. -/
def subsetPass (choose : Nat → List Bool → Bool) (st : SubsetState) : SubsetState :=
  (List.range vValue.length).foldl
    (fun st i => if choose i st.vfIncluded then takeCoin vValue nTargetValue i st else st) st

/-- One round: a pass on coin flips, then, if the target was not reached, a
pass taking every coin left out. -/
def subsetRound (flip : Nat → Bool) (st : SubsetState) : SubsetState :=
  let st := { st with vfIncluded := List.replicate vValue.length false, nTotal := 0,
                      fReachedTarget := false }
  let st := subsetPass vValue nTargetValue (fun i _ => flip i) st
  if st.fReachedTarget then st
  else subsetPass vValue nTargetValue (fun i vfIncluded => !vfIncluded.getD i true) st

/-- The rounds `for (nRep = 0; nRep < iterations && nBest != nTargetValue; nRep++)`,
with `fuel` rounds left. -/
def subsetRounds (flip : Nat → Nat → Bool) : Nat → Nat → SubsetState → SubsetState
  | 0, _, st => st
  | fuel + 1, nRep, st =>
    if st.nBest ≠ nTargetValue then
      subsetRounds flip fuel (nRep + 1) (subsetRound vValue nTargetValue (flip nRep) st)
    else st

/-- The last loop: drop each coin of the best subset whose removal keeps its
total at the target. -/
def reduceBest (best : List Bool × CAmount) : List Bool × CAmount :=
  (List.range vValue.length).foldl
    (fun (best : List Bool × CAmount) i =>
      if best.1.getD i false && best.2 - (vValue.map Prod.fst).getD i 0 ≥ nTargetValue then
        (best.1.set i false, best.2 - (vValue.map Prod.fst).getD i 0)
      else best) best

/-- `ApproximateBestSubset`: the flags `vfBest` and their total `nBest`. -/
def ApproximateBestSubset (flip : Nat → Nat → Bool) (nTotalLower : CAmount)
    (iterations : Nat) : List Bool × CAmount :=
  let st : SubsetState :=
    { vfIncluded := [], nTotal := 0, fReachedTarget := false,
      vfBest := List.replicate vValue.length true, nBest := nTotalLower }
  let st := subsetRounds vValue nTargetValue flip iterations 0 st
  reduceBest vValue nTargetValue (st.vfBest, st.nBest)

end Subset

/-! ## `SelectCoinsMinConf` -/

/-- `setCoinsRet.insert(coin.second); nValueRet += coin.first` for each coin. -/
def addCoins (coins : List (CAmount × OutPoint)) (acc : Finset OutPoint × CAmount) :
    Finset OutPoint × CAmount :=
  coins.foldl (fun acc coin => (insert coin.2 acc.1, acc.2 + coin.1)) acc

/-- `CWallet::SelectCoinsMinConf`: the set `setCoinsRet` and `nValueRet`, or
`none` where it returns false. -/
def SelectCoinsMinConf (IsFromMe : CTransaction → Bool) (flip1 flip2 : Nat → Nat → Bool)
    (nTargetValue : CAmount) (nConfMine nConfTheirs : Int) (vCoins : List COutput) :
    Option (Finset OutPoint × CAmount) :=
  match scanCoins IsFromMe nTargetValue nConfMine nConfTheirs vCoins ScanState.init with
  | .inl coin => some (addCoins [coin] (∅, 0))
  | .inr st =>
    if st.nTotalLower = nTargetValue then some (addCoins st.vValue (∅, 0))
    else if st.nTotalLower < nTargetValue then
      match st.coinLowestLarger.2 with
      | none => none
      | some larger => some (addCoins [(st.coinLowestLarger.1, larger)] (∅, 0))
    else
      -- `sort(vValue.rbegin(), vValue.rend(), CompareValueOnly())`: largest first.
      let vValue := st.vValue.mergeSort fun a b => decide (b.1 ≤ a.1)
      let best := ApproximateBestSubset vValue nTargetValue flip1 st.nTotalLower 1000
      let best :=
        if best.2 ≠ nTargetValue ∧ st.nTotalLower ≥ nTargetValue + MIN_CHANGE then
          ApproximateBestSubset vValue (nTargetValue + MIN_CHANGE) flip2 st.nTotalLower 1000
        else best
      match st.coinLowestLarger.2 with
      | some larger =>
        if (best.2 ≠ nTargetValue ∧ best.2 < nTargetValue + MIN_CHANGE) ∨
            st.coinLowestLarger.1 ≤ best.2 then
          some (addCoins [(st.coinLowestLarger.1, larger)] (∅, 0))
        else some (addCoins (((vValue.zip best.1).filter (·.2)).map Prod.fst) (∅, 0))
      | none => some (addCoins (((vValue.zip best.1).filter (·.2)).map Prod.fst) (∅, 0))

/-! ## The best subset -/

section SubsetSpec

variable {α : Type} (vValue : List (CAmount × α)) (nTargetValue : CAmount)

/-- The coins' values as integers. -/
def amounts : List Int := vValue.map fun c => c.1.toInt

/-- The best subset's flags select coins worth `nBest`, at least the target. -/
structure BestInv (best : List Bool × CAmount) : Prop where
  length_eq : best.1.length = vValue.length
  value_eq : best.2.toInt = selectedSum (amounts vValue) best.1
  target_le : nTargetValue.toInt ≤ best.2.toInt

/-- In a round, the coins taken are worth `nTotal`, and the best subset keeps
`BestInv`. -/
structure SearchInv (st : SubsetState) : Prop where
  best : BestInv vValue nTargetValue (st.vfBest, st.nBest)
  length_included : st.vfIncluded.length = vValue.length
  total_eq : st.nTotal.toInt = selectedSum (amounts vValue) st.vfIncluded

variable {vValue nTargetValue}

@[simp] theorem length_amounts : (amounts vValue).length = vValue.length := by
  simp [amounts]

theorem toInt_getD_value {i : Nat} (hi : i < (amounts vValue).length) :
    ((vValue.map Prod.fst).getD i 0).toInt = (amounts vValue)[i] := by
  rw [List.getD_eq_getElem _ _ (by simpa using hi)]
  simp [amounts]

/-- Coins of non-negative values whose total fits in `int64`. -/
structure Amounts (vValue : List (CAmount × α)) : Prop where
  nonneg : ∀ x ∈ amounts vValue, 0 ≤ x
  sum_lt : (amounts vValue).sum < 2 ^ 63

theorem Amounts.selected_lt (hA : Amounts vValue) (mask : List Bool) :
    selectedSum (amounts vValue) mask < 2 ^ 63 :=
  lt_of_le_of_lt (selectedSum_le_sum hA.nonneg mask) hA.sum_lt

theorem Amounts.selected_nonneg (hA : Amounts vValue) (mask : List Bool) :
    0 ≤ selectedSum (amounts vValue) mask :=
  selectedSum_nonneg hA.nonneg mask

theorem takeCoin_vfIncluded_ne {i k : Nat} (hk : i ≠ k) (st : SubsetState) :
    (takeCoin vValue nTargetValue i st).vfIncluded[k]? = st.vfIncluded[k]? := by
  unfold takeCoin
  dsimp only
  split <;> simp [List.getElem?_set_ne hk]

/-- Taking a coin that is not in the round's subset keeps the invariant. -/
theorem searchInv_takeCoin (hA : Amounts vValue) {st : SubsetState}
    (h : SearchInv vValue nTargetValue st) {i : Nat} (hi : i < vValue.length)
    (hOff : st.vfIncluded[i]? = some false) :
    SearchInv vValue nTargetValue (takeCoin vValue nTargetValue i st) := by
  have hiA : i < (amounts vValue).length := by simpa using hi
  have hSet := selectedSum_set_true hiA hOff
  have hv := toInt_getD_value hiA
  have hAdded : (st.nTotal + (vValue.map Prod.fst).getD i 0).toInt =
      selectedSum (amounts vValue) (st.vfIncluded.set i true) := by
    have hUp := hA.selected_lt (st.vfIncluded.set i true)
    have hLow := hA.selected_nonneg (st.vfIncluded.set i true)
    rw [hSet] at hUp hLow
    rw [toInt_add_of_bounds (by rw [h.total_eq, hv]; omega) (by rw [h.total_eq, hv]; omega),
      h.total_eq, hv, hSet]
  have hBack : (st.vfIncluded.set i true).set i false = st.vfIncluded := by
    have hLen : i < st.vfIncluded.length := by rw [h.length_included]; exact hi
    have hGet : st.vfIncluded[i] = false := by
      simpa [List.getElem?_eq_getElem hLen] using hOff
    calc (st.vfIncluded.set i true).set i false = st.vfIncluded.set i st.vfIncluded[i] := by
          rw [List.set_set, hGet]
      _ = st.vfIncluded := List.set_getElem_self hLen
  unfold takeCoin
  dsimp only
  split
  · next hReach =>
    refine ⟨?_, ?_, ?_⟩ <;> dsimp only
    · by_cases hBetter : st.nTotal + (vValue.map Prod.fst).getD i 0 < st.nBest
      · simp only [hBetter, decide_true, if_true]
        exact ⟨by simp [h.length_included], hAdded,
          (Int64.le_iff_toInt_le.1 hReach).trans_eq rfl⟩
      · simp only [hBetter, decide_false, Bool.false_eq_true, if_false]
        exact h.best
    · simp [h.length_included]
    · have hLow := hA.selected_nonneg st.vfIncluded
      have hUp := hA.selected_lt st.vfIncluded
      rw [hBack, toInt_sub_of_bounds (by rw [hAdded, hSet, hv]; omega)
        (by rw [hAdded, hSet, hv]; omega), hAdded, hSet, hv]
      omega
  · exact ⟨h.best, by simp [h.length_included], hAdded⟩

/-- A pass keeps the invariant when each coin it takes is out of the round's
subset; `choose` reads only the coin's own flag. -/
theorem searchInv_foldl_takeCoin (hA : Amounts vValue) (choose : Nat → List Bool → Bool)
    (hLocal : ∀ k (inc inc' : List Bool), inc[k]? = inc'[k]? → choose k inc = choose k inc')
    (is : List Nat) (hNodup : is.Nodup) (hLt : ∀ k ∈ is, k < vValue.length) :
    ∀ {st : SubsetState}, SearchInv vValue nTargetValue st →
      (∀ k ∈ is, choose k st.vfIncluded = true → st.vfIncluded[k]? = some false) →
      SearchInv vValue nTargetValue (is.foldl
        (fun st i => if choose i st.vfIncluded then takeCoin vValue nTargetValue i st else st) st) := by
  induction is with
  | nil => intro st h _; exact h
  | cons i is ih =>
    intro st h hPre
    obtain ⟨hNotMem, hNodup'⟩ := List.nodup_cons.1 hNodup
    rw [List.foldl_cons]
    have hFrame : ∀ k ∈ is, (if choose i st.vfIncluded then takeCoin vValue nTargetValue i st
        else st).vfIncluded[k]? = st.vfIncluded[k]? := by
      intro k hk
      split
      · exact takeCoin_vfIncluded_ne (fun hEq => hNotMem (by rw [hEq]; exact hk)) st
      · rfl
    refine ih hNodup' (fun k hk => hLt k (List.mem_cons_of_mem i hk)) ?_ ?_
    · split
      · next hc => exact searchInv_takeCoin hA h (hLt i List.mem_cons_self) (hPre i List.mem_cons_self hc)
      · exact h
    · intro k hk hc
      rw [hLocal k _ st.vfIncluded (hFrame k hk)] at hc
      rw [hFrame k hk]
      exact hPre k (List.mem_cons_of_mem i hk) hc

theorem searchInv_subsetPass (hA : Amounts vValue) (choose : Nat → List Bool → Bool)
    (hLocal : ∀ k (inc inc' : List Bool), inc[k]? = inc'[k]? → choose k inc = choose k inc')
    {st : SubsetState} (h : SearchInv vValue nTargetValue st)
    (hPre : ∀ k < vValue.length, choose k st.vfIncluded = true → st.vfIncluded[k]? = some false) :
    SearchInv vValue nTargetValue (subsetPass vValue nTargetValue choose st) :=
  searchInv_foldl_takeCoin hA choose hLocal _ List.nodup_range (fun _ hk => List.mem_range.1 hk) h
    (fun k hk => hPre k (List.mem_range.1 hk))

/-- A round keeps the best subset's invariant. -/
theorem bestInv_subsetRound (hA : Amounts vValue) (flip : Nat → Bool) {st : SubsetState}
    (h : BestInv vValue nTargetValue (st.vfBest, st.nBest)) :
    BestInv vValue nTargetValue ((subsetRound vValue nTargetValue flip st).vfBest,
      (subsetRound vValue nTargetValue flip st).nBest) := by
  have hStart : SearchInv vValue nTargetValue { st with
      vfIncluded := List.replicate vValue.length false, nTotal := 0, fReachedTarget := false } :=
    ⟨h, List.length_replicate, by simp⟩
  have hFirst := searchInv_subsetPass hA (fun i _ => flip i) (fun _ _ _ _ => rfl) hStart
    (fun k hk _ => by simp [hk])
  unfold subsetRound
  dsimp only
  split
  · exact hFirst.best
  · refine (searchInv_subsetPass hA _ ?_ hFirst ?_).best
    · intro k inc inc' hk
      simp only [List.getD_eq_getElem?_getD, hk]
    · intro k hk hc
      have hLen := hFirst.length_included
      simp only [Bool.not_eq_true', List.getD_eq_getElem?_getD] at hc
      rw [List.getElem?_eq_getElem (by omega)] at hc ⊢
      simpa using hc

theorem bestInv_subsetRounds (hA : Amounts vValue) (flip : Nat → Nat → Bool) (fuel : Nat) :
    ∀ {nRep : Nat} {st : SubsetState}, BestInv vValue nTargetValue (st.vfBest, st.nBest) →
      BestInv vValue nTargetValue ((subsetRounds vValue nTargetValue flip fuel nRep st).vfBest,
        (subsetRounds vValue nTargetValue flip fuel nRep st).nBest) := by
  induction fuel with
  | zero => intro nRep st h; exact h
  | succ fuel ih =>
    intro nRep st h
    unfold subsetRounds
    split
    · exact ih (bestInv_subsetRound hA (flip nRep) h)
    · exact h

/-- Dropping a coin the best subset does not need keeps the invariant. -/
theorem bestInv_reduceStep (hA : Amounts vValue) {best : List Bool × CAmount}
    (h : BestInv vValue nTargetValue best) {i : Nat} (hi : i < vValue.length) :
    BestInv vValue nTargetValue
      (if best.1.getD i false && best.2 - (vValue.map Prod.fst).getD i 0 ≥ nTargetValue then
        (best.1.set i false, best.2 - (vValue.map Prod.fst).getD i 0)
      else best) := by
  split
  · next hDrop =>
    simp only [Bool.and_eq_true, decide_eq_true_eq] at hDrop
    obtain ⟨hOn, hEnough⟩ := hDrop
    have hLen : i < best.1.length := by rw [h.length_eq]; exact hi
    have hOn' : best.1[i]? = some true := by
      rw [List.getD_eq_getElem _ _ hLen] at hOn
      rw [List.getElem?_eq_getElem hLen, hOn]
    have hiA : i < (amounts vValue).length := by simpa using hi
    have hv := toInt_getD_value hiA
    have hSet := selectedSum_set_false hiA hOn'
    have hLow := hA.selected_nonneg (best.1.set i false)
    have hUp := hA.selected_lt best.1
    have hAmt : 0 ≤ (amounts vValue)[i] := hA.nonneg _ (List.getElem_mem hiA)
    rw [hSet] at hLow
    have hSub : (best.2 - (vValue.map Prod.fst).getD i 0).toInt =
        selectedSum (amounts vValue) best.1 - (amounts vValue)[i] := by
      rw [toInt_sub_of_bounds (by rw [h.value_eq, hv]; omega) (by rw [h.value_eq, hv]; omega),
        h.value_eq, hv]
    refine ⟨by simp [h.length_eq], by rw [hSub, hSet], ?_⟩
    exact Int64.le_iff_toInt_le.1 hEnough
  · exact h

theorem bestInv_reduceBest (hA : Amounts vValue) {best : List Bool × CAmount}
    (h : BestInv vValue nTargetValue best) :
    BestInv vValue nTargetValue (reduceBest vValue nTargetValue best) := by
  unfold reduceBest
  -- Induction over the indices still to visit, all below the number of coins.
  have hGen : ∀ (is : List Nat), (∀ k ∈ is, k < vValue.length) →
      ∀ {best : List Bool × CAmount}, BestInv vValue nTargetValue best →
        BestInv vValue nTargetValue (is.foldl (fun (best : List Bool × CAmount) i =>
          if best.1.getD i false && best.2 - (vValue.map Prod.fst).getD i 0 ≥ nTargetValue then
            (best.1.set i false, best.2 - (vValue.map Prod.fst).getD i 0)
          else best) best) := by
    intro is
    induction is with
    | nil => intro _ best h; exact h
    | cons i is ih =>
      intro hLt best h
      exact ih (fun k hk => hLt k (List.mem_cons_of_mem i hk))
        (bestInv_reduceStep hA h (hLt i List.mem_cons_self))
  exact hGen _ (fun _ hk => List.mem_range.1 hk) h

/-- `ApproximateBestSubset` returns flags that select coins worth `nBest`, at
least the target, when the coins total `nTotalLower` and that reaches it. -/
theorem ApproximateBestSubset_spec (hA : Amounts vValue) (flip : Nat → Nat → Bool)
    {nTotalLower : CAmount} (hTotal : nTotalLower.toInt = (amounts vValue).sum)
    (hTarget : nTargetValue.toInt ≤ nTotalLower.toInt) (iterations : Nat) :
    BestInv vValue nTargetValue
      (ApproximateBestSubset vValue nTargetValue flip nTotalLower iterations) := by
  have hStart : BestInv vValue nTargetValue (List.replicate vValue.length true, nTotalLower) := by
    refine ⟨List.length_replicate, ?_, hTarget⟩
    rw [hTotal, ← length_amounts, selectedSum_replicate_true]
  exact bestInv_reduceBest hA (bestInv_subsetRounds hA flip iterations hStart)

/-- A best subset for a target is one for any lower target. -/
theorem BestInv.of_le {t t' : CAmount} {best : List Bool × CAmount} (h : BestInv vValue t' best)
    (hLe : t.toInt ≤ t'.toInt) : BestInv vValue t best :=
  ⟨h.length_eq, h.value_eq, hLe.trans h.target_le⟩

end SubsetSpec

/-! ## The loop over the coins -/

section ScanSpec

variable (IsFromMe : CTransaction → Bool) (nTargetValue : CAmount) (nConfMine nConfTheirs : Int)

/-- After the coins `done`: the coins below `nTargetValue + MIN_CHANGE` are
exactly the eligible ones, in order, with their total wrapped to `int64`; no
eligible coin is worth the target; and `coinLowestLarger` is an eligible coin
of at least `nTargetValue + MIN_CHANGE`, or there is none. -/
structure ScanInv (done : List COutput) (st : ScanState) : Prop where
  vValue_eq : st.vValue = ((done.filter (eligible IsFromMe nConfMine nConfTheirs)).filter
    fun o => decide (o.value < nTargetValue + MIN_CHANGE)).map COutput.coin
  total_eq : st.nTotalLower.toInt = (amounts st.vValue).sum.bmod (2 ^ 64)
  no_exact : ∀ o ∈ done, eligible IsFromMe nConfMine nConfTheirs o = true → o.value ≠ nTargetValue
  larger_none : st.coinLowestLarger.2 = none → st.coinLowestLarger.1 = Int64.maxValue ∧
    ∀ o ∈ done, eligible IsFromMe nConfMine nConfTheirs o = true →
      o.value < nTargetValue + MIN_CHANGE
  larger_some : ∀ c, st.coinLowestLarger.2 = some c → ∃ o ∈ done,
    eligible IsFromMe nConfMine nConfTheirs o = true ∧ (o.tx, o.i) = c ∧
      o.value = st.coinLowestLarger.1 ∧ nTargetValue + MIN_CHANGE ≤ o.value

variable {IsFromMe nTargetValue nConfMine nConfTheirs}

theorem scanInv_init : ScanInv IsFromMe nTargetValue nConfMine nConfTheirs [] ScanState.init :=
  ⟨rfl, rfl, fun _ h => absurd h List.not_mem_nil, fun _ => ⟨rfl, fun _ h => absurd h List.not_mem_nil⟩,
    fun _ h => by cases h⟩

theorem moneyRange_iff {n : CAmount} :
    MoneyRange n = true ↔ 0 ≤ n.toInt ∧ n.toInt ≤ 5319383146796600 := by
  have hMax : MAX_MONEY.toInt = 5319383146796600 := by decide
  simp only [MoneyRange, Bool.and_eq_true, decide_eq_true_eq, Int64.le_iff_toInt_le, hMax]
  rfl

/-- A value in the money range is below the largest `CAmount`. -/
theorem lt_maxValue_of_moneyRange {n : CAmount} (h : MoneyRange n = true) : n < Int64.maxValue := by
  rw [Int64.lt_iff_toInt_lt, Int64.toInt_maxValue]
  have := moneyRange_iff.1 h
  omega

/-- `nTargetValue + MIN_CHANGE` does not wrap for a target in the money range. -/
theorem toInt_add_MIN_CHANGE {n : CAmount} (h : MoneyRange n = true) :
    (n + MIN_CHANGE).toInt = n.toInt + 1000000 := by
  have hn := moneyRange_iff.1 h
  have hMin : MIN_CHANGE.toInt = 1000000 := by decide
  rw [toInt_add_of_bounds (by omega) (by omega), hMin]

section Step

variable {done : List COutput} {st : ScanState}
  (h : ScanInv IsFromMe nTargetValue nConfMine nConfTheirs done st) {o : COutput}
include h

/-- The coin `o` is not worth the target if eligible. -/
theorem ScanInv.no_exact_append
    (hNe : eligible IsFromMe nConfMine nConfTheirs o = true → o.value ≠ nTargetValue) :
    ∀ o' ∈ done ++ [o], eligible IsFromMe nConfMine nConfTheirs o' = true →
      o'.value ≠ nTargetValue :=
  List.forall_mem_append.2 ⟨h.no_exact, List.forall_mem_singleton.2 hNe⟩

/-- Without a larger coin, the coin `o` is below `nTargetValue + MIN_CHANGE` if eligible. -/
theorem ScanInv.larger_none_append
    (hSmall : eligible IsFromMe nConfMine nConfTheirs o = true → o.value < nTargetValue + MIN_CHANGE) :
    st.coinLowestLarger.2 = none → st.coinLowestLarger.1 = Int64.maxValue ∧
      ∀ o' ∈ done ++ [o], eligible IsFromMe nConfMine nConfTheirs o' = true →
        o'.value < nTargetValue + MIN_CHANGE := fun hNone =>
  ⟨(h.larger_none hNone).1,
    List.forall_mem_append.2 ⟨(h.larger_none hNone).2, List.forall_mem_singleton.2 hSmall⟩⟩

/-- A larger coin among `done` stays one among `done ++ [o]`. -/
theorem ScanInv.larger_some_append (o : COutput) :
    ∀ c, st.coinLowestLarger.2 = some c → ∃ o' ∈ done ++ [o],
      eligible IsFromMe nConfMine nConfTheirs o' = true ∧ (o'.tx, o'.i) = c ∧
        o'.value = st.coinLowestLarger.1 ∧ nTargetValue + MIN_CHANGE ≤ o'.value := fun c hc =>
  let ⟨o', hMem, hRest⟩ := h.larger_some c hc
  ⟨o', List.mem_append_left _ hMem, hRest⟩

/-- An output the loop skips leaves the state as it is. -/
theorem ScanInv.skip (ho : eligible IsFromMe nConfMine nConfTheirs o = false) :
    ScanInv IsFromMe nTargetValue nConfMine nConfTheirs (done ++ [o]) st := by
  have hNot : eligible IsFromMe nConfMine nConfTheirs o ≠ true := by rw [ho]; decide
  exact ⟨by simp [h.vValue_eq, ho], h.total_eq, h.no_exact_append fun he => absurd he hNot,
    h.larger_none_append fun he => absurd he hNot, h.larger_some_append o⟩

/-- An eligible coin below `nTargetValue + MIN_CHANGE` joins `vValue` and
its total. -/
theorem ScanInv.small (he : eligible IsFromMe nConfMine nConfTheirs o = true)
    (hNe : o.value ≠ nTargetValue) (hSmall : o.value < nTargetValue + MIN_CHANGE) :
    ScanInv IsFromMe nTargetValue nConfMine nConfTheirs (done ++ [o])
      { st with vValue := st.vValue ++ [o.coin], nTotalLower := st.nTotalLower + o.value } := by
  refine ⟨by simp [h.vValue_eq, he, hSmall], ?_, h.no_exact_append fun _ => hNe,
    h.larger_none_append fun _ => hSmall, h.larger_some_append o⟩
  show (st.nTotalLower + o.value).toInt = (amounts (st.vValue ++ [o.coin])).sum.bmod (2 ^ 64)
  rw [Int64.toInt_add, h.total_eq, Int.bmod_add_bmod]
  simp [amounts, COutput.coin]

/-- An eligible coin of at least `nTargetValue + MIN_CHANGE` below
`coinLowestLarger` replaces it. -/
theorem ScanInv.larger (he : eligible IsFromMe nConfMine nConfTheirs o = true)
    (hNe : o.value ≠ nTargetValue) (hBig : ¬ o.value < nTargetValue + MIN_CHANGE) :
    ScanInv IsFromMe nTargetValue nConfMine nConfTheirs (done ++ [o])
      { st with coinLowestLarger := (o.value, some (o.tx, o.i)) } := by
  have hLe : nTargetValue + MIN_CHANGE ≤ o.value := by
    rw [Int64.lt_iff_toInt_lt] at hBig
    rw [Int64.le_iff_toInt_le]
    omega
  refine ⟨by simp [h.vValue_eq, he, hBig], h.total_eq, h.no_exact_append fun _ => hNe,
    fun hNone => (by cases hNone), ?_⟩
  intro c hc
  cases hc
  exact ⟨o, List.mem_append_right _ List.mem_cons_self, he, rfl, rfl, hLe⟩

/-- An eligible coin larger than `coinLowestLarger` changes nothing. -/
theorem ScanInv.keep (he : eligible IsFromMe nConfMine nConfTheirs o = true)
    (hNe : o.value ≠ nTargetValue) (hBig : ¬ o.value < nTargetValue + MIN_CHANGE)
    (hAbove : ¬ o.value < st.coinLowestLarger.1) (hMax : o.value < Int64.maxValue) :
    ScanInv IsFromMe nTargetValue nConfMine nConfTheirs (done ++ [o]) st := by
  refine ⟨by simp [h.vValue_eq, he, hBig], h.total_eq, h.no_exact_append fun _ => hNe, ?_,
    h.larger_some_append o⟩
  intro hNone
  rw [(h.larger_none hNone).1] at hAbove
  exact absurd hMax hAbove

end Step

/-- The loop either returns an eligible coin worth exactly the target, or ends
with `ScanInv` over all the coins. -/
theorem scanCoins_spec (rest : List COutput) (hRange : ∀ o ∈ rest, MoneyRange o.value = true) :
    ∀ {done : List COutput} {st : ScanState},
      ScanInv IsFromMe nTargetValue nConfMine nConfTheirs done st →
      (∃ o ∈ rest, eligible IsFromMe nConfMine nConfTheirs o = true ∧ o.value = nTargetValue ∧
          scanCoins IsFromMe nTargetValue nConfMine nConfTheirs rest st = .inl o.coin) ∨
      (∃ st', scanCoins IsFromMe nTargetValue nConfMine nConfTheirs rest st = .inr st' ∧
          ScanInv IsFromMe nTargetValue nConfMine nConfTheirs (done ++ rest) st') := by
  induction rest with
  | nil => intro done st h; exact .inr ⟨st, rfl, by simpa using h⟩
  | cons o rest ih =>
    intro done st h
    have hRest : ∀ o' ∈ rest, MoneyRange o'.value = true :=
      fun o' ho' => hRange o' (List.mem_cons_of_mem o ho')
    have hNext : ∀ {st' : ScanState},
        ScanInv IsFromMe nTargetValue nConfMine nConfTheirs (done ++ [o]) st' →
        scanCoins IsFromMe nTargetValue nConfMine nConfTheirs (o :: rest) st =
          scanCoins IsFromMe nTargetValue nConfMine nConfTheirs rest st' →
        (∃ o' ∈ o :: rest, eligible IsFromMe nConfMine nConfTheirs o' = true ∧
            o'.value = nTargetValue ∧
            scanCoins IsFromMe nTargetValue nConfMine nConfTheirs (o :: rest) st = .inl o'.coin) ∨
        (∃ st'', scanCoins IsFromMe nTargetValue nConfMine nConfTheirs (o :: rest) st = .inr st'' ∧
            ScanInv IsFromMe nTargetValue nConfMine nConfTheirs (done ++ o :: rest) st'') := by
      intro st' h' hEq
      rw [hEq]
      rcases ih hRest h' with ⟨o', ho', he, hv, hRet⟩ | ⟨st'', hRet, hInv⟩
      · exact .inl ⟨o', List.mem_cons_of_mem o ho', he, hv, hRet⟩
      · exact .inr ⟨st'', hRet, by simpa using hInv⟩
    by_cases hSpend : o.fSpendable = true
    · by_cases hDepth : o.nDepth < (if IsFromMe o.tx then nConfMine else nConfTheirs)
      · exact hNext (h.skip (by simp [eligible, hDepth]))
          (by simp [scanCoins, hSpend, hDepth])
      · have he : eligible IsFromMe nConfMine nConfTheirs o = true := by
          simp [eligible, hSpend, hDepth]
        by_cases hExact : o.value = nTargetValue
        · exact .inl ⟨o, List.mem_cons_self, he, hExact, by simp [scanCoins, hSpend, hDepth, hExact]⟩
        · by_cases hSmall : o.value < nTargetValue + MIN_CHANGE
          · exact hNext (h.small he hExact hSmall)
              (by simp [scanCoins, hSpend, hDepth, hExact, hSmall])
          · by_cases hBelow : o.value < st.coinLowestLarger.1
            · exact hNext (h.larger he hExact hSmall)
                (by simp [scanCoins, hSpend, hDepth, hExact, hSmall, hBelow])
            · exact hNext (h.keep he hExact hSmall hBelow
                (lt_maxValue_of_moneyRange (hRange o List.mem_cons_self)))
                (by simp [scanCoins, hSpend, hDepth, hExact, hSmall, hBelow])
    · exact hNext (h.skip (by simp [eligible, hSpend])) (by simp [scanCoins, hSpend])

end ScanSpec

/-! ## What `SelectCoinsMinConf` returns -/

section Result

theorem addCoins_fst (coins : List (CAmount × OutPoint)) (acc : Finset OutPoint × CAmount) :
    (addCoins coins acc).1 = acc.1 ∪ (coins.map Prod.snd).toFinset := by
  induction coins generalizing acc with
  | nil => simp [addCoins]
  | cons c coins ih =>
    show (addCoins coins (insert c.2 acc.1, acc.2 + c.1)).1 = _
    rw [ih, List.map_cons, List.toFinset_cons, Finset.insert_union, Finset.union_insert]

/-- `addCoins` adds the coins' values, wrapped to `int64`. -/
theorem toInt_addCoins_snd (coins : List (CAmount × OutPoint)) (acc : Finset OutPoint × CAmount) :
    (addCoins coins acc).2.toInt =
      (acc.2.toInt + (coins.map fun c => c.1.toInt).sum).bmod (2 ^ 64) := by
  induction coins generalizing acc with
  | nil =>
    show acc.2.toInt = _
    rw [List.map_nil, List.sum_nil, add_zero, toInt_bmod_self]
  | cons c coins ih =>
    show (addCoins coins (insert c.2 acc.1, acc.2 + c.1)).2.toInt = _
    rw [ih, Int64.toInt_add, Int.bmod_add_bmod, List.map_cons, List.sum_cons, add_assoc]

/-- A selection from the eligible outputs `E`: outputs of `E`, whose values add
up to `nValueRet`, at least the target. -/
structure Selection (E : List COutput) (nTargetValue : CAmount) (r : Finset OutPoint × CAmount) :
    Prop where
  subset : r.1 ⊆ (E.map fun o => (o.tx, o.i)).toFinset
  value_eq : r.2.toInt = ∑ c ∈ r.1, (valueOf c).toInt
  target_le : nTargetValue ≤ r.2

section Selected

variable {E : List COutput} {nTargetValue : CAmount} (hNonneg : ∀ o ∈ E, 0 ≤ o.value.toInt)
include hNonneg

/-- Distinct coins of `E` worth at least the target, and less than `2 ^ 63`
in all, make a `Selection`: their sum does not wrap. -/
theorem selection_addCoins {coins : List (CAmount × OutPoint)}
    (hMem : ∀ c ∈ coins, c ∈ E.map COutput.coin) (hKeys : (coins.map Prod.snd).Nodup)
    (hBound : (coins.map fun c => c.1.toInt).sum < 2 ^ 63)
    (hTarget : nTargetValue.toInt ≤ (coins.map fun c => c.1.toInt).sum) :
    Selection E nTargetValue (addCoins coins (∅, 0)) := by
  have hSet : (addCoins coins (∅, 0)).1 = (coins.map Prod.snd).toFinset := by
    rw [addCoins_fst, Finset.empty_union]
  have hCoins : ∑ c ∈ (coins.map Prod.snd).toFinset, (valueOf c).toInt =
      (coins.map fun c => c.1.toInt).sum := by
    rw [List.sum_toFinset _ hKeys, List.map_map]
    refine congrArg List.sum (List.map_congr_left fun c hc => ?_)
    obtain ⟨_, _, rfl⟩ := List.mem_map.1 (hMem c hc)
    rfl
  have hSub : (coins.map Prod.snd).toFinset ⊆ (E.map fun o => (o.tx, o.i)).toFinset := by
    intro x hx
    obtain ⟨c, hc, rfl⟩ := List.mem_map.1 (List.mem_toFinset.1 hx)
    obtain ⟨o, ho, rfl⟩ := List.mem_map.1 (hMem c hc)
    exact List.mem_toFinset.2 (List.mem_map.2 ⟨o, ho, rfl⟩)
  have hLow : 0 ≤ (coins.map fun c => c.1.toInt).sum := by
    refine List.sum_nonneg fun x hx => ?_
    obtain ⟨c, hc, rfl⟩ := List.mem_map.1 hx
    obtain ⟨o, ho, rfl⟩ := List.mem_map.1 (hMem c hc)
    exact hNonneg o ho
  have hValue : (addCoins coins (∅, 0)).2.toInt = (coins.map fun c => c.1.toInt).sum := by
    rw [toInt_addCoins_snd, show ((∅, 0) : Finset OutPoint × CAmount).2.toInt = 0 from rfl,
      zero_add]
    exact bmod_of_bounds (by omega) (by omega)
  refine ⟨by rw [hSet]; exact hSub, by rw [hValue, hSet, hCoins], ?_⟩
  rw [Int64.le_iff_toInt_le, hValue]
  exact hTarget

end Selected

section Scanned

variable {IsFromMe : CTransaction → Bool} {nTargetValue : CAmount} {nConfMine nConfTheirs : Int}
  {vCoins : List COutput} (hDistinct : (vCoins.map fun o => (o.tx, o.i)).Nodup)
  (hRange : ∀ o ∈ vCoins, MoneyRange o.value = true)
  (hSum : (((vCoins.filter (eligible IsFromMe nConfMine nConfTheirs)).filter
    fun o => o.value < nTargetValue + MIN_CHANGE).map fun o => o.value.toInt).sum < 2 ^ 63)
  {st : ScanState} (h : ScanInv IsFromMe nTargetValue nConfMine nConfTheirs vCoins st)

section
include h

theorem ScanInv.mem_coin :
    ∀ c ∈ st.vValue, c ∈ (vCoins.filter (eligible IsFromMe nConfMine nConfTheirs)).map COutput.coin := by
  intro c hc
  rw [h.vValue_eq] at hc
  obtain ⟨o, ho, rfl⟩ := List.mem_map.1 hc
  exact List.mem_map_of_mem (List.mem_of_mem_filter ho)

include hDistinct in
theorem ScanInv.keys_nodup : (st.vValue.map Prod.snd).Nodup := by
  rw [h.vValue_eq, List.map_map]
  exact hDistinct.sublist ((List.filter_sublist.trans List.filter_sublist).map _)

/-- Without a larger coin, every eligible coin is below `nTargetValue + MIN_CHANGE`. -/
theorem ScanInv.lower_eq_of_none (hNone : st.coinLowestLarger.2 = none) :
    (amounts st.vValue).sum =
      ((vCoins.filter (eligible IsFromMe nConfMine nConfTheirs)).map fun o => o.value.toInt).sum := by
  have hAll : (vCoins.filter (eligible IsFromMe nConfMine nConfTheirs)).filter
      (fun o => decide (o.value < nTargetValue + MIN_CHANGE)) =
      vCoins.filter (eligible IsFromMe nConfMine nConfTheirs) := by
    refine List.filter_eq_self.2 fun o ho => ?_
    have hMem := List.mem_filter.1 ho
    exact decide_eq_true ((h.larger_none hNone).2 o hMem.1 hMem.2)
  rw [h.vValue_eq, hAll, amounts, List.map_map]
  rfl

include hSum in
theorem ScanInv.lower_sum_lt : (amounts st.vValue).sum < 2 ^ 63 := by
  rw [h.vValue_eq, amounts, List.map_map]
  exact hSum

end

include hRange in
theorem coin_nonneg {c : CAmount × OutPoint}
    (hc : c ∈ (vCoins.filter (eligible IsFromMe nConfMine nConfTheirs)).map COutput.coin) :
    0 ≤ c.1.toInt := by
  obtain ⟨o, ho, rfl⟩ := List.mem_map.1 hc
  exact (moneyRange_iff.1 (hRange o (List.mem_of_mem_filter ho))).1

section
include h hRange

theorem ScanInv.lower_sum_nonneg : 0 ≤ (amounts st.vValue).sum := by
  refine List.sum_nonneg fun x hx => ?_
  obtain ⟨c, hc, rfl⟩ := List.mem_map.1 hx
  exact coin_nonneg hRange (h.mem_coin c hc)

include hSum

/-- The smaller coins' total does not wrap. -/
theorem ScanInv.total_toInt : st.nTotalLower.toInt = (amounts st.vValue).sum := by
  rw [h.total_eq]
  exact bmod_of_bounds (by have := h.lower_sum_nonneg hRange; omega)
    (h.lower_sum_lt hSum)

/-- The smaller coins in any order, as `ApproximateBestSubset` needs them. -/
theorem ScanInv.amounts_perm {sorted : List (CAmount × OutPoint)} (hPerm : sorted.Perm st.vValue) :
    Amounts sorted := by
  refine ⟨fun x hx => ?_, ?_⟩
  · obtain ⟨c, hc, rfl⟩ := List.mem_map.1 hx
    exact coin_nonneg hRange (h.mem_coin c (hPerm.mem_iff.1 hc))
  · rw [amounts, (hPerm.map _).sum_eq]
    exact h.lower_sum_lt hSum

end

section
include hRange

/-- Distinct eligible coins worth at least the target, and less than
`2 ^ 63` in all, make a `Selection`. -/
theorem selection_eligible {coins : List (CAmount × OutPoint)}
    (hMem : ∀ c ∈ coins, c ∈ (vCoins.filter (eligible IsFromMe nConfMine nConfTheirs)).map COutput.coin)
    (hKeys : (coins.map Prod.snd).Nodup) (hBound : (coins.map fun c => c.1.toInt).sum < 2 ^ 63)
    (hTarget : nTargetValue.toInt ≤ (coins.map fun c => c.1.toInt).sum) :
    Selection (vCoins.filter (eligible IsFromMe nConfMine nConfTheirs)) nTargetValue
      (addCoins coins (∅, 0)) :=
  selection_addCoins (fun _ ho => coin_nonneg hRange (List.mem_map_of_mem ho)) hMem hKeys hBound
    hTarget

/-- The exit at a coin of exactly the target. -/
theorem selection_exact {o : COutput} (ho : o ∈ vCoins)
    (he : eligible IsFromMe nConfMine nConfTheirs o = true) (hv : o.value = nTargetValue) :
    Selection (vCoins.filter (eligible IsFromMe nConfMine nConfTheirs)) nTargetValue
      (addCoins [o.coin] (∅, 0)) := by
  refine selection_eligible hRange (fun c hc => ?_) (List.nodup_singleton _)
    (by simpa using Int64.toInt_lt o.coin.1) (by simp [COutput.coin, hv])
  rw [List.mem_singleton.1 hc]
  exact List.mem_map_of_mem (List.mem_filter.2 ⟨ho, he⟩)

include h

/-- The exits that take the smallest coin of at least `nTargetValue + MIN_CHANGE`. -/
theorem ScanInv.selection_larger (hTarget : MoneyRange nTargetValue = true) {c : OutPoint}
    (hc : st.coinLowestLarger.2 = some c) :
    Selection (vCoins.filter (eligible IsFromMe nConfMine nConfTheirs)) nTargetValue
      (addCoins [(st.coinLowestLarger.1, c)] (∅, 0)) := by
  obtain ⟨o, ho, he, hoc, hov, hLe⟩ := h.larger_some c hc
  have hCoin : (st.coinLowestLarger.1, c) = o.coin := by rw [← hov, ← hoc]; rfl
  refine selection_eligible hRange (fun c' hc' => ?_) (List.nodup_singleton _)
    (by simpa using Int64.toInt_lt st.coinLowestLarger.1) ?_
  · rw [List.mem_singleton.1 hc', hCoin]
    exact List.mem_map_of_mem (List.mem_filter.2 ⟨ho, he⟩)
  · rw [Int64.le_iff_toInt_le, toInt_add_MIN_CHANGE hTarget] at hLe
    simp only [List.map_singleton, List.sum_singleton]
    rw [← hov]
    omega

include hDistinct hSum

/-- The exit where the smaller coins make the target exactly. -/
theorem ScanInv.selection_lower (hEq : st.nTotalLower = nTargetValue) :
    Selection (vCoins.filter (eligible IsFromMe nConfMine nConfTheirs)) nTargetValue
      (addCoins st.vValue (∅, 0)) := by
  refine selection_eligible hRange h.mem_coin (h.keys_nodup hDistinct)
    (h.lower_sum_lt hSum) ?_
  rw [← hEq, h.total_toInt hRange hSum]
  exact le_rfl

/-- The exit that takes the subset `ApproximateBestSubset` found: at most
the smaller coins, so less than `2 ^ 63` in all. -/
theorem ScanInv.selection_subset {sorted : List (CAmount × OutPoint)}
    (hPerm : sorted.Perm st.vValue) {best : List Bool × CAmount}
    (hBest : BestInv sorted nTargetValue best) :
    Selection (vCoins.filter (eligible IsFromMe nConfMine nConfTheirs)) nTargetValue
      (addCoins (((sorted.zip best.1).filter (·.2)).map Prod.fst) (∅, 0)) := by
  have hSel := zip_filter_map_fst_sublist sorted best.1
  have hSelected : ((((sorted.zip best.1).filter (·.2)).map Prod.fst).map
      fun c => c.1.toInt).sum = selectedSum (amounts sorted) best.1 := by
    rw [amounts, selectedSum_map, List.map_map]
  refine selection_eligible hRange
    (fun c hc => h.mem_coin c (hPerm.mem_iff.1 (hSel.subset hc))) ?_ ?_ ?_
  · exact ((hPerm.map Prod.snd).nodup_iff.2 (h.keys_nodup hDistinct)).sublist (hSel.map _)
  · rw [hSelected]
    exact (h.amounts_perm hRange hSum hPerm).selected_lt best.1
  · rw [hSelected, ← hBest.value_eq]
    exact hBest.target_le

end

include h hRange hSum in
/-- The two searches give a best subset for the target: the second, for
`nTargetValue + MIN_CHANGE`, runs only when the smaller coins reach that. -/
theorem ScanInv.bestInv_search (hTarget : MoneyRange nTargetValue = true)
    (hGt : nTargetValue.toInt < st.nTotalLower.toInt) (flip1 flip2 : Nat → Nat → Bool)
    {sorted : List (CAmount × OutPoint)} (hPerm : sorted.Perm st.vValue) {c : Prop} [Decidable c]
    (hc : c → nTargetValue + MIN_CHANGE ≤ st.nTotalLower) :
    BestInv sorted nTargetValue
      (if c then ApproximateBestSubset sorted (nTargetValue + MIN_CHANGE) flip2 st.nTotalLower 1000
      else ApproximateBestSubset sorted nTargetValue flip1 st.nTotalLower 1000) := by
  have hA := h.amounts_perm hRange hSum hPerm
  have hTotal : st.nTotalLower.toInt = (amounts sorted).sum := by
    rw [h.total_toInt hRange hSum, amounts, amounts, (hPerm.map _).sum_eq]
  split
  · next hC =>
    have hLe := Int64.le_iff_toInt_le.1 (hc hC)
    refine (ApproximateBestSubset_spec hA flip2 hTotal hLe 1000).of_le ?_
    rw [toInt_add_MIN_CHANGE hTarget]
    omega
  · exact ApproximateBestSubset_spec hA flip1 hTotal hGt.le 1000

end Scanned

end Result

section Exits

variable {IsFromMe : CTransaction → Bool} {flip1 flip2 : Nat → Nat → Bool} {nTargetValue : CAmount}
  {nConfMine nConfTheirs : Int} {vCoins : List COutput} (hTarget : MoneyRange nTargetValue = true)
  (hDistinct : (vCoins.map fun o => (o.tx, o.i)).Nodup)
  (hRange : ∀ o ∈ vCoins, MoneyRange o.value = true)
  (hSum : (((vCoins.filter (eligible IsFromMe nConfMine nConfTheirs)).filter
    fun o => o.value < nTargetValue + MIN_CHANGE).map fun o => o.value.toInt).sum < 2 ^ 63)

include hTarget hDistinct hRange hSum in
/-- Every exit that returns true returns a `Selection`. -/
theorem selectCoinsMinConf_sound {r : Finset OutPoint × CAmount}
    (hs : SelectCoinsMinConf IsFromMe flip1 flip2 nTargetValue nConfMine nConfTheirs vCoins = some r) :
    Selection (vCoins.filter (eligible IsFromMe nConfMine nConfTheirs)) nTargetValue r := by
  unfold SelectCoinsMinConf at hs
  rcases scanCoins_spec vCoins hRange scanInv_init with ⟨o, ho, he, hv, hRet⟩ | ⟨st, hRet, h⟩
  · -- A coin of exactly the target.
    rw [hRet] at hs
    rw [← Option.some.inj hs]
    exact selection_exact hRange ho he hv
  rw [List.nil_append] at h
  rw [hRet] at hs
  dsimp -zeta only at hs
  split at hs
  · next hEq =>
    rw [← Option.some.inj hs]
    exact h.selection_lower hDistinct hRange hSum hEq
  · split at hs
    · -- The smaller coins fall short: the larger coin, if any.
      split at hs
      · cases hs
      · next c hc =>
        rw [← Option.some.inj hs]
        exact h.selection_larger hRange hTarget hc
    · next hNe hNotLt =>
      extract_lets sorted best1 best2 at hs
      have hPerm : sorted.Perm st.vValue := List.mergeSort_perm _ _
      have hBest : BestInv sorted nTargetValue best2 :=
        h.bestInv_search hRange hSum hTarget (toInt_lt_of_ne_of_not_lt hNe hNotLt) flip1 flip2
          hPerm fun hC => hC.2
      split at hs
      · next c hc =>
        split at hs
        · rw [← Option.some.inj hs]
          exact h.selection_larger hRange hTarget hc
        · rw [← Option.some.inj hs]
          exact h.selection_subset hDistinct hRange hSum hPerm hBest
      · rw [← Option.some.inj hs]
        exact h.selection_subset hDistinct hRange hSum hPerm hBest

include hRange hSum in
/-- Only the exit with no larger coin returns false, and there the eligible
coins are exactly the smaller ones, whose total fell short. -/
theorem selectCoinsMinConf_complete
    (hs : SelectCoinsMinConf IsFromMe flip1 flip2 nTargetValue nConfMine nConfTheirs vCoins = none) :
    ((vCoins.filter (eligible IsFromMe nConfMine nConfTheirs)).map fun o => o.value.toInt).sum <
      nTargetValue.toInt := by
  unfold SelectCoinsMinConf at hs
  rcases scanCoins_spec vCoins hRange scanInv_init with ⟨o, -, -, -, hRet⟩ | ⟨st, hRet, h⟩
  · rw [hRet] at hs
    cases hs
  rw [List.nil_append] at h
  rw [hRet] at hs
  dsimp -zeta only at hs
  split at hs
  · cases hs
  · split at hs
    · next hNe hLt =>
      split at hs
      · next hNone =>
        rw [← h.lower_eq_of_none hNone, ← h.total_toInt hRange hSum]
        exact Int64.lt_iff_toInt_lt.1 hLt
      · cases hs
    · extract_lets sorted best1 best2 at hs
      split at hs
      · split at hs <;> cases hs
      · cases hs

end Exits

/-- Coin selection is sound, and complete while the eligible coins' total fits
in `int64`: a result is a set of eligible outputs whose values add up to
`nValueRet ≥ nTargetValue`, and there is none only when the eligible coins
total less than the target. -/
theorem selectCoins_sound_complete (IsFromMe : CTransaction → Bool) (flip1 flip2 : Nat → Nat → Bool)
    (nTargetValue : CAmount) (nConfMine nConfTheirs : Int) (vCoins : List COutput)
    (hPos : 0 < nTargetValue) (hMax : nTargetValue ≤ MAX_MONEY)
    (hDistinct : (vCoins.map fun o => (o.tx, o.i)).Nodup)
    (hRange : ∀ o ∈ vCoins, MoneyRange o.value = true)
    (hSum : (((vCoins.filter (eligible IsFromMe nConfMine nConfTheirs)).filter
      fun o => o.value < nTargetValue + MIN_CHANGE).map fun o => o.value.toInt).sum < 2 ^ 63) :
    (∀ setCoinsRet nValueRet,
      SelectCoinsMinConf IsFromMe flip1 flip2 nTargetValue nConfMine nConfTheirs vCoins =
          some (setCoinsRet, nValueRet) →
        setCoinsRet ⊆ ((vCoins.filter (eligible IsFromMe nConfMine nConfTheirs)).map
            fun o => (o.tx, o.i)).toFinset ∧
          nValueRet.toInt = ∑ c ∈ setCoinsRet, (valueOf c).toInt ∧ nTargetValue ≤ nValueRet) ∧
    (SelectCoinsMinConf IsFromMe flip1 flip2 nTargetValue nConfMine nConfTheirs vCoins = none →
      ((vCoins.filter (eligible IsFromMe nConfMine nConfTheirs)).map fun o => o.value.toInt).sum <
        nTargetValue.toInt) := by
  have hTarget : MoneyRange nTargetValue = true := by
    simp only [MoneyRange, Bool.and_eq_true, decide_eq_true_eq]
    exact ⟨Int64.le_of_lt hPos, hMax⟩
  refine ⟨fun setCoinsRet nValueRet hs => ?_, selectCoinsMinConf_complete hRange hSum⟩
  have hSel := selectCoinsMinConf_sound hTarget hDistinct hRange hSum hs
  exact ⟨hSel.subset, hSel.value_eq, hSel.target_le⟩

/-- A wallet transaction with outputs of one and two coins. -/
def twoCoinTx : CTransaction := ⟨1, [], [⟨COIN, []⟩, ⟨2 * COIN, []⟩], 0⟩

theorem selectCoins_sound_complete_twoCoins :
    (∀ setCoinsRet nValueRet,
      SelectCoinsMinConf (fun _ => true) (fun _ _ => true) (fun _ _ => false) (2 * COIN) 1 1
          [⟨twoCoinTx, 0, 1, true⟩, ⟨twoCoinTx, 1, 1, true⟩] = some (setCoinsRet, nValueRet) →
        setCoinsRet ⊆ {(twoCoinTx, 0), (twoCoinTx, 1)} ∧
          nValueRet.toInt = ∑ c ∈ setCoinsRet, (valueOf c).toInt ∧ 2 * COIN ≤ nValueRet) ∧
    (SelectCoinsMinConf (fun _ => true) (fun _ _ => true) (fun _ _ => false) (2 * COIN) 1 1
        [⟨twoCoinTx, 0, 1, true⟩, ⟨twoCoinTx, 1, 1, true⟩] = none →
      COIN.toInt + (2 * COIN).toInt < (2 * COIN).toInt) :=
  selectCoins_sound_complete (fun _ => true) (fun _ _ => true) (fun _ _ => false) (2 * COIN) 1 1
    [⟨twoCoinTx, 0, 1, true⟩, ⟨twoCoinTx, 1, 1, true⟩] (by decide) (by decide) (by decide)
    (by decide) (by decide)

/-- The exit that returns false: the smaller coins fall short and there is no
larger coin. -/
theorem selectCoinsMinConf_eq_none {IsFromMe : CTransaction → Bool} {flip1 flip2 : Nat → Nat → Bool}
    {nTargetValue : CAmount} {nConfMine nConfTheirs : Int} {vCoins : List COutput} {st : ScanState}
    (hRet : scanCoins IsFromMe nTargetValue nConfMine nConfTheirs vCoins ScanState.init = .inr st)
    (hLt : st.nTotalLower < nTargetValue) (hNone : st.coinLowestLarger.2 = none) :
    SelectCoinsMinConf IsFromMe flip1 flip2 nTargetValue nConfMine nConfTheirs vCoins = none := by
  have hNe : st.nTotalLower ≠ nTargetValue := fun hEq => by
    rw [hEq, Int64.lt_iff_toInt_lt] at hLt
    exact lt_irrefl _ hLt
  unfold SelectCoinsMinConf
  rw [hRet]
  dsimp -zeta only
  rw [if_neg hNe, if_pos hLt, hNone]

/-- A wallet transaction with 1734 outputs of `MAX_MONEY - 1`. -/
def overflowTx : CTransaction := ⟨1, [], List.replicate 1734 ⟨MAX_MONEY - 1, []⟩, 0⟩

/-- Its outputs, spendable and confirmed. -/
def overflowCoins : List COutput := (List.range 1734).map fun k => ⟨overflowTx, k, 1, true⟩

theorem mem_overflowCoins {o : COutput} (ho : o ∈ overflowCoins) :
    o.value = MAX_MONEY - 1 ∧ eligible (fun _ => true) 1 1 o = true := by
  obtain ⟨k, hk, rfl⟩ := List.mem_map.1 ho
  refine ⟨?_, rfl⟩
  have hk' : k < (List.replicate 1734 (⟨MAX_MONEY - 1, []⟩ : CTxOut)).length := by
    rw [List.length_replicate]
    exact List.mem_range.1 hk
  show ((List.replicate 1734 (⟨MAX_MONEY - 1, []⟩ : CTxOut)).getD k CTxOut.null).nValue = _
  rw [List.getD_eq_getElem _ _ hk', List.getElem_replicate]

/-- The 1734 coins exceed `MAX_MONEY`, but their `int64` total wraps to a
negative value below the target, and with no larger coin the selection fails. -/
theorem selectCoins_overflow :
    0 < MAX_MONEY ∧ (overflowCoins.map fun o => (o.tx, o.i)).Nodup ∧
      (∀ o ∈ overflowCoins, MoneyRange o.value = true) ∧
      SelectCoinsMinConf (fun _ => true) (fun _ _ => true) (fun _ _ => true) MAX_MONEY 1 1
        overflowCoins = none ∧
      MAX_MONEY.toInt ≤
        ((overflowCoins.filter (eligible (fun _ => true) 1 1)).map fun o => o.value.toInt).sum := by
  have hRange : ∀ o ∈ overflowCoins, MoneyRange o.value = true := by
    intro o ho
    rw [(mem_overflowCoins ho).1]
    decide
  have hSum : ((overflowCoins.filter (eligible (fun _ => true) 1 1)).map
      fun o => o.value.toInt).sum = 1734 * 5319383146796599 := by
    have hAll : overflowCoins.filter (eligible (fun _ => true) 1 1) = overflowCoins :=
      List.filter_eq_self.2 fun o ho => (mem_overflowCoins ho).2
    have hConst : overflowCoins.map (fun o => o.value.toInt) =
        overflowCoins.map fun _ => (MAX_MONEY - 1).toInt :=
      List.map_congr_left fun o ho => by rw [(mem_overflowCoins ho).1]
    rw [hAll, hConst, List.map_const', List.sum_replicate]
    simp only [overflowCoins, List.length_map, List.length_range, nsmul_eq_mul]
    decide
  have hKeys : (overflowCoins.map fun o => (o.tx, o.i)).Nodup := by
    rw [overflowCoins, List.map_map]
    exact List.nodup_range.map fun a b hab => (Prod.ext_iff.1 hab).2
  have hInit : ScanInv (fun _ => true) MAX_MONEY 1 1 [] ScanState.init := scanInv_init
  rcases scanCoins_spec overflowCoins hRange hInit with ⟨o, ho, _, hv, _⟩ | ⟨st, hRet, h⟩
  · -- No coin is worth exactly `MAX_MONEY`.
    exact absurd ((mem_overflowCoins ho).1.symm.trans hv) (by decide)
  rw [List.nil_append] at h
  have hNone : st.coinLowestLarger.2 = none := by
    cases hc : st.coinLowestLarger.2 with
    | none => rfl
    | some c =>
      obtain ⟨o, ho, _, _, _, hLe⟩ := h.larger_some c hc
      rw [(mem_overflowCoins ho).1] at hLe
      exact absurd hLe (by decide)
  have hTotal : st.nTotalLower.toInt = -9222933697164248950 := by
    rw [h.total_eq, h.lower_eq_of_none hNone, hSum]
    decide
  have hLt : st.nTotalLower < MAX_MONEY := by
    rw [Int64.lt_iff_toInt_lt, hTotal]
    decide
  exact ⟨by decide, hKeys, hRange, selectCoinsMinConf_eq_none hRet hLt hNone, by rw [hSum]; decide⟩

end FairCoin.Ports.CoinSelection
