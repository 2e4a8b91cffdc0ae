import FairCoin.Ports.BlockCheck

/-!
# Connecting and disconnecting a block

`ConnectBlock` and `DisconnectBlock` of `main.cpp` over the coins view of
`FairCoin.Ports.Coins`. `ConnectBlock` checks the block again, refuses to
overwrite an unspent entry (BIP30), runs every transaction of `vtx` through
the input checks and `UpdateCoins`, collecting the undo data of all
transactions but the first, and checks the coin supply and the coinbase
value. `DisconnectBlock` walks `vtx` backwards, clears each transaction's
entry and writes the spent outputs back from the undo data.

BIP30, the coinbase-value check and the undo walk run only for blocks with
`TX_PAYLOAD`; the transaction loop and `UpdateCoins` run for every block.

## Main results

* `disconnectBlock_connectBlock` — for a block with `TX_PAYLOAD`, distinct
  transaction ids and a view of well-formed entries, disconnecting what
  `ConnectBlock` connected returns clean and gives back the view, entry by
  entry under `operator==`, at the parent.
* `connectBlock_mints_unchecked_coinbase` — a block without `TX_PAYLOAD`
  whose only transaction is a coinbase adds the coinbase's entry, whatever its
  values, and spends nothing.
* `disconnectBlock_keeps_nonTx_coinbase` — disconnecting such a block returns
  clean and leaves the coinbase's entry in the view.
-/

namespace FairCoin.Ports.Chainstate

open FairCoin.Verified FairCoin.Verified.Checks FairCoin.Ports.Primitives
open FairCoin.Ports.PocState FairCoin.Ports.AdminSignature FairCoin.Ports.Coins
open FairCoin.Ports.BlockCheck

/-! ## Connecting -/

/-- The running state of `ConnectBlock`'s transaction loop: the view, the
fees, the signature operations counted and the undo data so far. -/
structure ConnectState where
  view : CCoinsViewCache
  nFees : CAmount
  nSigOps : Nat
  vtxundo : List CTxUndo

/-- The checks of `ConnectBlock`'s loop on a transaction that spends inputs:
the inputs are there, the pay-to-script-hash operations stay within the
limit, the fee is added, and `CheckInputs` passes. The spend height of
`CheckInputs` is that of the block being connected, since the view is at its
parent. Returns the operation count and the fees after the transaction. -/
def checkSpendingTx (env : BlockEnv) (g : PocGlobals) (nHeight : Int32) (fScriptChecks : Bool)
    (view : CCoinsViewCache) (nSigOps : Nat) (nFees : CAmount) (tx : CTransaction) :
    Except ValidationError (Nat × CAmount) := do
  failIf (!HaveInputs view tx) (.invalid "bad-txns-inputs-missingorspent")
  failIf (nSigOps + env.p2shSigOps tx view > MAX_BLOCK_SIGOPS g.dynParams)
    (.invalid "bad-blk-sigops")
  let nValueIn ← orFail (GetValueIn view tx) .assertion
  let nValueOut ← orFail tx.getValueOut .exception
  CheckTxInputs tx view nHeight g.dynParams.nCoinbaseMaturity
  failIf (fScriptChecks && !env.verifyScripts tx view)
    (.invalid "mandatory-script-verify-flag-failed")
  return (nSigOps + env.p2shSigOps tx view, nFees + (nValueIn - nValueOut))

/-- One round of `ConnectBlock`'s transaction loop. `fFirst` marks `vtx[0]`,
whose undo data goes to a dummy; `UpdateCoins` failing is its
`assert(ret)` on a spend. -/
def connectTx (env : BlockEnv) (g : PocGlobals) (nHeight : Int32) (fScriptChecks : Bool)
    (st : ConnectState) (fFirst : Bool) (tx : CTransaction) :
    Except ValidationError ConnectState := do
  failIf (st.nSigOps + env.legacySigOps tx > MAX_BLOCK_SIGOPS g.dynParams)
    (.invalid "bad-blk-sigops")
  let (nSigOps, nFees) ← (if tx.isCoinBase then pure (st.nSigOps + env.legacySigOps tx, st.nFees)
    else checkSpendingTx env g nHeight fScriptChecks st.view (st.nSigOps + env.legacySigOps tx)
      st.nFees tx)
  let (txundo, view) ← orFail (UpdateCoins env.txid tx st.view nHeight) .assertion
  return ⟨view, nFees, nSigOps, if fFirst then st.vtxundo else st.vtxundo ++ [txundo]⟩

/-- `ConnectBlock`'s transaction loop over `vtx`. -/
def connectTxs (env : BlockEnv) (g : PocGlobals) (nHeight : Int32) (fScriptChecks : Bool) :
    ConnectState → Bool → List CTransaction → Except ValidationError ConnectState
  | st, _, [] => .ok st
  | st, fFirst, tx :: rest =>
    connectTx env g nHeight fScriptChecks st fFirst tx >>= fun st' =>
      connectTxs env g nHeight fScriptChecks st' false rest

/-- The coin-supply checks of `ConnectBlock`, for blocks with
`COIN_SUPPLY_PAYLOAD`: the coinbase's second output pays the supply to its
destination, every admin signed, the amount is in range and the supply is not
yet final. Returns the fees with the supply added. -/
def checkCoinSupply (g : PocGlobals) (block : CBlock) (nFees : CAmount) :
    Except ValidationError CAmount := do
  let tx0 ← orFail block.vtx.head? .outOfRange
  failIf (tx0.vout.length != 2) (.invalid "bad-cs-size")
  let txout1 ← orFail tx0.vout[1]? .outOfRange
  failIf (txout1.nValue != block.coinSupply.nValue) (.invalid "bad-cs-amount")
  failIf (txout1.scriptPubKey != block.coinSupply.scriptDestination) (.invalid "bad-cs-script")
  failIf block.vAdminIds.isEmpty (.invalid "bad-cs-nosig")
  failIf (block.vAdminIds.length != g.mapChainAdmins.size) (.invalid "bad-cs-nosigall")
  failIf (!MoneyRange block.coinSupply.nValue) (.invalid "bad-cs-amountoutofrange")
  failIf g.fCoinSupplyFinal (.invalid "coins-supply-final")
  return nFees + block.coinSupply.nValue

/-- `ConnectBlock`, not `fJustCheck`: the block checked again, the view at
the parent (`hashPrevBlock`), no unspent entry overwritten, every transaction
connected, the coin supply and the coinbase value checked. Returns the undo
data written to disk and the view at the block. `fScriptChecks` is off for
ancestors of the last checkpoint. -/
def ConnectBlock (env : BlockEnv) (ec : PocCrypto) (g : PocGlobals) (block : CBlock)
    (pindex : CBlockIndex) (hashPrevBlock : uint256) (view : CCoinsViewCache)
    (fScriptChecks : Bool) : Except ValidationError (CBlockUndo × CCoinsViewCache) := do
  let _ ← CheckBlock env ec g block true true
  failIf (hashPrevBlock != view.hashBestBlock) .assertion
  onlyIf block.hasTx (failIf (block.vtx.any fun tx => !(view.coins (env.txid tx)).isPruned)
    (.invalid "bad-txns-BIP30"))
  let st ← connectTxs env g pindex.nHeight fScriptChecks ⟨view, 0, 0, []⟩ true block.vtx
  let nFees ← (if block.hasCoinSupplyPayload then checkCoinSupply g block st.nFees
    else pure st.nFees)
  onlyIf block.hasTx (do
    let tx0 ← orFail block.vtx.head? .outOfRange
    let nValueOut ← orFail tx0.getValueOut .exception
    failIf (nValueOut > nFees) (.invalid "bad-cb-amount"))
  return (⟨st.vtxundo⟩, st.view.setBestBlock pindex.hashBlock)

/-! ## Disconnecting -/

/-- The clean check of `DisconnectBlock` on a transaction's entry: after
`ClearUnspendable` it must equal `CCoins(tx, nHeight)`, with a negative
version copied over first (the entry's serialization drops the sign). -/
def outputsMatch (outs outsBlock : CCoins) : Bool :=
  (if outsBlock.nVersion < 0 then { outs with nVersion := outsBlock.nVersion } else outs).coinsEq
    outsBlock

/-- One round of `DisconnectBlock`'s loop: check and clear the transaction's
entry, then (for all but the coinbase, which has no undo data) write its
spent outputs back, the last input first. -/
def disconnectTx (txid : CTransaction → uint256) (nHeight : Int32) (view : CCoinsViewCache)
    (tx : CTransaction) (txundo? : Option CTxUndo) : Option (Bool × CCoinsViewCache) :=
  match txundo? with
  | none =>
    some (outputsMatch (view.coins (txid tx)).clearUnspendable (CCoins.fromTx tx nHeight),
      view.setCoins (txid tx) CCoins.clear)
  | some txundo =>
    if txundo.vprevout.length != tx.vin.length then none
    else
      some (outputsMatch (view.coins (txid tx)).clearUnspendable (CCoins.fromTx tx nHeight) &&
          (applyTxUndo (view.setCoins (txid tx) CCoins.clear)
            (tx.vin.zip txundo.vprevout).reverse).1,
        (applyTxUndo (view.setCoins (txid tx) CCoins.clear) (tx.vin.zip txundo.vprevout).reverse).2)

/-- `DisconnectBlock`'s loop, over the transactions paired with their undo
data in the order they are undone. -/
def disconnectTxs (txid : CTransaction → uint256) (nHeight : Int32) (view : CCoinsViewCache) :
    List (CTransaction × Option CTxUndo) → Option (Bool × CCoinsViewCache)
  | [] => some (true, view)
  | (tx, txundo?) :: rest =>
    match disconnectTx txid nHeight view tx txundo? with
    | none => none
    | some (fClean, view') =>
      match disconnectTxs txid nHeight view' rest with
      | none => none
      | some (fCleanRest, view'') => some (fClean && fCleanRest, view'')

/-- `DisconnectBlock` with the undo data `blockUndo` read from disk: whether
it was clean, and the view at the parent `hashPrevBlock`; `none` where the
code fails (undo data inconsistent with the block, or the view not at the
block). A block without `TX_PAYLOAD` only moves the best block. -/
def DisconnectBlock (env : BlockEnv) (block : CBlock) (pindex : CBlockIndex)
    (hashPrevBlock : uint256) (view : CCoinsViewCache) (blockUndo : CBlockUndo) :
    Option (Bool × CCoinsViewCache) :=
  if pindex.hashBlock != view.hashBestBlock then none
  else if !block.hasTx then some (true, view.setBestBlock hashPrevBlock)
  else if blockUndo.vtxundo.length + 1 != block.vtx.length then none
  else
    match disconnectTxs env.txid pindex.nHeight view
        (block.vtx.zip (none :: blockUndo.vtxundo.map some)).reverse with
    | none => none
    | some (fClean, view') => some (fClean, view'.setBestBlock hashPrevBlock)

/-! ## One transaction: connecting -/

/-- What a round of the transaction loop does to the view and the undo data,
when it succeeds: `UpdateCoins` ran, and its undo data was kept unless the
transaction is the first. -/
theorem connectTx_eq_ok {env : BlockEnv} {g : PocGlobals} {nHeight : Int32}
    {fScriptChecks : Bool} {st st' : ConnectState} {fFirst : Bool} {tx : CTransaction}
    (h : connectTx env g nHeight fScriptChecks st fFirst tx = .ok st') :
    ∃ txundo, UpdateCoins env.txid tx st.view nHeight = some (txundo, st'.view) ∧
      st'.vtxundo = if fFirst then st.vtxundo else st.vtxundo ++ [txundo] := by
  simp only [connectTx, bind_eq_ok, failIf_eq_ok, orFail_eq_ok, pure_eq_ok] at h
  obtain ⟨-, -, -, -, ⟨txundo, view⟩, hUpdate, rfl⟩ := h
  exact ⟨txundo, hUpdate, rfl⟩

/-- A coinbase within the operation limit is connected with no check of its
outputs: its entry is written and the fees stay as they are. -/
theorem connectTx_coinbase {env : BlockEnv} {g : PocGlobals} {nHeight : Int32}
    {fScriptChecks : Bool} {st : ConnectState} {fFirst : Bool} {tx : CTransaction}
    (hCb : tx.isCoinBase = true)
    (hSigOps : st.nSigOps + env.legacySigOps tx ≤ MAX_BLOCK_SIGOPS g.dynParams) :
    connectTx env g nHeight fScriptChecks st fFirst tx =
      .ok ⟨st.view.setCoins (env.txid tx) (CCoins.fromTx tx nHeight), st.nFees,
        st.nSigOps + env.legacySigOps tx, if fFirst then st.vtxundo else st.vtxundo ++ [⟨[]⟩]⟩ := by
  have hGuard : decide (st.nSigOps + env.legacySigOps tx > MAX_BLOCK_SIGOPS g.dynParams) = false := by
    simpa using hSigOps
  simp only [connectTx, failIf, hGuard, hCb, UpdateCoins, if_true, orFail, Bool.false_eq_true,
    if_false]
  rfl

/-! ## One transaction: disconnecting what was connected -/

theorem outputsMatch_self (c : CCoins) : outputsMatch c c = true := by
  unfold outputsMatch
  split <;> exact coinsEq_self c

/-- Undoing a transaction that `UpdateCoins` connected, in a view where
the entries `T` of later transactions are already cleared: the entry matches
the block, and clearing it and writing back the spent outputs gives the view
before the transaction with `T` and the transaction's own entry cleared. The
entries cleared must have been pruned before, so that no input spent from
them. -/
theorem disconnectTx_UpdateCoins {txid : CTransaction → uint256} {tx : CTransaction}
    {view : CCoinsViewCache} (hView : ViewWF view) {nHeight : Int32} {txundo : CTxUndo}
    {view1 : CCoinsViewCache} (hUpdate : UpdateCoins txid tx view nHeight = some (txundo, view1))
    {T : List uint256} (hT : txid tx ∉ T)
    (hPruned : ∀ k ∈ txid tx :: T, (view.coins k).isPruned = true) :
    disconnectTx txid nHeight (clearAll view1 T) tx (if tx.isCoinBase then none else some txundo) =
      some (true, clearAll view (txid tx :: T)) := by
  obtain ⟨spent, hSpent, rfl⟩ := UpdateCoins_eq_some hUpdate
  -- the entry is the one `UpdateCoins` wrote, and clearing it loses that write
  have hMatch : outputsMatch ((clearAll (spent.setCoins (txid tx) (CCoins.fromTx tx nHeight)) T).coins
      (txid tx)).clearUnspendable (CCoins.fromTx tx nHeight) = true := by
    rw [coins_clearAll, if_neg hT, CCoinsViewCache.coins_setCoins, Function.update_self,
      CCoins.fromTx, clearUnspendable_clearUnspendable]
    exact outputsMatch_self _
  have hCleared : (clearAll (spent.setCoins (txid tx) (CCoins.fromTx tx nHeight)) T).setCoins (txid tx)
      CCoins.clear = clearAll spent (txid tx :: T) := by
    rw [setCoins_clear_clearAll, clearAll_setCoins_of_mem _ List.mem_cons_self]
  split at hSpent
  · next hCb =>
    obtain ⟨-, rfl⟩ := hSpent
    simp only [hCb, if_true, disconnectTx, hMatch, hCleared]
  · next hCb =>
    have hPrevouts : ∀ p ∈ (tx.vin.zip txundo.vprevout).reverse, p.1.prevout.hash ∉ txid tx :: T := by
      intro p hp hMem
      have hIn : p.1 ∈ tx.vin := (List.of_mem_zip (List.mem_reverse.mp hp)).1
      exact prevout_ne_of_isPruned hView hSpent (hPruned _ hMem) p.1 hIn rfl
    have hLen : (txundo.vprevout.length != tx.vin.length) = false := by
      simp [length_spendInputs hSpent]
    simp only [hCb, Bool.false_eq_true, if_false, disconnectTx, hLen, hMatch, hCleared,
      applyTxUndo_clearAll _ hPrevouts, applyTxUndo_spendInputs hView hSpent, Bool.and_self]

/-! ## The loop of `DisconnectBlock` -/

/-- One more transaction undone cleanly at the end of a clean walk. -/
theorem disconnectTxs_concat {txid : CTransaction → uint256} {nHeight : Int32}
    {view view1 view2 : CCoinsViewCache} {l : List (CTransaction × Option CTxUndo)}
    {tx : CTransaction} {txundo? : Option CTxUndo}
    (hl : disconnectTxs txid nHeight view l = some (true, view1))
    (hTx : disconnectTx txid nHeight view1 tx txundo? = some (true, view2)) :
    disconnectTxs txid nHeight view (l ++ [(tx, txundo?)]) = some (true, view2) := by
  induction l generalizing view with
  | nil =>
    obtain rfl : view = view1 := (Prod.mk.inj (Option.some.inj hl)).2
    simp [disconnectTxs, hTx]
  | cons p l ih =>
    obtain ⟨tx', txundo'⟩ := p
    unfold disconnectTxs at hl
    split at hl
    · cases hl
    · next fClean view' hFirst =>
      split at hl
      · cases hl
      · next fCleanRest view'' hRest =>
        obtain ⟨hClean, rfl⟩ := Prod.mk.inj (Option.some.inj hl)
        obtain ⟨rfl, rfl⟩ := Bool.and_eq_true_iff.mp hClean
        simp [disconnectTxs, hFirst, ih hRest]

/-- The walk reads and writes entries only, never the best block. -/
theorem disconnectTxs_setBestBlock (txid : CTransaction → uint256) (nHeight : Int32)
    (view : CCoinsViewCache) (hashBlock : uint256) (l : List (CTransaction × Option CTxUndo)) :
    disconnectTxs txid nHeight (view.setBestBlock hashBlock) l =
      (disconnectTxs txid nHeight view l).map fun r => (r.1, r.2.setBestBlock hashBlock) := by
  induction l generalizing view with
  | nil => rfl
  | cons p l ih =>
    obtain ⟨tx, txundo?⟩ := p
    have hStep : disconnectTx txid nHeight (view.setBestBlock hashBlock) tx txundo? =
        (disconnectTx txid nHeight view tx txundo?).map fun r => (r.1, r.2.setBestBlock hashBlock) := by
      cases txundo? with
      | none => rfl
      | some txundo =>
        simp only [disconnectTx, CCoinsViewCache.coins_setBestBlock, setBestBlock_setCoins,
          applyTxUndo_setBestBlock]
        split <;> rfl
    simp only [disconnectTxs, hStep]
    cases disconnectTx txid nHeight view tx txundo? with
    | none => rfl
    | some r =>
      simp only [Option.map_some, ih]
      cases disconnectTxs txid nHeight r.2 l <;> rfl

/-! ## A whole block: connecting, then disconnecting -/

/-- The canonical-null condition of `wf_fromTx`, from outputs of value at
least zero. -/
theorem canonical_of_nonneg {tx : CTransaction} (h : ∀ o ∈ tx.vout, 0 ≤ o.nValue) :
    ∀ o ∈ tx.vout, o.isNull = true → o = CTxOut.null := by
  intro o ho hNull
  have hNeg : o.nValue = -1 := by simpa [CTxOut.isNull] using hNull
  have hNonneg := h o ho
  rw [hNeg] at hNonneg
  exact absurd hNonneg (by decide)

/-- The run lemma of the two loops: connecting transactions that spend
inputs, after the first, and undoing them in reverse with the undo data kept
gives back the view before them, with their entries cleared. The induction is
on the transactions: the first is undone last, once the rest have restored
the view it left. -/
theorem disconnectTxs_connectTxs {env : BlockEnv} {g : PocGlobals} {nHeight : Int32}
    {fScriptChecks : Bool} (hHeight : nHeight ≠ 0) {txs : List CTransaction}
    {st st' : ConnectState} (h : connectTxs env g nHeight fScriptChecks st false txs = .ok st')
    (hView : ViewWF st.view)
    (hTxs : ∀ tx ∈ txs, tx.isCoinBase = false ∧ ∀ o ∈ tx.vout, 0 ≤ o.nValue)
    (hNodup : (txs.map env.txid).Nodup)
    (hPruned : ∀ k ∈ txs.map env.txid, (st.view.coins k).isPruned = true) :
    ∃ us, st'.vtxundo = st.vtxundo ++ us ∧ us.length = txs.length ∧
      disconnectTxs env.txid nHeight st'.view (txs.zip (us.map some)).reverse =
        some (true, clearAll st.view (txs.map env.txid)) := by
  induction txs generalizing st with
  | nil =>
    obtain rfl : st = st' := Except.ok.inj h
    exact ⟨[], by simp, rfl, rfl⟩
  | cons tx rest ih =>
    simp only [connectTxs, bind_eq_ok] at h
    obtain ⟨st1, hTx, hRest⟩ := h
    obtain ⟨txundo, hUpdate, hUndo⟩ := connectTx_eq_ok hTx
    obtain ⟨hNotCb, hNonneg⟩ := hTxs tx List.mem_cons_self
    rw [List.map_cons, List.nodup_cons] at hNodup
    have hView1 : ViewWF st1.view :=
      viewWF_UpdateCoins hView (canonical_of_nonneg hNonneg) hHeight hUpdate
    have hPruned1 : ∀ k ∈ rest.map env.txid, (st1.view.coins k).isPruned = true := by
      intro k hk
      have hNe : k ≠ env.txid tx := fun hEq => hNodup.1 (hEq ▸ hk)
      have hk' : (st.view.coins k).isPruned = true := hPruned k (List.mem_cons_of_mem _ hk)
      rw [coins_UpdateCoins_of_isPruned hView hUpdate hNe hk']
      exact hk'
    obtain ⟨us, hUs, hLen, hWalk⟩ :=
      ih hRest hView1 (fun t ht => hTxs t (List.mem_cons_of_mem _ ht)) hNodup.2 hPruned1
    have hStep := disconnectTx_UpdateCoins hView hUpdate hNodup.1 hPruned
    simp only [hNotCb, Bool.false_eq_true, ↓reduceIte] at hStep
    refine ⟨txundo :: us, ?_, by simp [hLen], ?_⟩
    · simp [hUs, hUndo]
    · rw [List.map_cons, List.zip_cons_cons, List.reverse_cons, List.map_cons]
      exact disconnectTxs_concat hWalk hStep

/-- What `ConnectBlock` does, when it succeeds: the block passed
`CheckBlock`, the view was at the parent, BIP30 held for blocks with
`TX_PAYLOAD`, and the transaction loop ran; the undo data and the view are
the loop's, at the block. -/
theorem ConnectBlock_eq_ok {env : BlockEnv} {ec : PocCrypto} {g : PocGlobals} {block : CBlock}
    {pindex : CBlockIndex} {hashPrevBlock : uint256} {view : CCoinsViewCache}
    {fScriptChecks : Bool} {undo : CBlockUndo} {view' : CCoinsViewCache}
    (h : ConnectBlock env ec g block pindex hashPrevBlock view fScriptChecks = .ok (undo, view')) :
    ∃ b' st, CheckBlock env ec g block true true = .ok b' ∧ hashPrevBlock = view.hashBestBlock ∧
      (block.hasTx = true → ∀ tx ∈ block.vtx, (view.coins (env.txid tx)).isPruned = true) ∧
      connectTxs env g pindex.nHeight fScriptChecks ⟨view, 0, 0, []⟩ true block.vtx = .ok st ∧
      undo = ⟨st.vtxundo⟩ ∧ view' = st.view.setBestBlock pindex.hashBlock := by
  simp only [ConnectBlock, bind_eq_ok, failIf_eq_ok, onlyIf_eq_ok, pure_eq_ok] at h
  obtain ⟨b', hCheck, -, hPrev, -, hBip30, st, hLoop, -, -, -, -, hResult⟩ := h
  obtain ⟨rfl, rfl⟩ := Prod.mk.inj hResult.symm
  refine ⟨b', st, hCheck, by simpa using hPrev, fun hTx tx hMem => ?_, hLoop, rfl, rfl⟩
  have hAll := hBip30 hTx
  simp only [List.any_eq_false, Bool.not_eq_eq_eq_not, Bool.not_true] at hAll
  simpa using hAll tx hMem

/-- The transaction loop does not read the PoC check of the environment. -/
theorem connectTxs_checkProofOfCooperation (env : BlockEnv) (c : CBlock → Bool) (g : PocGlobals)
    (nHeight : Int32) (fScriptChecks : Bool) (st : ConnectState) (fFirst : Bool)
    (txs : List CTransaction) :
    connectTxs { env with checkProofOfCooperation := c } g nHeight fScriptChecks st fFirst txs =
      connectTxs env g nHeight fScriptChecks st fFirst txs := by
  induction txs generalizing st fFirst with
  | nil => rfl
  | cons tx rest ih =>
    simp only [connectTxs, ih]
    rfl

/-- On a block already marked checked, `ConnectBlock` does not run the PoC
check of the environment: its `CheckBlock` returns at once. -/
theorem ConnectBlock_of_fChecked (env : BlockEnv) (c : CBlock → Bool) {ec : PocCrypto}
    {g : PocGlobals} {block : CBlock} (pindex : CBlockIndex) (hashPrevBlock : uint256)
    (view : CCoinsViewCache) (fScriptChecks : Bool) (hChecked : block.fChecked = true) :
    ConnectBlock { env with checkProofOfCooperation := c } ec g block pindex hashPrevBlock view
        fScriptChecks =
      ConnectBlock env ec g block pindex hashPrevBlock view fScriptChecks := by
  simp only [ConnectBlock, CheckBlock_of_fChecked _ _ hChecked, connectTxs_checkProofOfCooperation]

/-- `DisconnectBlock` undoes `ConnectBlock` on a block with `TX_PAYLOAD`: on
a view of well-formed entries, for a block not yet marked checked, with
distinct transaction ids, at a height other than 0, the walk is clean and
gives back every entry of the view under `operator==` (an entry of the block
is cleared where it was pruned before), at the parent. -/
theorem disconnectBlock_connectBlock {env : BlockEnv} {ec : PocCrypto} {g : PocGlobals}
    {block : CBlock} {pindex : CBlockIndex} {hashPrevBlock : uint256} {view : CCoinsViewCache}
    {fScriptChecks : Bool} {undo : CBlockUndo} {view' : CCoinsViewCache}
    (hTx : block.hasTx = true) (hUnchecked : block.fChecked = false) (hView : ViewWF view)
    (hHeight : pindex.nHeight ≠ 0) (hNodup : (block.vtx.map env.txid).Nodup)
    (hConnect : ConnectBlock env ec g block pindex hashPrevBlock view fScriptChecks = .ok (undo, view')) :
    ∃ W, DisconnectBlock env block pindex hashPrevBlock view' undo = some (true, W) ∧
      W.hashBestBlock = hashPrevBlock ∧ ∀ txid, (W.coins txid).coinsEq (view.coins txid) = true := by
  obtain ⟨b', st, hCheck, -, hBip30, hLoop, rfl, rfl⟩ := ConnectBlock_eq_ok hConnect
  have hPruned := hBip30 hTx
  obtain ⟨-, -, -, -, hTxs, -⟩ := (CheckBlock_eq_ok hUnchecked).mp hCheck
  obtain ⟨cb, rest, hVtx, hCb, hRestCb, hCheckTx⟩ := checkBlockTxs_coinbase (hTxs hTx)
  rw [hVtx] at hLoop hPruned hNodup hCheckTx
  rw [List.map_cons, List.nodup_cons] at hNodup
  simp only [connectTxs, bind_eq_ok] at hLoop
  obtain ⟨st1, hFirst, hRest⟩ := hLoop
  obtain ⟨u0, hUpdate, hUndo0⟩ := connectTx_eq_ok hFirst
  simp only [if_true] at hUndo0
  have hNonneg : ∀ tx ∈ cb :: rest, ∀ o ∈ tx.vout, 0 ≤ o.nValue :=
    fun tx hMem => CheckTransaction_vout (hCheckTx tx hMem)
  have hView1 : ViewWF st1.view :=
    viewWF_UpdateCoins hView (canonical_of_nonneg (hNonneg cb List.mem_cons_self)) hHeight hUpdate
  have hPruned1 : ∀ k ∈ rest.map env.txid, (st1.view.coins k).isPruned = true := by
    intro k hk
    obtain ⟨tx, hMem, rfl⟩ := List.mem_map.mp hk
    have hNe : env.txid tx ≠ env.txid cb := fun hEq => hNodup.1 (hEq ▸ hk)
    rw [coins_UpdateCoins_of_isPruned hView hUpdate hNe (hPruned tx (List.mem_cons_of_mem _ hMem))]
    exact hPruned tx (List.mem_cons_of_mem _ hMem)
  obtain ⟨us, hUs, hLen, hWalk⟩ := disconnectTxs_connectTxs hHeight hRest hView1
    (fun tx hMem => ⟨hRestCb tx hMem, hNonneg tx (List.mem_cons_of_mem _ hMem)⟩) hNodup.2 hPruned1
  have hCbStep := disconnectTx_UpdateCoins hView hUpdate hNodup.1 (by
    intro k hk
    obtain ⟨tx, hMem, rfl⟩ := List.mem_map.mp (by simpa using hk : k ∈ (cb :: rest).map env.txid)
    exact hPruned tx hMem)
  simp only [hCb, ↓reduceIte] at hCbStep
  have hAll := disconnectTxs_concat hWalk hCbStep
  refine ⟨((clearAll view (env.txid cb :: rest.map env.txid)).setBestBlock pindex.hashBlock).setBestBlock
    hashPrevBlock, ?_, rfl, ?_⟩
  · have hUndoLen : (us.length + 1 != (cb :: rest).length) = false := by
      simp [hLen]
    simp only [DisconnectBlock, CCoinsViewCache.hashBestBlock_setBestBlock, bne_self_eq_false,
      Bool.false_eq_true, if_false, hTx, Bool.not_true, hUndoLen, hVtx, hUs, hUndo0,
      List.nil_append, List.zip_cons_cons, List.reverse_cons,
      disconnectTxs_setBestBlock, hAll, Option.map_some]
  · intro k
    simp only [CCoinsViewCache.coins_setBestBlock, coins_clearAll]
    split
    · next hMem =>
      obtain ⟨tx, hMemTx, rfl⟩ := List.mem_map.mp (by simpa using hMem : k ∈ (cb :: rest).map env.txid)
      exact coinsEq_of_isPruned rfl (hPruned tx hMemTx)
    · exact coinsEq_self _

/-- A coinbase paying nothing. -/
def zeroCoinbase : CTransaction :=
  ⟨1, [⟨⟨0, UInt32.ofNat (2 ^ 32 - 1)⟩, [0x51, 0x00], UInt32.ofNat (2 ^ 32 - 1)⟩], [⟨0, [0x51]⟩], 0⟩

/-- The index of a block at height 1 on the genesis block `0`. -/
def heightOneIndex : CBlockIndex := { (default : CBlockIndex) with hashBlock := 1, nHeight := 1 }

/-- The empty view at the genesis block `0`. -/
def emptyView : CCoinsViewCache := ⟨fun _ => CCoins.clear, 0⟩

/-- `passingEnv` with each transaction hashed to its lock time. -/
def lockTimeEnv : BlockEnv := { passingEnv with txid := fun tx => BitVec.ofNat 256 tx.nLockTime.toNat }

/-- A transaction with hash `5` paying 10 to one output. -/
def fundingTx : CTransaction :=
  ⟨1, [⟨⟨3, 0⟩, [0x51], UInt32.ofNat (2 ^ 32 - 1)⟩], [⟨10, [0x51]⟩], 5⟩

/-- A transaction with hash `7` spending the output of `fundingTx` and paying 4. -/
def spendTx : CTransaction :=
  ⟨1, [⟨⟨5, 0⟩, [0x51], UInt32.ofNat (2 ^ 32 - 1)⟩], [⟨4, [0x51]⟩], 7⟩

/-- A block with `TX_PAYLOAD`: `zeroCoinbase`, then `spendTx`. -/
def spendBlock : CBlock :=
  { (default : CBlock) with nVersion := CBlockHeader.TX_PAYLOAD, vtx := [zeroCoinbase, spendTx] }

/-- The index of a block at height 2 on the block `0`. -/
def heightTwoIndex : CBlockIndex := { (default : CBlockIndex) with hashBlock := 2, nHeight := 2 }

/-- The view at the block `0` holding the outputs of `fundingTx` from height 1. -/
def fundedView : CCoinsViewCache := emptyView.setCoins 5 (CCoins.fromTx fundingTx 1)

/-- `spendBlock` connects on `fundedView`, spending the output of `fundingTx`,
and disconnecting it gives every entry of the view back. -/
theorem disconnectBlock_connectBlock_spendBlock :
    ∃ undo view', ConnectBlock lockTimeEnv echoCrypto default spendBlock heightTwoIndex 0
        fundedView false = .ok (undo, view') ∧ (view'.coins 5).isAvailable 0 = false ∧
      ∃ W, DisconnectBlock lockTimeEnv spendBlock heightTwoIndex 0 view' undo = some (true, W) ∧
        W.hashBestBlock = 0 ∧ ∀ txid, (W.coins txid).coinsEq (fundedView.coins txid) = true := by
  have hView : ViewWF fundedView := by
    intro txid
    rw [fundedView, CCoinsViewCache.coins_setCoins]
    by_cases h5 : txid = 5
    · rw [h5, Function.update_self]
      exact wf_fromTx (by decide) (by decide)
    · rw [Function.update_of_ne h5]
      exact wf_clear
  have hRun : (match ConnectBlock lockTimeEnv echoCrypto default spendBlock heightTwoIndex 0
      fundedView false with
    | .ok r => !(r.2.coins 5).isAvailable 0
    | .error _ => false) = true := by decide
  cases hC : ConnectBlock lockTimeEnv echoCrypto default spendBlock heightTwoIndex 0 fundedView false with
  | error e =>
    rw [hC] at hRun
    cases hRun
  | ok r =>
    obtain ⟨undo, view'⟩ := r
    rw [hC, Bool.not_eq_true'] at hRun
    exact ⟨undo, view', rfl, hRun,
      disconnectBlock_connectBlock (by decide) rfl hView (by decide) (by decide) hC⟩

/-! ## Blocks without `TX_PAYLOAD` -/

/-- `DisconnectBlock` on a block without `TX_PAYLOAD`, with the view at the
block: clean, and only the best block moves. -/
theorem DisconnectBlock_nonTx {env : BlockEnv} {block : CBlock} {pindex : CBlockIndex}
    {hashPrevBlock : uint256} {view : CCoinsViewCache} {blockUndo : CBlockUndo}
    (hNoTx : block.hasTx = false) (hBest : view.hashBestBlock = pindex.hashBlock) :
    DisconnectBlock env block pindex hashPrevBlock view blockUndo =
      some (true, view.setBestBlock hashPrevBlock) := by
  simp [DisconnectBlock, hNoTx, hBest]

/-- `ConnectBlock` on a block without `TX_PAYLOAD` or coin supply whose only
transaction is a coinbase: with BIP30 and the coinbase-value check skipped,
the coinbase's entry is written whatever its outputs pay. -/
theorem ConnectBlock_nonTx_coinbase {env : BlockEnv} {ec : PocCrypto} {g : PocGlobals}
    {block b' : CBlock} {cb : CTransaction} {pindex : CBlockIndex} {hashPrevBlock : uint256}
    {view : CCoinsViewCache} {fScriptChecks : Bool} (hNoTx : block.hasTx = false)
    (hNoSupply : block.hasCoinSupplyPayload = false) (hVtx : block.vtx = [cb])
    (hCb : cb.isCoinBase = true) (hCheck : CheckBlock env ec g block true true = .ok b')
    (hSigOps : env.legacySigOps cb ≤ MAX_BLOCK_SIGOPS g.dynParams)
    (hBest : view.hashBestBlock = hashPrevBlock) :
    ConnectBlock env ec g block pindex hashPrevBlock view fScriptChecks =
      .ok (⟨[]⟩, (view.setCoins (env.txid cb) (CCoins.fromTx cb pindex.nHeight)).setBestBlock
        pindex.hashBlock) := by
  have hFirst : connectTx env g pindex.nHeight fScriptChecks ⟨view, 0, 0, []⟩ true cb =
      .ok ⟨view.setCoins (env.txid cb) (CCoins.fromTx cb pindex.nHeight), 0,
        env.legacySigOps cb, []⟩ := by
    rw [connectTx_coinbase hCb (by simpa using hSigOps)]
    simp
  simp only [ConnectBlock, hCheck, hBest, hNoTx, hNoSupply, hVtx, connectTxs, hFirst, onlyIf, failIf,
    bne_self_eq_false, Bool.false_eq_true, if_false]
  rfl

/-- A block without `TX_PAYLOAD` whose only transaction is a coinbase, once
past `CheckBlock`, is connected with the coinbase's outputs added as they
are, with no value check, and nothing spent: every other entry stays. -/
theorem connectBlock_mints_unchecked_coinbase {env : BlockEnv} {ec : PocCrypto} {g : PocGlobals}
    {block b' : CBlock} {cb : CTransaction} {pindex : CBlockIndex} {hashPrevBlock : uint256}
    {view : CCoinsViewCache} {fScriptChecks : Bool} (hNoTx : block.hasTx = false)
    (hNoSupply : block.hasCoinSupplyPayload = false) (hVtx : block.vtx = [cb])
    (hCb : cb.isCoinBase = true) (hCheck : CheckBlock env ec g block true true = .ok b')
    (hSigOps : env.legacySigOps cb ≤ MAX_BLOCK_SIGOPS g.dynParams)
    (hBest : view.hashBestBlock = hashPrevBlock) :
    ∃ view', ConnectBlock env ec g block pindex hashPrevBlock view fScriptChecks = .ok (⟨[]⟩, view') ∧
      view'.coins (env.txid cb) = CCoins.fromTx cb pindex.nHeight ∧
      ∀ txid, txid ≠ env.txid cb → view'.coins txid = view.coins txid := by
  refine ⟨_, ConnectBlock_nonTx_coinbase hNoTx hNoSupply hVtx hCb hCheck hSigOps hBest, ?_, ?_⟩
  · simp
  · intro txid hNe
    simp [Function.update_of_ne hNe]

/-- A coinbase paying twice `MAX_MONEY` to `OP_TRUE`; its input script starts
with the height 1. -/
def mintingCoinbase : CTransaction :=
  ⟨1, [⟨⟨0, UInt32.ofNat (2 ^ 32 - 1)⟩, [0x51, 0x00], UInt32.ofNat (2 ^ 32 - 1)⟩],
    [⟨2 * MAX_MONEY, [0x51]⟩], 0⟩

/-- A block with only a CVN list (no `TX_PAYLOAD`), signed by admin 1, that
carries `mintingCoinbase`. -/
def mintingBlock : CBlock :=
  { (default : CBlock) with
    nVersion := CBlockHeader.CVN_PAYLOAD, vCvns := [⟨1, 0, ⟨1⟩⟩], vAdminIds := [1],
    adminMultiSig := ⟨1⟩, vtx := [mintingCoinbase] }

theorem mintingBlock_accepted_and_connected :
    acceptBlockChecks passingEnv echoCrypto oneAdminNode mintingBlock (some default) =
      .ok { mintingBlock with fChecked := true } ∧
    (CCoins.fromTx mintingCoinbase heightOneIndex.nHeight).vout = [⟨2 * MAX_MONEY, [0x51]⟩] ∧
    MAX_MONEY < 2 * MAX_MONEY ∧
    ∃ view', ConnectBlock passingEnv echoCrypto oneAdminNode mintingBlock heightOneIndex 0 emptyView
        true = .ok (⟨[]⟩, view') ∧
      view'.coins (passingEnv.txid mintingCoinbase) =
        CCoins.fromTx mintingCoinbase heightOneIndex.nHeight ∧
      ∀ txid, txid ≠ passingEnv.txid mintingCoinbase → view'.coins txid = emptyView.coins txid :=
  ⟨by decide +kernel, by decide, by decide,
    connectBlock_mints_unchecked_coinbase (by decide) (by decide) rfl (by decide)
      (by decide +kernel : CheckBlock passingEnv echoCrypto oneAdminNode mintingBlock true true =
        .ok { mintingBlock with fChecked := true })
      (by decide) rfl⟩

/-- Disconnecting a block without `TX_PAYLOAD` whose only transaction is a
coinbase, right after connecting it: the walk is skipped and reports clean,
the best block moves back, and the coinbase's entry stays in the view where
it was pruned before. -/
theorem disconnectBlock_keeps_nonTx_coinbase {env : BlockEnv} {ec : PocCrypto} {g : PocGlobals}
    {block b' : CBlock} {cb : CTransaction} {pindex : CBlockIndex} {hashPrevBlock : uint256}
    {view : CCoinsViewCache} {fScriptChecks : Bool} (hNoTx : block.hasTx = false)
    (hNoSupply : block.hasCoinSupplyPayload = false) (hVtx : block.vtx = [cb])
    (hCb : cb.isCoinBase = true) (hCheck : CheckBlock env ec g block true true = .ok b')
    (hSigOps : env.legacySigOps cb ≤ MAX_BLOCK_SIGOPS g.dynParams)
    (hBest : view.hashBestBlock = hashPrevBlock)
    (hPruned : (view.coins (env.txid cb)).isPruned = true)
    (hOutputs : (CCoins.fromTx cb pindex.nHeight).isPruned = false) :
    ∃ undo view' W, ConnectBlock env ec g block pindex hashPrevBlock view fScriptChecks =
        .ok (undo, view') ∧
      DisconnectBlock env block pindex hashPrevBlock view' undo = some (true, W) ∧
      W.hashBestBlock = hashPrevBlock ∧
      (W.coins (env.txid cb)).coinsEq (view.coins (env.txid cb)) = false := by
  refine ⟨_, _, _, ConnectBlock_nonTx_coinbase hNoTx hNoSupply hVtx hCb hCheck hSigOps hBest,
    DisconnectBlock_nonTx hNoTx rfl, rfl, ?_⟩
  simp only [CCoinsViewCache.coins_setBestBlock, CCoinsViewCache.coins_setCoins, Function.update_self]
  exact coinsEq_eq_false_of_isPruned hOutputs hPruned

theorem mintingBlock_disconnect_keeps_coinbase :
    ∃ undo view' W, ConnectBlock passingEnv echoCrypto oneAdminNode mintingBlock heightOneIndex 0
        emptyView true = .ok (undo, view') ∧
      DisconnectBlock passingEnv mintingBlock heightOneIndex 0 view' undo = some (true, W) ∧
      W.hashBestBlock = 0 ∧
      (W.coins (passingEnv.txid mintingCoinbase)).coinsEq
        (emptyView.coins (passingEnv.txid mintingCoinbase)) = false :=
  disconnectBlock_keeps_nonTx_coinbase (by decide) (by decide) rfl (by decide)
    (by decide +kernel : CheckBlock passingEnv echoCrypto oneAdminNode mintingBlock true true =
      .ok { mintingBlock with fChecked := true })
    (by decide) rfl (by decide) (by decide)

end FairCoin.Ports.Chainstate
