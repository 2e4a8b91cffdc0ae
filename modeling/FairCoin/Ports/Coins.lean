import FairCoin.Verified.SlotList
import FairCoin.Verified.Checks
import FairCoin.Ports.Primitives

/-!
# The coins view: unspent outputs, spending and undo

`coins.h` keeps one `CCoins` per transaction id: the transaction's outputs,
spent ones nulled and trailing spent ones dropped, and its metadata (coinbase
flag, height, version). `UpdateCoins` spends a transaction's inputs, records
for each a `CTxInUndo` (the spent output, and the metadata when the entry's
last output went), and adds the transaction's own outputs; `ApplyTxInUndo`
writes one recorded output back.

The view is a total map from transaction id to `CCoins`: an id the cache
does not hold reads as `CCoins()`, which is pruned. Every reader in the code
treats a missing entry and a pruned one alike (`AccessCoins` returning
`NULL`, then `IsAvailable` or `IsPruned`).

The outputs of an entry are a slot list (`FairCoin.Verified.SlotList`) over
the null `CTxOut`: `Spend` is `clearSlot`, the output write of
`ApplyTxInUndo` is `restoreSlot`.

## Main results

* `wf_spend`, `wf_fromTx` — spending and adding outputs keep the shape
  `CCoins.WF` of an entry.
* `ApplyTxInUndo_spendInput` — undoing one spent input restores the view
  exactly, and reports it clean.
* `applyTxUndo_spendInputs` — the same for all inputs of a transaction, undone
  in reverse order.
-/

namespace FairCoin.Ports.Coins

open FairCoin.Verified FairCoin.Verified.SlotList FairCoin.Verified.Checks FairCoin.Ports.Primitives

/-- How a validation call fails: rejected with the reason it records in
`CValidationState`, by an exception, by an assertion, or by reading past the
end of a vector. -/
inductive ValidationError where
  | invalid (strRejectReason : String)
  | exception
  | assertion
  | outOfRange
  deriving DecidableEq, Repr

/-- `OP_RETURN`. -/
def OP_RETURN : UInt8 := 0x6a

/-- `CScript::IsUnspendable`: a script that starts with `OP_RETURN`. -/
def isUnspendable (script : CScript) : Bool :=
  match script with
  | [] => false
  | op :: _ => op == OP_RETURN

/-! ## Entries -/

/-- `CCoins`. -/
structure CCoins where
  fCoinBase : Bool
  vout : List CTxOut
  nHeight : Int32
  nVersion : Int32
  deriving DecidableEq, Repr

namespace CCoins

/-- `CCoins()`, and what `CCoins::Clear` leaves. -/
def clear : CCoins := ⟨false, [], 0, 0⟩

instance instInhabitedCCoins : Inhabited CCoins := ⟨clear⟩

/-- `CCoins::Cleanup`: drop the spent outputs at the end. -/
def cleanup (c : CCoins) : CCoins := { c with vout := c.vout.rdropWhile CTxOut.isNull }

/-- `CCoins::ClearUnspendable`: null every output that can never be spent,
then clean up. -/
def clearUnspendable (c : CCoins) : CCoins :=
  cleanup { c with
    vout := c.vout.map fun txout => if isUnspendable txout.scriptPubKey then CTxOut.null else txout }

/-- `CCoins::FromTx`, and the constructor `CCoins(tx, nHeight)`. -/
def fromTx (tx : CTransaction) (nHeightIn : Int32) : CCoins :=
  clearUnspendable ⟨tx.isCoinBase, tx.vout, nHeightIn, tx.nVersion⟩

/-- `CCoins::IsAvailable`. -/
def isAvailable (c : CCoins) (nPos : Nat) : Bool :=
  match c.vout[nPos]? with
  | some txout => !txout.isNull
  | none => false

/-- `CCoins::IsPruned`: no output left unspent. -/
def isPruned (c : CCoins) : Bool := c.vout.all CTxOut.isNull

/-- `CCoins::Spend`: an available output is nulled and the entry cleaned up;
anything else leaves the entry as it is (and the code returns `false`). -/
def spend (c : CCoins) (nPos : Nat) : CCoins :=
  if c.isAvailable nPos then { c with vout := clearSlot CTxOut.isNull CTxOut.null nPos c.vout }
  else c

/-- `operator==` on `CCoins`: two pruned entries are equal whatever their
metadata. -/
def coinsEq (a b : CCoins) : Bool :=
  (a.isPruned && b.isPruned) ||
    (a.fCoinBase == b.fCoinBase && a.nHeight == b.nHeight && a.nVersion == b.nVersion &&
      a.vout == b.vout)

/-- The shape every entry of a view keeps: the outputs form a slot list over
the null `CTxOut`, and an entry with outputs has a height other than 0 (only
the genesis block connects at height 0, and its one output is an
`OP_RETURN`). -/
structure WF (c : CCoins) : Prop where
  slots : Slots CTxOut.isNull CTxOut.null c.vout
  height : c.vout ≠ [] → c.nHeight ≠ 0

end CCoins

/-! ## The view -/

/-- `CCoinsViewCache`: the entries and the best block they belong to. -/
@[ext]
structure CCoinsViewCache where
  coins : uint256 → CCoins
  hashBestBlock : uint256

namespace CCoinsViewCache

/-- `ModifyCoins(txid)` followed by writing the entry `c`. -/
def setCoins (view : CCoinsViewCache) (txid : uint256) (c : CCoins) : CCoinsViewCache :=
  { view with coins := Function.update view.coins txid c }

/-- `CCoinsViewCache::SetBestBlock`. -/
def setBestBlock (view : CCoinsViewCache) (hashBlock : uint256) : CCoinsViewCache :=
  { view with hashBestBlock := hashBlock }

@[simp] theorem coins_setCoins (view : CCoinsViewCache) (txid : uint256) (c : CCoins) :
    (view.setCoins txid c).coins = Function.update view.coins txid c := rfl

@[simp] theorem hashBestBlock_setCoins (view : CCoinsViewCache) (txid : uint256) (c : CCoins) :
    (view.setCoins txid c).hashBestBlock = view.hashBestBlock := rfl

@[simp] theorem coins_setBestBlock (view : CCoinsViewCache) (hashBlock : uint256) :
    (view.setBestBlock hashBlock).coins = view.coins := rfl

@[simp] theorem hashBestBlock_setBestBlock (view : CCoinsViewCache) (hashBlock : uint256) :
    (view.setBestBlock hashBlock).hashBestBlock = hashBlock := rfl

/-- Writing back the entry a view already holds changes nothing. -/
theorem setCoins_self (view : CCoinsViewCache) (txid : uint256) :
    view.setCoins txid (view.coins txid) = view := by
  ext1
  · exact Function.update_eq_self txid view.coins
  · rfl

/-- A second write to one id replaces the first. -/
@[simp] theorem setCoins_setCoins (view : CCoinsViewCache) (txid : uint256) (c c' : CCoins) :
    (view.setCoins txid c).setCoins txid c' = view.setCoins txid c' := by
  ext1
  · exact Function.update_idem c c' view.coins
  · rfl

end CCoinsViewCache

/-- Every entry of the view has the shape `CCoins.WF`. -/
def ViewWF (view : CCoinsViewCache) : Prop := ∀ txid, (view.coins txid).WF

/-! ## Reading inputs -/

/-- `CCoinsViewCache::HaveInputs`. -/
def HaveInputs (view : CCoinsViewCache) (tx : CTransaction) : Bool :=
  tx.isCoinBase ||
    tx.vin.all fun txin => (view.coins txin.prevout.hash).isAvailable txin.prevout.n.toNat

/-- `CCoinsViewCache::GetOutputFor`; `none` where its assertion fails. -/
def GetOutputFor (view : CCoinsViewCache) (input : CTxIn) : Option CTxOut :=
  if (view.coins input.prevout.hash).isAvailable input.prevout.n.toNat then
    (view.coins input.prevout.hash).vout[input.prevout.n.toNat]?
  else none

/-- `CCoinsViewCache::GetValueIn`, as the `int64` sum the code computes. -/
def GetValueIn (view : CCoinsViewCache) (tx : CTransaction) : Option CAmount :=
  if tx.isCoinBase then some 0
  else tx.vin.foldlM (fun nResult txin => (GetOutputFor view txin).map (nResult + ·.nValue)) 0

/-- The input loop of `Consensus::CheckTxInputs`: coinbase maturity, then the
range of each value and of the running sum. -/
def checkInputValues (view : CCoinsViewCache) (nSpendHeight : Int32) (nCoinbaseMaturity : UInt32) :
    CAmount → List CTxIn → Except ValidationError CAmount
  | nValueIn, [] => .ok nValueIn
  | nValueIn, txin :: rest =>
    let coins := view.coins txin.prevout.hash
    if coins.fCoinBase && decide (nSpendHeight - coins.nHeight < nCoinbaseMaturity.toInt32) then
      .error (.invalid "bad-txns-premature-spend-of-coinbase")
    else
      match coins.vout[txin.prevout.n.toNat]? with
      | none => .error .outOfRange
      | some txout =>
        if MoneyRange txout.nValue && MoneyRange (nValueIn + txout.nValue) then
          checkInputValues view nSpendHeight nCoinbaseMaturity (nValueIn + txout.nValue) rest
        else .error (.invalid "bad-txns-inputvalues-outofrange")

/-- `Consensus::CheckTxInputs`, with `COINBASE_MATURITY` the dynamic
parameter `nCoinbaseMaturity`. `GetValueOut` throws on an output out of the
money range. -/
def CheckTxInputs (tx : CTransaction) (view : CCoinsViewCache) (nSpendHeight : Int32)
    (nCoinbaseMaturity : UInt32) : Except ValidationError Unit := do
  failIf (!HaveInputs view tx) (.invalid "")
  let nValueIn ← checkInputValues view nSpendHeight nCoinbaseMaturity 0 tx.vin
  let nValueOut ← orFail tx.getValueOut .exception
  failIf (nValueIn < nValueOut) (.invalid "bad-txns-in-belowout")
  failIf (nValueIn - nValueOut < 0) (.invalid "bad-txns-fee-negative")
  failIf (!MoneyRange (nValueIn - nValueOut)) (.invalid "bad-txns-fee-outofrange")

/-! ## Spending and undo -/

/-- `CTxInUndo`. -/
structure CTxInUndo where
  txout : CTxOut
  fCoinBase : Bool
  nHeight : UInt32
  nVersion : Int32
  deriving DecidableEq, Repr

/-- `CTxUndo`. -/
structure CTxUndo where
  vprevout : List CTxInUndo
  deriving DecidableEq, Repr

/-- `CBlockUndo`. -/
structure CBlockUndo where
  vtxundo : List CTxUndo
  deriving DecidableEq, Repr

/-- One input of `UpdateCoins`, on the entry it spends from: the output spent
is recorded, with the entry's metadata when it was the entry's last output.
`none` is the code's `assert(false)` on an output that is missing or already
spent. -/
def spendEntry (coins : CCoins) (nPos : Nat) : Option (CTxInUndo × CCoins) :=
  match coins.vout[nPos]? with
  | none => none
  | some txout =>
    if txout.isNull then none
    else if (coins.spend nPos).vout.isEmpty then
      some (⟨txout, coins.fCoinBase, coins.nHeight.toUInt32, coins.nVersion⟩, coins.spend nPos)
    else some (⟨txout, false, 0, 0⟩, coins.spend nPos)

/-- One input of `UpdateCoins`. -/
def spendInput (view : CCoinsViewCache) (txin : CTxIn) : Option (CTxInUndo × CCoinsViewCache) :=
  match spendEntry (view.coins txin.prevout.hash) txin.prevout.n.toNat with
  | none => none
  | some (undo, coins) => some (undo, view.setCoins txin.prevout.hash coins)

/-- The input loop of `UpdateCoins`, in input order. -/
def spendInputs (view : CCoinsViewCache) : List CTxIn → Option (List CTxInUndo × CCoinsViewCache)
  | [] => some ([], view)
  | txin :: rest =>
    match spendInput view txin with
    | none => none
    | some (undo, view') =>
      match spendInputs view' rest with
      | none => none
      | some (undos, view'') => some (undo :: undos, view'')

/-- `UpdateCoins`: spend the inputs (a coinbase has none to spend) and write
the transaction's entry. The id is `txid tx` (`CTransaction::GetHash`). -/
def UpdateCoins (txid : CTransaction → uint256) (tx : CTransaction) (view : CCoinsViewCache)
    (nHeight : Int32) : Option (CTxUndo × CCoinsViewCache) :=
  if tx.isCoinBase then some (⟨[]⟩, view.setCoins (txid tx) (CCoins.fromTx tx nHeight))
  else
    match spendInputs view tx.vin with
    | none => none
    | some (vprevout, view') => some (⟨vprevout⟩, view'.setCoins (txid tx) (CCoins.fromTx tx nHeight))

/-- The entry `ApplyTxInUndo` writes the output into: when the undo entry
carries a height (it was the last output), an entry rebuilt from the undo
metadata; otherwise the entry as it is. -/
def undoBase (undo : CTxInUndo) (coins : CCoins) : CCoins :=
  if undo.nHeight != 0 then
    { CCoins.clear with
      fCoinBase := undo.fCoinBase, nHeight := undo.nHeight.toInt32, nVersion := undo.nVersion }
  else coins

/-- `ApplyTxInUndo` on the entry of the spent output: whether the undo was
clean, and the entry with the output written back. Clean means: an entry
rebuilt from metadata was pruned, an entry kept was not, and the slot was
free. -/
def undoEntry (undo : CTxInUndo) (coins : CCoins) (nPos : Nat) : Bool × CCoins :=
  ((if undo.nHeight != 0 then coins.isPruned else !coins.isPruned) &&
      !(undoBase undo coins).isAvailable nPos,
    { undoBase undo coins with vout := restoreSlot CTxOut.null nPos undo.txout (undoBase undo coins).vout })

/-- `ApplyTxInUndo`. -/
def ApplyTxInUndo (undo : CTxInUndo) (view : CCoinsViewCache) (out : COutPoint) :
    Bool × CCoinsViewCache :=
  match undoEntry undo (view.coins out.hash) out.n.toNat with
  | (fClean, coins) => (fClean, view.setCoins out.hash coins)

/-- The input loop of `DisconnectBlock`: each input with its undo entry, in
the order they are undone (the last input first). -/
def applyTxUndo (view : CCoinsViewCache) : List (CTxIn × CTxInUndo) → Bool × CCoinsViewCache
  | [] => (true, view)
  | (txin, undo) :: rest =>
    let r := ApplyTxInUndo undo view txin.prevout
    let rRest := applyTxUndo r.2 rest
    (r.1 && rRest.1, rRest.2)

/-! ## The shape of entries -/

@[simp] theorem isNull_null : CTxOut.null.isNull = true := by decide

theorem wf_clear : CCoins.clear.WF := ⟨slots_nil, fun h => absurd rfl h⟩

/-- Spending keeps an entry's shape: the slot list stays one, and the
metadata is untouched. -/
theorem wf_spend {c : CCoins} (hc : c.WF) (nPos : Nat) : (c.spend nPos).WF := by
  unfold CCoins.spend
  split
  · exact ⟨slots_clearSlot isNull_null hc.slots nPos, fun hNe => hc.height fun hNil => by
      simp [hNil, clearSlot] at hNe⟩
  · exact hc

/-- The entry of a transaction whose null outputs are all the null `CTxOut`
(a transaction that passed `CheckTransaction` has none), at a height other
than 0, has the shape of an entry. -/
theorem wf_fromTx {tx : CTransaction} (hCanon : ∀ o ∈ tx.vout, o.isNull = true → o = CTxOut.null)
    {nHeight : Int32} (hHeight : nHeight ≠ 0) : (CCoins.fromTx tx nHeight).WF := by
  refine ⟨slots_rdropWhile ?_, fun _ => hHeight⟩
  intro y hy hNull
  obtain ⟨o, ho, rfl⟩ := List.mem_map.mp hy
  split
  · rfl
  · next hSpendable =>
    rw [if_neg hSpendable] at hNull
    exact hCanon o ho hNull

/-- A pruned entry of the right shape has no outputs. -/
theorem vout_eq_nil_of_isPruned {c : CCoins} (hc : c.WF) (hPruned : c.isPruned = true) :
    c.vout = [] :=
  eq_nil_of_slots hc.slots (List.all_eq_true.mp hPruned)

theorem isPruned_of_vout_eq_nil {c : CCoins} (h : c.vout = []) : c.isPruned = true := by
  simp [CCoins.isPruned, h]

@[simp] theorem cleanup_cleanup (c : CCoins) : c.cleanup.cleanup = c.cleanup := by
  simp [CCoins.cleanup, List.rdropWhile_idempotent]

/-- `Cleanup` drops spent outputs only, so it neither prunes nor revives. -/
@[simp] theorem isPruned_cleanup (c : CCoins) : c.cleanup.isPruned = c.isPruned := by
  cases hPruned : c.isPruned
  · -- an unspent output survives: were all kept outputs spent, nothing would be kept
    apply Bool.eq_false_iff.mpr
    intro hAll
    have hNil : c.vout.rdropWhile CTxOut.isNull = [] := by
      rw [← List.rdropWhile_idempotent]
      exact List.rdropWhile_eq_nil_iff.mpr (List.all_eq_true.mp hAll)
    have hAllNull := List.rdropWhile_eq_nil_iff.mp hNil
    rw [CCoins.isPruned, List.all_eq_true.mpr hAllNull] at hPruned
    cases hPruned
  · have hNil : c.vout.rdropWhile CTxOut.isNull = [] :=
      List.rdropWhile_eq_nil_iff.mpr (List.all_eq_true.mp hPruned)
    simp [CCoins.cleanup, CCoins.isPruned, hNil]

/-- A cleaned-up pruned entry has no outputs. -/
theorem vout_eq_nil_of_cleanup_eq {c : CCoins} (hClean : c.cleanup = c) (hPruned : c.isPruned = true) :
    c.vout = [] := by
  rw [← hClean]
  exact List.rdropWhile_eq_nil_iff.mpr (List.all_eq_true.mp hPruned)

/-! ## Spending one input and undoing it -/

/-- What `spendEntry` does, when it succeeds: the spent output was available,
the entry is spent, and the undo entry holds the output, with the entry's
metadata exactly when no output is left. -/
theorem spendEntry_eq {c : CCoins} {nPos : Nat} {undo : CTxInUndo} {c' : CCoins}
    (h : spendEntry c nPos = some (undo, c')) :
    ∃ txout, c.vout[nPos]? = some txout ∧ txout.isNull = false ∧ c' = c.spend nPos ∧
      undo = if (c.spend nPos).vout.isEmpty then
        ⟨txout, c.fCoinBase, c.nHeight.toUInt32, c.nVersion⟩ else ⟨txout, false, 0, 0⟩ := by
  unfold spendEntry at h
  split at h
  · cases h
  · next txout hOut =>
    split_ifs at h with hNull hEmpty
    · obtain ⟨rfl, rfl⟩ := Prod.mk.inj (Option.some.inj h)
      exact ⟨txout, hOut, by simpa using hNull, rfl, by simp [hEmpty]⟩
    · obtain ⟨rfl, rfl⟩ := Prod.mk.inj (Option.some.inj h)
      exact ⟨txout, hOut, by simpa using hNull, rfl, by simp [hEmpty]⟩

theorem spendInput_eq {view : CCoinsViewCache} {txin : CTxIn} {undo : CTxInUndo}
    {view' : CCoinsViewCache} (h : spendInput view txin = some (undo, view')) :
    ∃ c', spendEntry (view.coins txin.prevout.hash) txin.prevout.n.toNat = some (undo, c') ∧
      view' = view.setCoins txin.prevout.hash c' := by
  unfold spendInput at h
  split at h
  · cases h
  · next undo' c' hEntry =>
    obtain ⟨rfl, rfl⟩ := Prod.mk.inj (Option.some.inj h)
    exact ⟨c', hEntry, rfl⟩

/-- Spending keeps the shape of every entry of the view. -/
theorem viewWF_spendInput {view : CCoinsViewCache} (hView : ViewWF view) {txin : CTxIn}
    {undo : CTxInUndo} {view' : CCoinsViewCache} (h : spendInput view txin = some (undo, view')) :
    ViewWF view' := by
  obtain ⟨c', hEntry, rfl⟩ := spendInput_eq h
  obtain ⟨-, -, -, rfl, -⟩ := spendEntry_eq hEntry
  intro txid
  simp only [CCoinsViewCache.coins_setCoins, Function.update_apply]
  split
  · next hEq =>
    subst hEq
    exact wf_spend (hView _) _
  · exact hView txid

/-- The entry an input spends from is not pruned. -/
theorem isPruned_of_spendInput {view : CCoinsViewCache} (hView : ViewWF view) {txin : CTxIn}
    {undo : CTxInUndo} {view' : CCoinsViewCache} (h : spendInput view txin = some (undo, view')) :
    (view.coins txin.prevout.hash).isPruned = false := by
  obtain ⟨c', hEntry, -⟩ := spendInput_eq h
  obtain ⟨txout, hOut, -, -, -⟩ := spendEntry_eq hEntry
  cases hPruned : (view.coins txin.prevout.hash).isPruned
  · rfl
  · rw [vout_eq_nil_of_isPruned (hView _) hPruned] at hOut
    cases hOut

/-- Spending an input touches only the entry it spends from. -/
theorem coins_spendInput_of_ne {view : CCoinsViewCache} {txin : CTxIn} {undo : CTxInUndo}
    {view' : CCoinsViewCache} (h : spendInput view txin = some (undo, view')) {txid : uint256}
    (hNe : txid ≠ txin.prevout.hash) : view'.coins txid = view.coins txid := by
  obtain ⟨c', -, rfl⟩ := spendInput_eq h
  simp [Function.update_of_ne hNe]

/-- Undoing a spent output puts the entry back exactly, and reports it clean.
If the spend emptied the entry, the undo entry carries the metadata and a
height other than 0, so the entry is rebuilt from it; otherwise the entry
kept its metadata and only the output slot is restored. -/
theorem undoEntry_spendEntry {c : CCoins} (hc : c.WF) {nPos : Nat} {undo : CTxInUndo}
    {c' : CCoins} (h : spendEntry c nPos = some (undo, c')) : undoEntry undo c' nPos = (true, c) := by
  obtain ⟨txout, hOut, hNull, rfl, rfl⟩ := spendEntry_eq h
  obtain ⟨hn, hTxout⟩ := List.getElem?_eq_some_iff.mp hOut
  have hAvail : c.isAvailable nPos = true := by simp [CCoins.isAvailable, hOut, hNull]
  have hSpend : c.spend nPos = { c with vout := clearSlot CTxOut.isNull CTxOut.null nPos c.vout } := by
    simp [CCoins.spend, hAvail]
  have hRestore : restoreSlot CTxOut.null nPos txout (clearSlot CTxOut.isNull CTxOut.null nPos c.vout) =
      c.vout := by
    rw [← hTxout]
    exact restoreSlot_clearSlot isNull_null hc.slots hn
  by_cases hEmpty : (c.spend nPos).vout.isEmpty = true
  · -- the spend emptied the entry: it is rebuilt from the undo metadata
    have hClearSlot : clearSlot CTxOut.isNull CTxOut.null nPos c.vout = [] := by
      simpa [hSpend] using hEmpty
    have hHeight : c.nHeight.toUInt32 ≠ 0 := by
      intro h0
      apply hc.height (List.ne_nil_of_length_pos (by omega))
      simpa using congrArg UInt32.toInt32 h0
    have hPruned : (c.spend nPos).isPruned = true := by simp [hSpend, hClearSlot, CCoins.isPruned]
    have hRestoreEmpty : restoreSlot CTxOut.null nPos txout [] = c.vout := hClearSlot ▸ hRestore
    rw [if_pos hEmpty]
    simp only [undoEntry, undoBase, CCoins.clear, bne_iff_ne, ne_eq, hHeight, not_false_eq_true,
      if_true, hPruned, Bool.true_and, hRestoreEmpty, Int32.toInt32_toUInt32, CCoins.isAvailable,
      List.getElem?_nil, Bool.not_false]
  · -- an output is left: the entry keeps its metadata and is not pruned
    have hNotPruned : (c.spend nPos).isPruned = false := by
      cases hP : (c.spend nPos).isPruned
      · rfl
      · exact absurd (List.isEmpty_iff.mpr (vout_eq_nil_of_isPruned (wf_spend hc nPos) hP)) hEmpty
    have hSlotNull : (c.spend nPos).isAvailable nPos = false := by
      rw [hSpend]
      unfold CCoins.isAvailable
      split
      · next y hy => simpa using getElem?_clearSlot isNull_null nPos c.vout hy
      · rfl
    rw [if_neg hEmpty]
    simp only [undoEntry, undoBase, bne_self_eq_false, Bool.false_eq_true, if_false, hNotPruned,
      Bool.not_false, hSlotNull, Bool.and_self]
    rw [hSpend]
    simp only [hRestore]

/-- Undoing a spent input restores the view exactly, and reports it clean. -/
theorem ApplyTxInUndo_spendInput {view : CCoinsViewCache} (hView : ViewWF view) {txin : CTxIn}
    {undo : CTxInUndo} {view' : CCoinsViewCache} (h : spendInput view txin = some (undo, view')) :
    ApplyTxInUndo undo view' txin.prevout = (true, view) := by
  obtain ⟨c', hEntry, rfl⟩ := spendInput_eq h
  have hUndo := undoEntry_spendEntry (hView _) hEntry
  simp only [ApplyTxInUndo, CCoinsViewCache.coins_setCoins, Function.update_self, hUndo,
    CCoinsViewCache.setCoins_setCoins, CCoinsViewCache.setCoins_self]

/-! ## All inputs of a transaction -/

theorem spendInputs_cons_eq {view : CCoinsViewCache} {txin : CTxIn} {rest : List CTxIn}
    {undos : List CTxInUndo} {view' : CCoinsViewCache}
    (h : spendInputs view (txin :: rest) = some (undos, view')) :
    ∃ undo undos' view1, spendInput view txin = some (undo, view1) ∧
      spendInputs view1 rest = some (undos', view') ∧ undos = undo :: undos' := by
  unfold spendInputs at h
  split at h
  · cases h
  · next undo view1 h1 =>
    split at h
    · cases h
    · next undos' view2 hRest =>
      obtain ⟨rfl, rfl⟩ := Prod.mk.inj (Option.some.inj h)
      exact ⟨undo, undos', view1, h1, hRest, rfl⟩

theorem length_spendInputs {view : CCoinsViewCache} {vin : List CTxIn} {undos : List CTxInUndo}
    {view' : CCoinsViewCache} (h : spendInputs view vin = some (undos, view')) :
    undos.length = vin.length := by
  induction vin generalizing view undos with
  | nil =>
    obtain ⟨rfl, -⟩ := Prod.mk.inj (Option.some.inj h)
    rfl
  | cons txin rest ih =>
    obtain ⟨undo, undos', view1, -, hRest, rfl⟩ := spendInputs_cons_eq h
    simp [ih hRest]

theorem viewWF_spendInputs {view : CCoinsViewCache} (hView : ViewWF view) {vin : List CTxIn}
    {undos : List CTxInUndo} {view' : CCoinsViewCache} (h : spendInputs view vin = some (undos, view')) :
    ViewWF view' := by
  induction vin generalizing view undos with
  | nil =>
    obtain ⟨-, rfl⟩ := Prod.mk.inj (Option.some.inj h)
    exact hView
  | cons txin rest ih =>
    obtain ⟨undo, undos', view1, h1, hRest, -⟩ := spendInputs_cons_eq h
    exact ih (viewWF_spendInput hView h1) hRest

/-- The inputs touch only the entries they spend from. -/
theorem coins_spendInputs_of_forall_ne {view : CCoinsViewCache} {vin : List CTxIn}
    {undos : List CTxInUndo} {view' : CCoinsViewCache} (h : spendInputs view vin = some (undos, view'))
    {txid : uint256} (hNe : ∀ txin ∈ vin, txin.prevout.hash ≠ txid) : view'.coins txid = view.coins txid := by
  induction vin generalizing view undos with
  | nil =>
    obtain ⟨-, rfl⟩ := Prod.mk.inj (Option.some.inj h)
    rfl
  | cons txin rest ih =>
    obtain ⟨undo, undos', view1, h1, hRest, -⟩ := spendInputs_cons_eq h
    rw [ih hRest (fun t ht => hNe t (List.mem_cons_of_mem _ ht)),
      coins_spendInput_of_ne h1 (hNe txin List.mem_cons_self).symm]

/-- No input spends from an entry that is pruned before the inputs are
spent: each input spends from an entry that is not pruned at its turn, and
the pruned entry stays as it is. -/
theorem prevout_ne_of_isPruned {view : CCoinsViewCache} (hView : ViewWF view) {vin : List CTxIn}
    {undos : List CTxInUndo} {view' : CCoinsViewCache} (h : spendInputs view vin = some (undos, view'))
    {txid : uint256} (hPruned : (view.coins txid).isPruned = true) :
    ∀ txin ∈ vin, txin.prevout.hash ≠ txid := by
  induction vin generalizing view undos with
  | nil => simp
  | cons txin rest ih =>
    obtain ⟨undo, undos', view1, h1, hRest, -⟩ := spendInputs_cons_eq h
    have hFirst : txin.prevout.hash ≠ txid := by
      rintro rfl
      rw [isPruned_of_spendInput hView h1] at hPruned
      cases hPruned
    have hPruned1 : (view1.coins txid).isPruned = true := by
      rw [coins_spendInput_of_ne h1 hFirst.symm]
      exact hPruned
    intro t ht
    rcases List.mem_cons.mp ht with rfl | hMem
    · exact hFirst
    · exact ih (viewWF_spendInput hView h1) hRest hPruned1 t hMem

theorem applyTxUndo_append (view : CCoinsViewCache) (l₁ l₂ : List (CTxIn × CTxInUndo)) :
    applyTxUndo view (l₁ ++ l₂) =
      ((applyTxUndo view l₁).1 && (applyTxUndo (applyTxUndo view l₁).2 l₂).1,
        (applyTxUndo (applyTxUndo view l₁).2 l₂).2) := by
  induction l₁ generalizing view with
  | nil => simp [applyTxUndo]
  | cons p l₁ ih =>
    obtain ⟨txin, undo⟩ := p
    simp only [List.cons_append, applyTxUndo, ih, Bool.and_assoc]

/-- Undoing the inputs of a transaction, the last first, restores the view
exactly and reports it clean. The induction is on the inputs: the first
input is undone last, after the rest has restored the view it left. -/
theorem applyTxUndo_spendInputs {view : CCoinsViewCache} (hView : ViewWF view) {vin : List CTxIn}
    {undos : List CTxInUndo} {view' : CCoinsViewCache} (h : spendInputs view vin = some (undos, view')) :
    applyTxUndo view' (vin.zip undos).reverse = (true, view) := by
  induction vin generalizing view undos with
  | nil =>
    obtain ⟨rfl, rfl⟩ := Prod.mk.inj (Option.some.inj h)
    rfl
  | cons txin rest ih =>
    obtain ⟨undo, undos', view1, h1, hRest, rfl⟩ := spendInputs_cons_eq h
    rw [List.zip_cons_cons, List.reverse_cons, applyTxUndo_append,
      ih (viewWF_spendInput hView h1) hRest]
    simp [applyTxUndo, ApplyTxInUndo_spendInput hView h1]

/-! ## Spending and adding: `UpdateCoins` -/

/-- What `UpdateCoins` does, when it succeeds: a coinbase spends nothing, any
other transaction spends its inputs in order; then the transaction's entry is
written. -/
theorem UpdateCoins_eq_some {txid : CTransaction → uint256} {tx : CTransaction}
    {view : CCoinsViewCache} {nHeight : Int32} {txundo : CTxUndo} {view' : CCoinsViewCache}
    (h : UpdateCoins txid tx view nHeight = some (txundo, view')) :
    ∃ spent, (if tx.isCoinBase then txundo = ⟨[]⟩ ∧ spent = view
        else spendInputs view tx.vin = some (txundo.vprevout, spent)) ∧
      view' = spent.setCoins (txid tx) (CCoins.fromTx tx nHeight) := by
  unfold UpdateCoins at h
  split at h
  · next hCb =>
    obtain ⟨rfl, rfl⟩ := Prod.mk.inj (Option.some.inj h)
    exact ⟨view, by simp [hCb], rfl⟩
  · next hCb =>
    split at h
    · cases h
    · next vprevout spent hSpend =>
      obtain ⟨rfl, rfl⟩ := Prod.mk.inj (Option.some.inj h)
      exact ⟨spent, by simpa [hCb] using hSpend, rfl⟩

/-- `UpdateCoins` keeps the shape of every entry, for a transaction whose null
outputs are the null `CTxOut`, at a height other than 0. -/
theorem viewWF_UpdateCoins {txid : CTransaction → uint256} {tx : CTransaction}
    {view : CCoinsViewCache} (hView : ViewWF view)
    (hCanon : ∀ o ∈ tx.vout, o.isNull = true → o = CTxOut.null) {nHeight : Int32}
    (hHeight : nHeight ≠ 0) {txundo : CTxUndo} {view' : CCoinsViewCache}
    (h : UpdateCoins txid tx view nHeight = some (txundo, view')) : ViewWF view' := by
  obtain ⟨spent, hSpent, rfl⟩ := UpdateCoins_eq_some h
  have hSpentWF : ViewWF spent := by
    split at hSpent
    · rw [hSpent.2]
      exact hView
    · exact viewWF_spendInputs hView hSpent
  intro k
  simp only [CCoinsViewCache.coins_setCoins, Function.update_apply]
  split
  · exact wf_fromTx hCanon hHeight
  · exact hSpentWF k

/-- `UpdateCoins` leaves every other entry that was pruned before as it was:
no input spends from it. -/
theorem coins_UpdateCoins_of_isPruned {txid : CTransaction → uint256} {tx : CTransaction}
    {view : CCoinsViewCache} (hView : ViewWF view) {nHeight : Int32} {txundo : CTxUndo}
    {view' : CCoinsViewCache} (h : UpdateCoins txid tx view nHeight = some (txundo, view'))
    {k : uint256} (hNe : k ≠ txid tx) (hPruned : (view.coins k).isPruned = true) :
    view'.coins k = view.coins k := by
  obtain ⟨spent, hSpent, rfl⟩ := UpdateCoins_eq_some h
  rw [CCoinsViewCache.coins_setCoins, Function.update_of_ne hNe]
  split at hSpent
  · rw [hSpent.2]
  · exact coins_spendInputs_of_forall_ne hSpent (prevout_ne_of_isPruned hView hSpent hPruned)

/-! ## Entries cleared in bulk

`DisconnectBlock` clears the entry of each transaction it undoes; `clearAll`
is the view with a list of entries cleared, and the frame lemmas say how the
writes of the undo walk pass it. -/

/-- The view with the entries of `txids` cleared. -/
def clearAll (view : CCoinsViewCache) (txids : List uint256) : CCoinsViewCache :=
  { view with coins := fun txid => if txid ∈ txids then CCoins.clear else view.coins txid }

theorem coins_clearAll (view : CCoinsViewCache) (txids : List uint256) (txid : uint256) :
    (clearAll view txids).coins txid = if txid ∈ txids then CCoins.clear else view.coins txid := rfl

@[simp] theorem clearAll_nil (view : CCoinsViewCache) : clearAll view [] = view := rfl

theorem setBestBlock_setCoins (view : CCoinsViewCache) (hashBlock txid : uint256) (c : CCoins) :
    (view.setBestBlock hashBlock).setCoins txid c = (view.setCoins txid c).setBestBlock hashBlock := rfl

/-- Clearing one more entry. -/
theorem setCoins_clear_clearAll (view : CCoinsViewCache) (txids : List uint256) (txid : uint256) :
    (clearAll view txids).setCoins txid CCoins.clear = clearAll view (txid :: txids) := by
  ext1
  · funext k
    by_cases hk : k = txid
    · simp [hk, coins_clearAll]
    · simp [hk, coins_clearAll]
  · rfl

/-- A write to a cleared entry is lost. -/
theorem clearAll_setCoins_of_mem (view : CCoinsViewCache) {txids : List uint256} {txid : uint256}
    (h : txid ∈ txids) (c : CCoins) : clearAll (view.setCoins txid c) txids = clearAll view txids := by
  ext1
  · funext k
    by_cases hk : k = txid
    · subst hk
      simp [coins_clearAll, h]
    · simp [coins_clearAll, Function.update_of_ne hk]
  · rfl

/-- A write to an entry that is not cleared passes the clearing. -/
theorem clearAll_setCoins_of_not_mem (view : CCoinsViewCache) {txids : List uint256} {txid : uint256}
    (h : txid ∉ txids) (c : CCoins) :
    clearAll (view.setCoins txid c) txids = (clearAll view txids).setCoins txid c := by
  ext1
  · funext k
    by_cases hk : k = txid
    · subst hk
      simp [coins_clearAll, h]
    · simp [coins_clearAll, Function.update_of_ne hk]
  · rfl

/-- Undo entries for outputs outside the cleared entries pass the clearing. -/
theorem applyTxUndo_clearAll (view : CCoinsViewCache) {txids : List uint256}
    {pairs : List (CTxIn × CTxInUndo)} (hNe : ∀ p ∈ pairs, p.1.prevout.hash ∉ txids) :
    applyTxUndo (clearAll view txids) pairs =
      ((applyTxUndo view pairs).1, clearAll (applyTxUndo view pairs).2 txids) := by
  induction pairs generalizing view with
  | nil => rfl
  | cons p pairs ih =>
    obtain ⟨txin, undo⟩ := p
    have hFirst : txin.prevout.hash ∉ txids := hNe (txin, undo) List.mem_cons_self
    have hStep : ApplyTxInUndo undo (clearAll view txids) txin.prevout =
        ((ApplyTxInUndo undo view txin.prevout).1,
          clearAll (ApplyTxInUndo undo view txin.prevout).2 txids) := by
      simp only [ApplyTxInUndo, coins_clearAll, if_neg hFirst, clearAll_setCoins_of_not_mem _ hFirst]
    simp only [applyTxUndo, hStep, ih _ (fun q hq => hNe q (List.mem_cons_of_mem _ hq))]

/-- Undo entries never touch the best block. -/
theorem applyTxUndo_setBestBlock (view : CCoinsViewCache) (hashBlock : uint256)
    (pairs : List (CTxIn × CTxInUndo)) :
    applyTxUndo (view.setBestBlock hashBlock) pairs =
      ((applyTxUndo view pairs).1, (applyTxUndo view pairs).2.setBestBlock hashBlock) := by
  induction pairs generalizing view with
  | nil => rfl
  | cons p pairs ih =>
    obtain ⟨txin, undo⟩ := p
    have hStep : ApplyTxInUndo undo (view.setBestBlock hashBlock) txin.prevout =
        ((ApplyTxInUndo undo view txin.prevout).1,
          (ApplyTxInUndo undo view txin.prevout).2.setBestBlock hashBlock) := by
      simp only [ApplyTxInUndo, CCoinsViewCache.coins_setBestBlock, setBestBlock_setCoins]
    simp only [applyTxUndo, hStep, ih]

/-! ## Comparing entries -/

/-- Nulling the unspendable outputs twice nulls nothing more: a nulled output
is spendable, and the trim drops no value. -/
theorem clearUnspendable_clearUnspendable (c : CCoins) :
    c.clearUnspendable.clearUnspendable = c.clearUnspendable := by
  let f : CTxOut → CTxOut := fun txout =>
    if isUnspendable txout.scriptPubKey then CTxOut.null else txout
  have hNull : isUnspendable CTxOut.null.scriptPubKey = false := rfl
  have hFix : ∀ o, f (f o) = f o := by
    intro o
    cases h : isUnspendable o.scriptPubKey
    · simp only [f, h, Bool.false_eq_true, if_false]
    · simp only [f, h, if_true, hNull, Bool.false_eq_true, if_false]
  have hMap : ∀ l : List CTxOut, (∀ o ∈ l, f o = o) → l.map f = l := fun l hl => by
    rw [List.map_congr_left hl, List.map_id']
  have hFixed : ∀ o ∈ (c.vout.map f).rdropWhile CTxOut.isNull, f o = o := by
    intro o ho
    obtain ⟨o', -, rfl⟩ := List.mem_map.mp ((List.rdropWhile_prefix _ _).subset ho)
    exact hFix o'
  simp only [CCoins.clearUnspendable, CCoins.cleanup]
  change { c with vout := ((((c.vout.map f).rdropWhile CTxOut.isNull).map f).rdropWhile
    CTxOut.isNull) } = { c with vout := (c.vout.map f).rdropWhile CTxOut.isNull }
  rw [hMap _ hFixed, List.rdropWhile_idempotent]

@[simp] theorem coinsEq_self (c : CCoins) : c.coinsEq c = true := by
  simp [CCoins.coinsEq]

/-- Two pruned entries are equal under `operator==`. -/
theorem coinsEq_of_isPruned {a b : CCoins} (ha : a.isPruned = true) (hb : b.isPruned = true) :
    a.coinsEq b = true := by
  simp [CCoins.coinsEq, ha, hb]

/-- An entry with an unspent output differs from a pruned one. -/
theorem coinsEq_eq_false_of_isPruned {a b : CCoins} (ha : a.isPruned = false)
    (hb : b.isPruned = true) : a.coinsEq b = false := by
  have hVout : a.vout ≠ b.vout := by
    intro hEq
    rw [CCoins.isPruned, hEq] at ha
    rw [CCoins.isPruned] at hb
    rw [ha] at hb
    cases hb
  simp [CCoins.coinsEq, ha, hVout]

end FairCoin.Ports.Coins
