import FairCoin.Verified.Checks
import FairCoin.Ports.Coins
import FairCoin.Ports.AdminSignature
import FairCoin.Ports.Serialize

/-!
# Context-free and contextual block checks

`CheckTransaction`, `CheckBlockHeader`, `CheckBlock` and
`ContextualCheckBlock` of `main.cpp`, with `AcceptBlock`'s order of them.

`CheckBlock` caches its success in the block's mutable `fChecked` field and
returns at once on a block that has it; it is modelled as returning the block
with the field as the code leaves it. Every transaction check of `CheckBlock`
(at least one transaction, a coinbase first and only first,
`CheckTransaction`, the size and signature-operation limits) runs only when
the version carries `TX_PAYLOAD`, while `vtx` is serialized for every block
and `ContextualCheckBlock` reads `vtx[0].vin[0]` without a bound check. A
read past the end of a vector is `ValidationError.outOfRange`.

## Main results

* `contextualCheckBlock_ne_outOfRange` — after `CheckBlock` has run its
  transaction checks, the coinbase read of `ContextualCheckBlock` is in range.
* `acceptBlockChecks_empty_vtx` — a block without `TX_PAYLOAD` and without
  transactions that passes `CheckBlock` makes `ContextualCheckBlock` read
  past the end of `vtx`.
-/

namespace FairCoin.Ports.BlockCheck

open FairCoin.Verified FairCoin.Verified.Checks FairCoin.Ports.Primitives FairCoin.Ports.Serialize
open FairCoin.Ports.PocState FairCoin.Ports.AdminSignature FairCoin.Ports.Coins

/-- What block validation reads from code outside this development: the
transaction and Merkle hashes, serialized sizes, signature-operation counts,
the script interpreter, the PoC checks that read the block index
(`CheckProofOfCooperation`, `CheckForSufficientNumberOfCvns`), and the
node's clock and tip height. -/
structure BlockEnv where
  txid : CTransaction → uint256
  blockMerkleRoot : List CTransaction → uint256 × Bool
  blockSize : CBlock → Nat
  txSize : CTransaction → Nat
  legacySigOps : CTransaction → Nat
  p2shSigOps : CTransaction → CCoinsViewCache → Nat
  verifyScripts : CTransaction → CCoinsViewCache → Bool
  checkProofOfCooperation : CBlock → Bool
  checkSufficientCvns : CBlock → Bool
  nAdjustedTime : Int
  nTipHeight : Int32

/-- `MAX_TX_PER_BLOCK`. -/
def MAX_TX_PER_BLOCK : Nat := 20000

/-- `MAX_BLOCK_SIGOPS`: a fiftieth of the dynamic block size limit. -/
def MAX_BLOCK_SIGOPS (dynParams : CDynamicChainParams) : Nat := dynParams.nMaxBlockSize.toNat / 50

/-! ## Transactions -/

/-- The output loop of `CheckTransaction`: no negative value, none above
`MAX_MONEY`, and the running sum in the money range. -/
def checkOutputValues : CAmount → List CTxOut → Except ValidationError Unit
  | _, [] => .ok ()
  | nValueOut, txout :: rest =>
    if txout.nValue < 0 then .error (.invalid "bad-txns-vout-negative")
    else if txout.nValue > MAX_MONEY then .error (.invalid "bad-txns-vout-toolarge")
    else if !MoneyRange (nValueOut + txout.nValue) then
      .error (.invalid "bad-txns-txouttotal-toolarge")
    else checkOutputValues (nValueOut + txout.nValue) rest

/-- `CheckTransaction`. The loop over a set of outpoints fails at the first
repeat, so it passes exactly on repeat-free inputs. -/
def CheckTransaction (env : BlockEnv) (nMaxBlockSize : UInt32) (tx : CTransaction) :
    Except ValidationError Unit := do
  failIf tx.vin.isEmpty (.invalid "bad-txns-vin-empty")
  failIf tx.vout.isEmpty (.invalid "bad-txns-vout-empty")
  failIf (env.txSize tx > nMaxBlockSize.toNat) (.invalid "bad-txns-oversize")
  checkOutputValues 0 tx.vout
  failIf (!decide (tx.vin.map CTxIn.prevout).Nodup) (.invalid "bad-txns-inputs-duplicate")
  if tx.isCoinBase then
    failIf (match tx.vin with
      | txin :: _ => txin.scriptSig.length < 2 || txin.scriptSig.length > 100
      | [] => false) (.invalid "bad-cb-length")
  else failIf (tx.vin.any fun txin => txin.prevout.isNull) (.invalid "bad-txns-prevout-null")

/-- `IsFinalTx`: no lock time, a lock time (a height below
`LOCKTIME_THRESHOLD`, else a time) already passed, or every input final. -/
def IsFinalTx (tx : CTransaction) (nBlockHeight : Int32) (nBlockTime : Int) : Bool :=
  tx.nLockTime == 0 ||
    decide ((tx.nLockTime.toNat : Int) <
      if tx.nLockTime.toNat < 500000000 then nBlockHeight.toInt else nBlockTime) ||
    tx.vin.all CTxIn.isFinal

/-! ## Headers and blocks -/

/-- `CheckBlockHeader`: some payload bit, a creator not banned above the
tip, and a time not too far ahead of the node's clock. -/
def CheckBlockHeader (env : BlockEnv) (g : PocGlobals) (block : CBlockHeader) :
    Except ValidationError Unit := do
  failIf (block.nVersion &&& CBlockHeader.PAYLOAD_MASK == 0) (.invalid "no-blk-type")
  failIf ((g.mapBannedCVNs.find? block.nCreatorId).any fun nBanHeight =>
    nBanHeight > env.nTipHeight.toUInt32) (.invalid "banned-cvn")
  failIf ((block.nTime.toNat : Int) > env.nAdjustedTime + g.dynParams.nBlockSpacing.toNat + 30)
    (.invalid "time-too-new")

/-- The transaction checks of `CheckBlock`, run for blocks with `TX_PAYLOAD`. -/
def checkBlockTxs (env : BlockEnv) (g : PocGlobals) (block : CBlock) :
    Except ValidationError Unit := do
  failIf (block.vtx.isEmpty || block.vtx.length > MAX_TX_PER_BLOCK ||
    env.blockSize block > g.dynParams.nMaxBlockSize.toNat) (.invalid "bad-blk-length")
  failIf (match block.vtx with
    | [] => true
    | tx0 :: _ => !tx0.isCoinBase) (.invalid "bad-cb-missing")
  failIf ((block.vtx.drop 1).any CTransaction.isCoinBase) (.invalid "bad-cb-multiple")
  block.vtx.forM (CheckTransaction env g.dynParams.nMaxBlockSize)
  failIf ((block.vtx.map env.legacySigOps).sum > MAX_BLOCK_SIGOPS g.dynParams)
    (.invalid "bad-blk-sigops")

/-- The admin-signature check of `CheckBlock`, for blocks with an admin
payload: the signer list, then the signature over `GetPayloadHash(true)`. -/
def checkAdminPayloadSig (ec : PocCrypto) (g : PocGlobals) (block : CBlock) :
    Except ValidationError Unit := do
  failIf (!CheckForDuplicateAdminSigs g block) (.invalid "bad-admin-sig")
  failIf (!CheckAdminSignature ec g block.vAdminIds (GetPayloadHash ec.hash true block)
    block.adminMultiSig block.hasCoinSupplyPayload) (.invalid "bad-admin-sig")

/-- The PoC part of `CheckBlock`: creator and chain signatures, the admin
signature of an admin payload, and the payload hash. -/
def checkBlockPoc (env : BlockEnv) (ec : PocCrypto) (g : PocGlobals) (block : CBlock) :
    Except ValidationError Unit := do
  failIf (!env.checkProofOfCooperation block) (.invalid "poc-failed")
  onlyIf block.hasAdminPayload (checkAdminPayloadSig ec g block)
  failIf (block.hashPayload != GetPayloadHash ec.hash false block) (.invalid "bad-payload-hash")

/-- The Merkle part of `CheckBlock`: the root, and no duplicated subtree. -/
def checkBlockMerkleRoot (env : BlockEnv) (block : CBlock) : Except ValidationError Unit := do
  failIf (block.hashMerkleRoot != (env.blockMerkleRoot block.vtx).1) (.invalid "bad-txnmrklroot")
  failIf (env.blockMerkleRoot block.vtx).2 (.invalid "bad-txns-duplicate")

/-- The payload part of `CheckBlock`: the CVN list, the admin list and the
chain parameters, each when its bit is set. -/
def checkBlockPayloads (env : BlockEnv) (block : CBlock) : Except ValidationError Unit := do
  onlyIf block.hasCvnInfo (do
    failIf (block.vCvns.isEmpty || block.vCvns.length > MAX_NUMBER_OF_CVNS)
      (.invalid "bad-blk-length-cvn")
    failIf (!CheckForDuplicateCvns block.vCvns) (.invalid "bad-dupl-cvn")
    failIf (!env.checkSufficientCvns block) (.invalid "too-few-cvns"))
  onlyIf block.hasChainAdmins (do
    failIf (block.vChainAdmins.isEmpty || block.vChainAdmins.length > MAX_NUMBER_OF_CHAIN_ADMINS)
      (.invalid "bad-blk-length-adm")
    failIf (!CheckForDuplicateChainAdmins block.vChainAdmins) (.invalid "bad-dupl-adm"))
  failIf (block.hasChainParameters && !CheckDynamicChainParameters block.dynamicChainParams)
    (.invalid "bad-dyn-params")

/-- `CheckBlock`: the block as the code leaves it, `fChecked` set when both
the PoC and the Merkle checks ran. A block already marked checked passes at
once. -/
def CheckBlock (env : BlockEnv) (ec : PocCrypto) (g : PocGlobals) (block : CBlock)
    (fCheckPOC fCheckMerkleRoot : Bool) : Except ValidationError CBlock :=
  if block.fChecked then .ok block
  else do
    CheckBlockHeader env g block.toCBlockHeader
    onlyIf fCheckPOC (checkBlockPoc env ec g block)
    onlyIf fCheckMerkleRoot (checkBlockMerkleRoot env block)
    checkBlockPayloads env block
    onlyIf block.hasTx (checkBlockTxs env g block)
    return { block with fChecked := fCheckPOC && fCheckMerkleRoot }

/-! ## The height in the coinbase -/

/-- The bytes of a `CScript` data push (`CScript::operator<<` on a byte
vector). -/
def pushData (b : List UInt8) : CScript :=
  if b.length < 0x4c then UInt8.ofNat b.length :: b
  else if b.length ≤ 0xff then 0x4c :: UInt8.ofNat b.length :: b
  else if b.length ≤ 0xffff then 0x4d :: ByteCodec.leBytes 2 b.length ++ b
  else 0x4e :: ByteCodec.leBytes 4 b.length ++ b

/-- The magnitude bytes of `CScriptNum::serialize`, least significant first;
eight bytes hold every `int64_t`. -/
def magnitudeBytes : Nat → Nat → List UInt8
  | 0, _ => []
  | fuel + 1, n => if n = 0 then [] else UInt8.ofNat (n % 256) :: magnitudeBytes fuel (n / 256)

/-- `CScriptNum::serialize`: minimal little-endian magnitude, the sign in the
top bit of the last byte (with an extra byte when that bit is taken). -/
def scriptNumSerialize (value : Int) : List UInt8 :=
  let result := magnitudeBytes 8 value.natAbs
  match result.getLast? with
  | none => []
  | some msb =>
    if msb &&& 0x80 != 0 then result ++ [if value < 0 then 0x80 else 0]
    else if value < 0 then result.dropLast ++ [msb ||| 0x80]
    else result

/-- `CScript() << n` for an integer: the small-number opcodes for -1 and
1 to 16, `OP_0` for zero, otherwise a push of the serialized number. -/
def pushInt64 (n : Int) : CScript :=
  if n = -1 ∨ (1 ≤ n ∧ n ≤ 16) then [UInt8.ofInt (n + 0x50)]
  else if n = 0 then [0]
  else pushData (scriptNumSerialize n)

/-- `ContextualCheckBlock`: transactions final at the block's height (for
blocks with `TX_PAYLOAD`), then the height at the start of the coinbase's
first input script, read without a bound check. -/
def ContextualCheckBlock (block : CBlock) (pindexPrev : Option CBlockIndex) :
    Except ValidationError Unit := do
  let nHeight : Int32 := match pindexPrev with
    | none => 0
    | some prev => prev.nHeight + 1
  onlyIf block.hasTx (failIf (!block.vtx.all fun tx => IsFinalTx tx nHeight block.nTime.toNat)
    (.invalid "bad-txns-nonfinal"))
  match block.vtx with
  | [] => throw .outOfRange
  | tx0 :: _ =>
    match tx0.vin with
    | [] => throw .outOfRange
    | txin0 :: _ =>
      failIf (txin0.scriptSig.length < (pushInt64 nHeight.toInt).length ||
        !(pushInt64 nHeight.toInt).isPrefixOf txin0.scriptSig) (.invalid "bad-cb-height")

/-- The checks of `AcceptBlock`, in its order: `CheckBlock` (with the PoC
and Merkle checks), then `ContextualCheckBlock` against the parent. -/
def acceptBlockChecks (env : BlockEnv) (ec : PocCrypto) (g : PocGlobals) (block : CBlock)
    (pindexPrev : Option CBlockIndex) : Except ValidationError CBlock := do
  let checked ← CheckBlock env ec g block true true
  ContextualCheckBlock checked pindexPrev
  return checked

/-! ## What a passing check establishes -/

/-- Every output that passed the output loop of `CheckTransaction` has a
value of at least zero. -/
theorem checkOutputValues_nonneg {nValueOut : CAmount} {outs : List CTxOut}
    (h : checkOutputValues nValueOut outs = .ok ()) : ∀ o ∈ outs, 0 ≤ o.nValue := by
  induction outs generalizing nValueOut with
  | nil => simp
  | cons o rest ih =>
    unfold checkOutputValues at h
    split_ifs at h with hNeg hBig hRange
    intro o' ho'
    rcases List.mem_cons.mp ho' with rfl | hMem
    · exact Int64.not_lt.mp hNeg
    · exact ih h o' hMem

/-- A transaction that passed `CheckTransaction` has no negative output, so
no null one. -/
theorem CheckTransaction_vout {env : BlockEnv} {nMaxBlockSize : UInt32} {tx : CTransaction}
    (h : CheckTransaction env nMaxBlockSize tx = .ok ()) : ∀ o ∈ tx.vout, 0 ≤ o.nValue := by
  simp only [CheckTransaction, bind_eq_ok, failIf_eq_ok] at h
  obtain ⟨_, -, _, -, _, -, _, hOut, -⟩ := h
  exact checkOutputValues_nonneg hOut

/-- `CheckBlock` on a block not yet marked checked: each of its sections
passed (the PoC and Merkle ones when asked for, the transaction one for
blocks with `TX_PAYLOAD`), and the block comes back marked when both were
asked for. -/
theorem CheckBlock_eq_ok {env : BlockEnv} {ec : PocCrypto} {g : PocGlobals} {block b' : CBlock}
    {fCheckPOC fCheckMerkleRoot : Bool} (hUnchecked : block.fChecked = false) :
    CheckBlock env ec g block fCheckPOC fCheckMerkleRoot = .ok b' ↔
      CheckBlockHeader env g block.toCBlockHeader = .ok () ∧
      (fCheckPOC = true → checkBlockPoc env ec g block = .ok ()) ∧
      (fCheckMerkleRoot = true → checkBlockMerkleRoot env block = .ok ()) ∧
      checkBlockPayloads env block = .ok () ∧
      (block.hasTx = true → checkBlockTxs env g block = .ok ()) ∧
      b' = { block with fChecked := fCheckPOC && fCheckMerkleRoot } := by
  simp only [CheckBlock, hUnchecked, Bool.false_eq_true, if_false, bind_eq_ok, onlyIf_eq_ok,
    pure_eq_ok]
  constructor
  · rintro ⟨⟨⟩, hHeader, ⟨⟩, hPoc, ⟨⟩, hMerkle, ⟨⟩, hPayloads, ⟨⟩, hTxs, rfl⟩
    exact ⟨hHeader, hPoc, hMerkle, hPayloads, hTxs, rfl⟩
  · rintro ⟨hHeader, hPoc, hMerkle, hPayloads, hTxs, rfl⟩
    exact ⟨(), hHeader, (), hPoc, (), hMerkle, (), hPayloads, (), hTxs, rfl⟩

/-- A block already marked checked passes `CheckBlock` unchanged, whatever
the environment. -/
@[simp] theorem CheckBlock_of_fChecked {env : BlockEnv} {ec : PocCrypto} {g : PocGlobals}
    {block : CBlock} (fCheckPOC fCheckMerkleRoot : Bool) (hChecked : block.fChecked = true) :
    CheckBlock env ec g block fCheckPOC fCheckMerkleRoot = .ok block := by
  simp [CheckBlock, hChecked]

/-- `CheckBlock` changes nothing of a block but its `fChecked` mark. -/
theorem CheckBlock_eq_ok_block {env : BlockEnv} {ec : PocCrypto} {g : PocGlobals}
    {block b' : CBlock} {fCheckPOC fCheckMerkleRoot : Bool}
    (h : CheckBlock env ec g block fCheckPOC fCheckMerkleRoot = .ok b') :
    b' = { block with fChecked := b'.fChecked } := by
  cases hChecked : block.fChecked
  · rw [(CheckBlock_eq_ok hChecked).mp h |>.2.2.2.2.2]
  · simp only [CheckBlock, hChecked, if_true, Except.ok.injEq] at h
    subst h
    cases block
    simp only at hChecked ⊢

/-- The transaction checks of `CheckBlock` leave a coinbase first, no
coinbase after it, and every transaction past `CheckTransaction`. -/
theorem checkBlockTxs_coinbase {env : BlockEnv} {g : PocGlobals} {block : CBlock}
    (h : checkBlockTxs env g block = .ok ()) :
    ∃ tx0 rest, block.vtx = tx0 :: rest ∧ tx0.isCoinBase = true ∧
      (∀ tx ∈ rest, tx.isCoinBase = false) ∧
      ∀ tx ∈ block.vtx, CheckTransaction env g.dynParams.nMaxBlockSize tx = .ok () := by
  simp only [checkBlockTxs, bind_eq_ok, failIf_eq_ok] at h
  obtain ⟨_, -, _, hFirst, _, hOthers, _, hTxs, -⟩ := h
  cases hVtx : block.vtx with
  | nil => simp [hVtx] at hFirst
  | cons tx0 rest =>
    rw [hVtx] at hFirst hOthers hTxs
    refine ⟨tx0, rest, rfl, by simpa using hFirst, ?_, forM_eq_ok.mp hTxs⟩
    simpa using hOthers

/-- A coinbase has exactly one input. -/
theorem vin_of_isCoinBase {tx : CTransaction} (h : tx.isCoinBase = true) : ∃ txin, tx.vin = [txin] := by
  unfold CTransaction.isCoinBase at h
  split at h
  · next txin hVin => exact ⟨txin, hVin⟩
  · cases h

/-- Two guards that fail only with reject reasons never fail by an
out-of-range read. -/
theorem guards_ne_outOfRange (c d e : Bool) (reason₁ reason₂ : String) :
    (onlyIf c (failIf d (.invalid reason₁)) >>= fun _ => failIf e (.invalid reason₂)) ≠
      .error ValidationError.outOfRange := by
  cases c <;> cases d <;> cases e <;> simp [onlyIf, failIf, bind, Except.bind]

/-- After `CheckBlock` has run its transaction checks on a block with
`TX_PAYLOAD`, `ContextualCheckBlock`'s read of the coinbase's first input is
in range: the block has a first transaction, and it has an input. -/
theorem contextualCheckBlock_ne_outOfRange {env : BlockEnv} {ec : PocCrypto} {g : PocGlobals}
    {block b' : CBlock} {fCheckPOC fCheckMerkleRoot : Bool} (hUnchecked : block.fChecked = false)
    (hTx : block.hasTx = true) (h : CheckBlock env ec g block fCheckPOC fCheckMerkleRoot = .ok b')
    (pindexPrev : Option CBlockIndex) : ContextualCheckBlock b' pindexPrev ≠ .error .outOfRange := by
  obtain ⟨-, -, -, -, hTxs, rfl⟩ := (CheckBlock_eq_ok hUnchecked).mp h
  obtain ⟨tx0, rest, hVtx, hCoinBase, -, -⟩ := checkBlockTxs_coinbase (hTxs hTx)
  obtain ⟨txin, hVin⟩ := vin_of_isCoinBase hCoinBase
  unfold ContextualCheckBlock
  dsimp only
  simp only [hVtx, hVin]
  exact guards_ne_outOfRange _ _ _ _ _

/-- A block without `TX_PAYLOAD` and without transactions that passes
`CheckBlock` makes `AcceptBlock`'s `ContextualCheckBlock` read `vtx[0]` past
the end of the vector, whatever its parent. -/
theorem acceptBlockChecks_empty_vtx {env : BlockEnv} {ec : PocCrypto} {g : PocGlobals}
    {block b' : CBlock} (hNoTx : block.hasTx = false) (hEmpty : block.vtx = [])
    (hCheck : CheckBlock env ec g block true true = .ok b') (pindexPrev : Option CBlockIndex) :
    acceptBlockChecks env ec g block pindexPrev = .error .outOfRange := by
  have hBlock := CheckBlock_eq_ok_block hCheck
  unfold acceptBlockChecks
  rw [hCheck, hBlock]
  simp [ContextualCheckBlock, hNoTx, hEmpty, onlyIf, bind, Except.bind]
  rfl

/-- An environment in which every check outside the model passes: all
transactions hash to `0`, the Merkle root of any list is `0` and not mutated,
sizes and signature-operation counts are `0`, scripts and the PoC checks
pass, and the clock and the tip are at `0`. -/
def passingEnv : BlockEnv :=
  ⟨fun _ => 0, fun _ => (0, false), fun _ => 0, fun _ => 0, fun _ => 0, fun _ _ => 0,
    fun _ _ => true, fun _ => true, fun _ => true, 0, 0⟩

/-- One chain admin (id 1, key `⟨1⟩`) and one admin signature required. -/
def oneAdminNode : PocGlobals :=
  { (default : PocGlobals) with
    mapChainAdmins := SortedMap.empty.insert 1 ⟨1, 0, ⟨1⟩⟩
    dynParams := { (default : CDynamicChainParams) with nMinAdminSigs := 1, nMaxAdminSigs := 1 } }

/-- A block that carries only a CVN list (no `TX_PAYLOAD`), signed by admin 1,
and no transactions. -/
def cvnListOnlyBlock : CBlock :=
  { (default : CBlock) with
    nVersion := CBlockHeader.CVN_PAYLOAD, vCvns := [⟨1, 0, ⟨1⟩⟩], vAdminIds := [1],
    adminMultiSig := ⟨1⟩ }

theorem acceptBlockChecks_cvnListOnlyBlock :
    acceptBlockChecks passingEnv echoCrypto oneAdminNode cvnListOnlyBlock none = .error .outOfRange :=
  @acceptBlockChecks_empty_vtx passingEnv echoCrypto oneAdminNode cvnListOnlyBlock
    { cvnListOnlyBlock with fChecked := true } (by decide) rfl (by decide +kernel) none

end FairCoin.Ports.BlockCheck
