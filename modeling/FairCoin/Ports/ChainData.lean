import FairCoin.Verified.FlagWord
import FairCoin.Ports.AdminSignature
import FairCoin.Ports.Serialize

/-!
# Chain data: from an admin message to the block

Chain administrators sign a `CChainDataMsg` for the block after a given tip.
`AddChainData` accepts the message once its admin signature checks out and
files it under that tip; the next block creator on the tip copies it into
its template with `AddChainDataToBlock`, and every validating node then checks
the admin signature again, now against `GetPayloadHash(true)` of the block.

The two hashes are computed by different code. They agree exactly when the
block carries every payload of the message, and `AddChainDataToBlock` drops
two kinds of payload with only a log line: chain parameters that fail
`CheckDynamicChainParameters` and a coin supply after the supply is final.
`AddChainData` checks neither.

## Main results

* `AddChainData_of_checks` — a message is filed whatever its chain parameters.
* `addChainDataToBlock_preimage` — the admin preimage of the block built from
  a message, written as the message's payload with the dropped parts removed.
* `addChainDataToBlock_preimage_eq_iff` — that preimage is the message's
  exactly when no payload was dropped.
-/

namespace FairCoin.Ports.ChainData

open FairCoin.Verified FairCoin.Verified.ByteCodec FairCoin.Ports.Primitives
open FairCoin.Ports.Serialize FairCoin.Ports.PocState FairCoin.Ports.AdminSignature

/-! ## Filing a message: `AddChainData` -/

/-- What `AddChainData` does when it accepts a message: file it under its
tip, or, for a flush request, empty the signature holder. -/
inductive ChainDataEffect
  | store (mapChainData : SortedMap uint256 CChainDataMsg)
  | flushSigHolder

/-- `AddChainData`; `none` is a `false` return, which changes nothing. -/
def AddChainData (ec : PocCrypto) (g : PocGlobals) (mapChainData : SortedMap uint256 CChainDataMsg)
    (msg : CChainDataMsg) : Option ChainDataEffect :=
  if !CheckAdminSignature ec g msg.vAdminIds (chainDataMsgGetHash ec.hash msg) msg.adminMultiSig
      msg.hasCoinSupplyPayload then none
  else if msg.hasCoinSupplyPayload && g.fCoinSupplyFinal then none
  else if !msg.hasFlushSigholderPayload then
    if mapChainData.contains msg.hashPrevBlock then none
    else some (.store (mapChainData.insertNew msg.hashPrevBlock msg))
  else if msg.nPayload &&& CChainDataMsg.BLOCK_PAYLOAD_MASK != 0 then none
  else some .flushSigHolder

/-- `AddChainData` files a message whose admin signature passes, that is no
flush request, carries no coin supply after finality and is the first for
its tip. The chain parameters it carries are not looked at. -/
theorem AddChainData_of_checks (ec : PocCrypto) (g : PocGlobals)
    (mapChainData : SortedMap uint256 CChainDataMsg) (msg : CChainDataMsg)
    (hSig : CheckAdminSignature ec g msg.vAdminIds (chainDataMsgGetHash ec.hash msg)
      msg.adminMultiSig msg.hasCoinSupplyPayload = true)
    (hFinal : (msg.hasCoinSupplyPayload && g.fCoinSupplyFinal) = false)
    (hFlush : msg.hasFlushSigholderPayload = false)
    (hNew : mapChainData.contains msg.hashPrevBlock = false) :
    AddChainData ec g mapChainData msg =
      some (.store (mapChainData.insertNew msg.hashPrevBlock msg)) := by
  simp [AddChainData, hSig, hFinal, hFlush, hNew]

/-- A filed message names at least one admin. -/
theorem AddChainData_ids_ne_nil {ec : PocCrypto} {g : PocGlobals}
    {mapChainData : SortedMap uint256 CChainDataMsg} {msg : CChainDataMsg} {e : ChainDataEffect}
    (h : AddChainData ec g mapChainData msg = some e) : msg.vAdminIds ≠ [] := by
  intro hNil
  have hReject : CheckAdminSignature ec g msg.vAdminIds (chainDataMsgGetHash ec.hash msg)
      msg.adminMultiSig msg.hasCoinSupplyPayload = false := by
    unfold CheckAdminSignature CvnVerifyAdminSignature
    simp only [hNil, List.isEmpty_nil, if_true]
    split_ifs <;> rfl
  simp [AddChainData, hReject] at h

/-! ## Copying a message into a block: `AddChainDataToBlock` -/

/-- One payload of `AddChainDataToBlock`: when `f`, set its bit in `nVersion`
and `copy` the payload over; otherwise leave the block. -/
def addPayload (f : Bool) (bit : Int32) (copy : CBlock → CBlock) (b : CBlock) : CBlock :=
  if f then copy { b with nVersion := b.nVersion ||| bit } else b

/-- `vtx[0]` with the new supply appended as an output. -/
def addCoinSupplyOutput (vtx : List CTransaction) (supply : CCoinSupply) : List CTransaction :=
  match vtx with
  | tx :: rest => { tx with vout := tx.vout ++ [⟨supply.nValue, supply.scriptDestination⟩] } :: rest
  | [] => []

/-- The payloads `AddChainDataToBlock` copies once the signer list passes,
in the order the code copies them. -/
def copyPayloads (g : PocGlobals) (msg : CChainDataMsg) (b : CBlock) : CBlock :=
  b
  |> addPayload msg.hasCvnInfo CBlockHeader.CVN_PAYLOAD
    (fun b => { b with vCvns := msg.vCvns })
  |> addPayload msg.hasChainAdmins CBlockHeader.CHAIN_ADMINS_PAYLOAD
    (fun b => { b with vChainAdmins := msg.vChainAdmins })
  -- invalid parameters are dropped with a log line; the call still succeeds
  |> addPayload (msg.hasChainParameters && CheckDynamicChainParameters msg.dynamicChainParams)
    CBlockHeader.CHAIN_PARAMETERS_PAYLOAD
    (fun b => { b with dynamicChainParams := msg.dynamicChainParams })
  -- so is a supply once the supply is final
  |> addPayload (msg.hasCoinSupplyPayload && !g.fCoinSupplyFinal)
    CBlockHeader.COIN_SUPPLY_PAYLOAD
    (fun b => { b with coinSupply := msg.coinSupply,
                       vtx := addCoinSupplyOutput b.vtx msg.coinSupply })

/-- `AddChainDataToBlock`: the result and the template as the call leaves it. -/
def AddChainDataToBlock (g : PocGlobals) (pblock : CBlock) (msg : CChainDataMsg) : Bool × CBlock :=
  if msg.vAdminIds.isEmpty || msg.adminMultiSig.isNull || msg.nPayload == 0 then (false, pblock)
  else if msg.hashPrevBlock != pblock.hashPrevBlock then (false, pblock)
  else
    let withSigs := { pblock with vAdminIds := msg.vAdminIds, adminMultiSig := msg.adminMultiSig }
    if !CheckForDuplicateAdminSigs g withSigs then
      (true, { withSigs with vAdminIds := [], adminMultiSig := ⟨0⟩ })
    else (true, copyPayloads g msg withSigs)

/-! ## The payload bits of the built block -/

/-- Testing a bit after one payload stage: the old test, or the stage set it. -/
theorem addPayload_testBit (f : Bool) (bit d : Int32) (copy : CBlock → CBlock) (b : CBlock)
    (hCopy : ∀ b', (copy b').toCBlockHeader = b'.toCBlockHeader) :
    ((addPayload f bit copy b).nVersion &&& d != 0) =
      ((b.nVersion &&& d != 0) || (f && (bit &&& d != 0))) := by
  cases f
  · simp [addPayload]
  · simp [addPayload, hCopy, FlagWord.testBit_or]

/-- The payload bits are distinct bits. -/
theorem payload_bits_disjoint :
    (CBlockHeader.CVN_PAYLOAD &&& CBlockHeader.CHAIN_ADMINS_PAYLOAD != 0) = false ∧
    (CBlockHeader.CVN_PAYLOAD &&& CBlockHeader.CHAIN_PARAMETERS_PAYLOAD != 0) = false ∧
    (CBlockHeader.CVN_PAYLOAD &&& CBlockHeader.COIN_SUPPLY_PAYLOAD != 0) = false ∧
    (CBlockHeader.CHAIN_ADMINS_PAYLOAD &&& CBlockHeader.CVN_PAYLOAD != 0) = false ∧
    (CBlockHeader.CHAIN_ADMINS_PAYLOAD &&& CBlockHeader.CHAIN_PARAMETERS_PAYLOAD != 0) = false ∧
    (CBlockHeader.CHAIN_ADMINS_PAYLOAD &&& CBlockHeader.COIN_SUPPLY_PAYLOAD != 0) = false ∧
    (CBlockHeader.CHAIN_PARAMETERS_PAYLOAD &&& CBlockHeader.CVN_PAYLOAD != 0) = false ∧
    (CBlockHeader.CHAIN_PARAMETERS_PAYLOAD &&& CBlockHeader.CHAIN_ADMINS_PAYLOAD != 0) = false ∧
    (CBlockHeader.CHAIN_PARAMETERS_PAYLOAD &&& CBlockHeader.COIN_SUPPLY_PAYLOAD != 0) = false ∧
    (CBlockHeader.COIN_SUPPLY_PAYLOAD &&& CBlockHeader.CVN_PAYLOAD != 0) = false ∧
    (CBlockHeader.COIN_SUPPLY_PAYLOAD &&& CBlockHeader.CHAIN_ADMINS_PAYLOAD != 0) = false ∧
    (CBlockHeader.COIN_SUPPLY_PAYLOAD &&& CBlockHeader.CHAIN_PARAMETERS_PAYLOAD != 0) = false ∧
    (CBlockHeader.CVN_PAYLOAD &&& CBlockHeader.CVN_PAYLOAD != 0) = true ∧
    (CBlockHeader.CHAIN_ADMINS_PAYLOAD &&& CBlockHeader.CHAIN_ADMINS_PAYLOAD != 0) = true ∧
    (CBlockHeader.CHAIN_PARAMETERS_PAYLOAD &&& CBlockHeader.CHAIN_PARAMETERS_PAYLOAD != 0) = true ∧
    (CBlockHeader.COIN_SUPPLY_PAYLOAD &&& CBlockHeader.COIN_SUPPLY_PAYLOAD != 0) = true := by
  decide

/-- A version word without admin payload bits tests negative on each of them. -/
theorem payload_bits_of_mask_eq_zero {v : Int32} (h : v &&& CBlockHeader.ADMIN_PAYLOAD_MASK = 0) :
    (v &&& CBlockHeader.CVN_PAYLOAD != 0) = false ∧
    (v &&& CBlockHeader.CHAIN_ADMINS_PAYLOAD != 0) = false ∧
    (v &&& CBlockHeader.CHAIN_PARAMETERS_PAYLOAD != 0) = false ∧
    (v &&& CBlockHeader.COIN_SUPPLY_PAYLOAD != 0) = false := by
  have hSub : ∀ bit : Int32, bit &&& CBlockHeader.ADMIN_PAYLOAD_MASK = bit →
      (v &&& bit != 0) = false := by
    intro bit hBit
    have hZero : v &&& bit = 0 := calc
      v &&& bit = v &&& (bit &&& CBlockHeader.ADMIN_PAYLOAD_MASK) := by rw [hBit]
      _ = (v &&& CBlockHeader.ADMIN_PAYLOAD_MASK) &&& bit := by
        rw [Int32.and_comm bit, Int32.and_assoc]
      _ = 0 := by rw [h, Int32.zero_and]
    simp [hZero]
  exact ⟨hSub _ (by decide), hSub _ (by decide), hSub _ (by decide), hSub _ (by decide)⟩

theorem copyPayloads_testBit (g : PocGlobals) (msg : CChainDataMsg) (b : CBlock) (d : Int32) :
    ((copyPayloads g msg b).nVersion &&& d != 0) =
      ((b.nVersion &&& d != 0) || (msg.hasCvnInfo && (CBlockHeader.CVN_PAYLOAD &&& d != 0)) ||
        (msg.hasChainAdmins && (CBlockHeader.CHAIN_ADMINS_PAYLOAD &&& d != 0)) ||
        ((msg.hasChainParameters && CheckDynamicChainParameters msg.dynamicChainParams) &&
          (CBlockHeader.CHAIN_PARAMETERS_PAYLOAD &&& d != 0)) ||
        ((msg.hasCoinSupplyPayload && !g.fCoinSupplyFinal) &&
          (CBlockHeader.COIN_SUPPLY_PAYLOAD &&& d != 0))) := by
  unfold copyPayloads
  rw [addPayload_testBit, addPayload_testBit, addPayload_testBit, addPayload_testBit]
  all_goals intro _; rfl

/-- On a template without admin payloads, the built block announces exactly
the payloads that were copied. -/
theorem copyPayloads_payload_bits (g : PocGlobals) (msg : CChainDataMsg) (b : CBlock)
    (h : b.nVersion &&& CBlockHeader.ADMIN_PAYLOAD_MASK = 0) :
    (copyPayloads g msg b).hasCvnInfo = msg.hasCvnInfo ∧
    (copyPayloads g msg b).hasChainParameters =
      (msg.hasChainParameters && CheckDynamicChainParameters msg.dynamicChainParams) ∧
    (copyPayloads g msg b).hasChainAdmins = msg.hasChainAdmins ∧
    (copyPayloads g msg b).hasCoinSupplyPayload = (msg.hasCoinSupplyPayload && !g.fCoinSupplyFinal) := by
  obtain ⟨hCvn0, hAdm0, hPar0, hSup0⟩ := payload_bits_of_mask_eq_zero h
  obtain ⟨d1, d2, d3, d4, d5, d6, d7, d8, d9, d10, d11, d12, s1, s2, s3, s4⟩ := payload_bits_disjoint
  simp only [CBlockHeader.hasCvnInfo, CBlockHeader.hasChainParameters, CBlockHeader.hasChainAdmins,
    CBlockHeader.hasCoinSupplyPayload, copyPayloads_testBit, hCvn0, hAdm0, hPar0, hSup0,
    d1, d2, d3, d4, d5, d6, d7, d8, d9, d10, d11, d12, s1, s2, s3, s4,
    Bool.and_true, Bool.and_false, Bool.or_false, Bool.false_or, and_self]

/-- The fields the admin preimage reads, after the payload stages. -/
theorem copyPayloads_fields (g : PocGlobals) (msg : CChainDataMsg) (b : CBlock) :
    (copyPayloads g msg b).hashPrevBlock = b.hashPrevBlock ∧
    (copyPayloads g msg b).vAdminIds = b.vAdminIds ∧
    (copyPayloads g msg b).adminMultiSig = b.adminMultiSig ∧
    (copyPayloads g msg b).vCvns = (if msg.hasCvnInfo then msg.vCvns else b.vCvns) ∧
    (copyPayloads g msg b).vChainAdmins =
      (if msg.hasChainAdmins then msg.vChainAdmins else b.vChainAdmins) ∧
    (copyPayloads g msg b).dynamicChainParams =
      (if msg.hasChainParameters && CheckDynamicChainParameters msg.dynamicChainParams
        then msg.dynamicChainParams else b.dynamicChainParams) ∧
    (copyPayloads g msg b).coinSupply =
      (if msg.hasCoinSupplyPayload && !g.fCoinSupplyFinal then msg.coinSupply else b.coinSupply) := by
  unfold copyPayloads addPayload
  split_ifs <;> simp_all

/-! ## The admin preimage of the built block -/

/-- A payload part hashed under a flag does not look at its field when the
flag is clear. -/
theorem ite_nil_congr {α : Type} (f : Bool) (ser : α → List UInt8) {x y : α}
    (h : f = true → x = y) : (if f then ser x else []) = (if f then ser y else []) := by
  cases f
  · rfl
  · rw [h rfl]

theorem payloadPreimage_congr {fCvn fParams fAdmins fSupply : Bool}
    {vCvns vCvns' : List CCvnInfo} {params params' : CDynamicChainParams}
    {vChainAdmins vChainAdmins' : List CChainAdmin} {supply supply' : CCoinSupply}
    (hCvn : fCvn = true → vCvns = vCvns') (hParams : fParams = true → params = params')
    (hAdmins : fAdmins = true → vChainAdmins = vChainAdmins')
    (hSupply : fSupply = true → supply = supply') :
    payloadPreimage fCvn fParams fAdmins fSupply vCvns params vChainAdmins supply =
      payloadPreimage fCvn fParams fAdmins fSupply vCvns' params' vChainAdmins' supply' := by
  unfold payloadPreimage
  rw [ite_nil_congr fCvn _ hCvn, ite_nil_congr fParams _ hParams,
    ite_nil_congr fAdmins _ hAdmins, ite_nil_congr fSupply _ hSupply]

theorem length_payloadPreimage (fCvn fParams fAdmins fSupply : Bool) (vCvns : List CCvnInfo)
    (params : CDynamicChainParams) (vChainAdmins : List CChainAdmin) (supply : CCoinSupply) :
    (payloadPreimage fCvn fParams fAdmins fSupply vCvns params vChainAdmins supply).length =
      (if fCvn then (serVector serCvnInfo vCvns).length else 0) +
      (if fParams then (serDynamicChainParams params).length else 0) +
      (if fAdmins then (serVector serChainAdmin vChainAdmins).length else 0) +
      (if fSupply then (serCoinSupply supply).length else 0) := by
  unfold payloadPreimage
  simp only [List.length_append]
  split_ifs <;> rfl

theorem serDynamicChainParams_length_pos (p : CDynamicChainParams) :
    0 < (serDynamicChainParams p).length := by
  simp [serDynamicChainParams, ser32]

theorem serCoinSupply_length_pos (s : CCoinSupply) : 0 < (serCoinSupply s).length := by
  simp [serCoinSupply, ser32]

/-- A part hashed under `f && f'` is no longer than the part under `f`. -/
theorem ite_and_le (f f' : Bool) (n : Nat) :
    (if (f && f') then n else 0) ≤ (if f then n else 0) := by
  cases f <;> cases f' <;> simp

/-- The block `AddChainDataToBlock` builds from a message, on a template for
the message's tip without admin payloads (as `PopulateBlock` leaves it), once
the message's signer list passes the duplicate check: the call succeeds, the
signers and the signature are the message's, and the admin preimage is the
message's tip and payload, less invalid chain parameters and less a coin
supply after finality. -/
theorem addChainDataToBlock_preimage (g : PocGlobals) (b : CBlock) (msg : CChainDataMsg)
    (hTemplate : b.nVersion &&& CBlockHeader.ADMIN_PAYLOAD_MASK = 0)
    (hIds : msg.vAdminIds ≠ []) (hNull : msg.adminMultiSig.isNull = false)
    (hPayload : msg.nPayload ≠ 0) (hPrev : msg.hashPrevBlock = b.hashPrevBlock)
    (hDup : checkDuplicateSignerIds msg.vAdminIds g.mapChainAdmins.size = true) :
    (AddChainDataToBlock g b msg).1 = true ∧
    (AddChainDataToBlock g b msg).2.vAdminIds = msg.vAdminIds ∧
    (AddChainDataToBlock g b msg).2.adminMultiSig = msg.adminMultiSig ∧
    blockPayloadPreimage true (AddChainDataToBlock g b msg).2 =
      serUint256 msg.hashPrevBlock ++
      payloadPreimage msg.hasCvnInfo
        (msg.hasChainParameters && CheckDynamicChainParameters msg.dynamicChainParams)
        msg.hasChainAdmins (msg.hasCoinSupplyPayload && !g.fCoinSupplyFinal)
        msg.vCvns msg.dynamicChainParams msg.vChainAdmins msg.coinSupply := by
  have hPass : (msg.vAdminIds.isEmpty || msg.adminMultiSig.isNull || msg.nPayload == 0) = false := by
    simp [hIds, hNull, hPayload]
  have hSame : (msg.hashPrevBlock != b.hashPrevBlock) = false := by simp [hPrev]
  have hDup' : CheckForDuplicateAdminSigs g
      { b with vAdminIds := msg.vAdminIds, adminMultiSig := msg.adminMultiSig } = true := hDup
  have hBuild : AddChainDataToBlock g b msg = (true, copyPayloads g msg
      { b with vAdminIds := msg.vAdminIds, adminMultiSig := msg.adminMultiSig }) := by
    simp only [AddChainDataToBlock, hPass, hSame, hDup', Bool.not_true, Bool.false_eq_true, if_false]
  obtain ⟨hC, hP, hA, hS⟩ := copyPayloads_payload_bits g msg
    { b with vAdminIds := msg.vAdminIds, adminMultiSig := msg.adminMultiSig } hTemplate
  obtain ⟨fPrev, fIds, fSig, fCvns, fAdmins, fParams, fSupply⟩ := copyPayloads_fields g msg
    { b with vAdminIds := msg.vAdminIds, adminMultiSig := msg.adminMultiSig }
  rw [hBuild]
  refine ⟨rfl, fIds, fSig, ?_⟩
  rw [blockPayloadPreimage, hC, hP, hA, hS, fPrev, hPrev]
  simp only [if_true, List.append_nil]
  congr 1
  apply payloadPreimage_congr
  · intro h
    rw [fCvns, if_pos h]
  · intro h
    rw [fParams, if_pos h]
  · intro h
    rw [fAdmins, if_pos h]
  · intro h
    rw [fSupply, if_pos h]

/-- Under the same conditions, the admin preimage of the built block is the
message's exactly when `AddChainDataToBlock` dropped nothing: the message
carries no chain parameters, or valid ones, and no coin supply, or one
before finality. -/
theorem addChainDataToBlock_preimage_eq_iff (g : PocGlobals) (b : CBlock) (msg : CChainDataMsg)
    (hTemplate : b.nVersion &&& CBlockHeader.ADMIN_PAYLOAD_MASK = 0)
    (hIds : msg.vAdminIds ≠ []) (hNull : msg.adminMultiSig.isNull = false)
    (hPayload : msg.nPayload ≠ 0) (hPrev : msg.hashPrevBlock = b.hashPrevBlock)
    (hDup : checkDuplicateSignerIds msg.vAdminIds g.mapChainAdmins.size = true) :
    (AddChainDataToBlock g b msg).1 = true ∧
    (AddChainDataToBlock g b msg).2.vAdminIds = msg.vAdminIds ∧
    (AddChainDataToBlock g b msg).2.adminMultiSig = msg.adminMultiSig ∧
    (blockPayloadPreimage true (AddChainDataToBlock g b msg).2 = chainDataMsgPreimage msg ↔
      (msg.hasChainParameters = true → CheckDynamicChainParameters msg.dynamicChainParams = true) ∧
      (msg.hasCoinSupplyPayload = true → g.fCoinSupplyFinal = false)) := by
  obtain ⟨hOk, hIdsEq, hSigEq, hPre⟩ :=
    addChainDataToBlock_preimage g b msg hTemplate hIds hNull hPayload hPrev hDup
  refine ⟨hOk, hIdsEq, hSigEq, ?_⟩
  rw [hPre, chainDataMsgPreimage]
  have hParamsPos := serDynamicChainParams_length_pos msg.dynamicChainParams
  have hSupplyPos := serCoinSupply_length_pos msg.coinSupply
  constructor
  · -- a dropped payload makes the block's preimage strictly shorter
    intro hEq
    have hLen := congrArg List.length (List.append_cancel_left hEq)
    rw [length_payloadPreimage, length_payloadPreimage] at hLen
    have hPle := ite_and_le msg.hasChainParameters (CheckDynamicChainParameters msg.dynamicChainParams)
      (serDynamicChainParams msg.dynamicChainParams).length
    have hSle := ite_and_le msg.hasCoinSupplyPayload (!g.fCoinSupplyFinal)
      (serCoinSupply msg.coinSupply).length
    have hPeq : (if (msg.hasChainParameters && CheckDynamicChainParameters msg.dynamicChainParams)
        then (serDynamicChainParams msg.dynamicChainParams).length else 0) =
        (if msg.hasChainParameters then (serDynamicChainParams msg.dynamicChainParams).length
          else 0) := by omega
    have hSeq : (if (msg.hasCoinSupplyPayload && !g.fCoinSupplyFinal)
        then (serCoinSupply msg.coinSupply).length else 0) =
        (if msg.hasCoinSupplyPayload then (serCoinSupply msg.coinSupply).length else 0) := by omega
    constructor
    · intro hParams
      cases hValid : CheckDynamicChainParameters msg.dynamicChainParams
      · simp only [hParams, hValid, Bool.and_false, Bool.false_eq_true, if_false, if_true] at hPeq
        omega
      · rfl
    · intro hSupply
      cases hFinal : g.fCoinSupplyFinal
      · rfl
      · simp only [hSupply, hFinal, Bool.not_true, Bool.and_false, Bool.false_eq_true, if_false,
          if_true] at hSeq
        omega
  · -- nothing dropped: both flags of the block are the message's
    rintro ⟨hParams, hSupply⟩
    have hP : (msg.hasChainParameters && CheckDynamicChainParameters msg.dynamicChainParams) =
        msg.hasChainParameters := by
      cases h : msg.hasChainParameters
      · rfl
      · simp [hParams h]
    have hS : (msg.hasCoinSupplyPayload && !g.fCoinSupplyFinal) = msg.hasCoinSupplyPayload := by
      cases h : msg.hasCoinSupplyPayload
      · rfl
      · simp [hSupply h]
    rw [hP, hS]

/-- For a message `AddChainData` files and a template for its tip without
admin payloads: `AddChainDataToBlock` succeeds with the message's signers and
signature, and the block's admin preimage is the message's exactly when the
message carries no chain parameters or valid ones. A message with invalid
parameters is filed, and every block built from it hashes differently. -/
theorem addChainData_block_preimage_eq_iff (ec : PocCrypto) (g : PocGlobals)
    (mapChainData : SortedMap uint256 CChainDataMsg) (msg : CChainDataMsg)
    (hFiled : (AddChainData ec g mapChainData msg).isSome = true) (b : CBlock)
    (hTemplate : b.nVersion &&& CBlockHeader.ADMIN_PAYLOAD_MASK = 0)
    (hNull : msg.adminMultiSig.isNull = false) (hPayload : msg.nPayload ≠ 0)
    (hPrev : msg.hashPrevBlock = b.hashPrevBlock)
    (hDup : checkDuplicateSignerIds msg.vAdminIds g.mapChainAdmins.size = true) :
    (AddChainDataToBlock g b msg).1 = true ∧
    (AddChainDataToBlock g b msg).2.vAdminIds = msg.vAdminIds ∧
    (AddChainDataToBlock g b msg).2.vAdminIds ≠ [] ∧
    (AddChainDataToBlock g b msg).2.adminMultiSig = msg.adminMultiSig ∧
    (blockPayloadPreimage true (AddChainDataToBlock g b msg).2 = chainDataMsgPreimage msg ↔
      (msg.hasChainParameters = true → CheckDynamicChainParameters msg.dynamicChainParams = true)) := by
  obtain ⟨e, he⟩ := Option.isSome_iff_exists.mp hFiled
  have hIds := AddChainData_ids_ne_nil he
  have hNotFinal : msg.hasCoinSupplyPayload = true → g.fCoinSupplyFinal = false := by
    intro hSupply
    cases hFinal : g.fCoinSupplyFinal
    · rfl
    · simp [AddChainData, hSupply, hFinal] at he
  obtain ⟨hOk, hIdsEq, hSigEq, hIff⟩ :=
    addChainDataToBlock_preimage_eq_iff g b msg hTemplate hIds hNull hPayload hPrev hDup
  refine ⟨hOk, hIdsEq, hIdsEq ▸ hIds, hSigEq, ?_⟩
  rw [hIff]
  exact ⟨fun h => h.1, fun h => ⟨h, hNotFinal⟩⟩

/-- One chain admin, key `⟨1⟩`, threshold one (the bootstrap case). -/
def oneAdminGlobals : PocGlobals :=
  { (default : PocGlobals) with
    mapChainAdmins := ⟨[(1, ⟨1, 0, ⟨1⟩⟩)], by decide⟩
    dynParams := { (default : CDynamicChainParams) with nMinAdminSigs := 1, nMaxAdminSigs := 1 } }

/-- A hash that is the length of the preimage, and a signature that passes
when it is the hash plus the key: enough to tell two preimages of different
lengths apart. -/
def lengthCrypto : PocCrypto :=
  ⟨fun bytes => BitVec.ofNat 256 bytes.length,
    fun hash sig pk => sig.data.toNat == hash.toNat + pk.data.toNat, fun _ _ _ _ => true,
    List.head?, List.head?⟩

/-- A message that installs the CVN list `[1]` and changes the chain
parameters to the null parameters, which `CheckDynamicChainParameters`
rejects (a block spacing of zero), unsigned. -/
def cvnNullParamsBody : CChainDataMsg :=
  { (default : CChainDataMsg) with
    nPayload := CChainDataMsg.CVN_PAYLOAD ||| CChainDataMsg.CHAIN_PARAMETERS_PAYLOAD,
    vCvns := [⟨1, 0, ⟨1⟩⟩], vAdminIds := [1] }

/-- That message signed by admin 1 under `lengthCrypto`. -/
def cvnNullParamsMsg : CChainDataMsg :=
  { cvnNullParamsBody with
    adminMultiSig := ⟨BitVec.ofNat 512 ((chainDataMsgPreimage cvnNullParamsBody).length + 1)⟩ }

/-- The template `PopulateBlock` starts from: version one with transactions. -/
def txTemplate : CBlock :=
  { (default : CBlock) with nVersion := CBlockHeader.CURRENT_VERSION ||| CBlockHeader.TX_PAYLOAD }

/-- `AddChainData` files `cvnNullParamsMsg`, and the block built from it keeps
the CVN list, so `CheckBlock` checks its admin signature, over a preimage
without the parameters, and the check fails. -/
theorem addChainData_block_preimage_cvnNullParams :
    ((AddChainDataToBlock oneAdminGlobals txTemplate cvnNullParamsMsg).1 = true ∧
      (AddChainDataToBlock oneAdminGlobals txTemplate cvnNullParamsMsg).2.vAdminIds =
        cvnNullParamsMsg.vAdminIds ∧
      (AddChainDataToBlock oneAdminGlobals txTemplate cvnNullParamsMsg).2.vAdminIds ≠ [] ∧
      (AddChainDataToBlock oneAdminGlobals txTemplate cvnNullParamsMsg).2.adminMultiSig =
        cvnNullParamsMsg.adminMultiSig ∧
      (blockPayloadPreimage true (AddChainDataToBlock oneAdminGlobals txTemplate cvnNullParamsMsg).2 =
          chainDataMsgPreimage cvnNullParamsMsg ↔
        (cvnNullParamsMsg.hasChainParameters = true →
          CheckDynamicChainParameters cvnNullParamsMsg.dynamicChainParams = true))) ∧
    (AddChainDataToBlock oneAdminGlobals txTemplate cvnNullParamsMsg).2.hasAdminPayload = true ∧
    CheckAdminSignature lengthCrypto oneAdminGlobals
      (AddChainDataToBlock oneAdminGlobals txTemplate cvnNullParamsMsg).2.vAdminIds
      (GetPayloadHash lengthCrypto.hash true (AddChainDataToBlock oneAdminGlobals txTemplate cvnNullParamsMsg).2)
      (AddChainDataToBlock oneAdminGlobals txTemplate cvnNullParamsMsg).2.adminMultiSig
      (AddChainDataToBlock oneAdminGlobals txTemplate cvnNullParamsMsg).2.hasCoinSupplyPayload = false :=
  ⟨addChainData_block_preimage_eq_iff lengthCrypto oneAdminGlobals default cvnNullParamsMsg
    (by decide +kernel) txTemplate (by decide) (by decide +kernel) (by decide) rfl (by decide),
    by decide +kernel, by decide +kernel⟩

end FairCoin.Ports.ChainData
