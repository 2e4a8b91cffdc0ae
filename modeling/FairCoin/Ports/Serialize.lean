import Mathlib
import FairCoin.Verified.ByteCodec
import FairCoin.Ports.Primitives

/-!
# Serialization of the chain-data payloads and the admin hash preimages

`serialize.h` writes integers little-endian at their width, a `bool` as one
byte, a `std::vector`, `std::string` or `prevector` as a CompactSize length
followed by its elements, and a class by the `READWRITE` calls of its
`SerializationOp`, in order. This module writes that down for the types that
enter the hash the chain administrators sign, and builds a codec
(`FairCoin.Verified.ByteCodec.Codec`) for each, whose encoder is the
serializer itself (`rfl`).

Two functions of the source are then modelled as the byte strings they feed
to `CHashWriter`: `CChainDataMsg::GetHash` (`primitives/cvn.cpp`) and
`CBlock::GetPayloadHash` (`primitives/block.cpp`). Both write the optional
payloads through one function, `payloadPreimage`, in the same order (CVNs,
chain parameters, chain admins, coin supply), selected by payload bits that
are themselves not written.

## Main results

* `chainDataMsg_preimage_collision` — a CVN-list message and a chain-admin
  message with the same bytes share a preimage: the payload bits are not
  determined by what the admins sign.
* `payloadPreimage_inj` — under equal payload bits the preimage determines
  the previous block hash and every payload that is present; instantiated at
  messages (`chainDataMsg_preimage_inj`) and blocks.
-/

namespace FairCoin.Ports.Serialize

open FairCoin.Verified.ByteCodec
open FairCoin.Ports.Primitives

/-! ## Integers, blobs and CompactSize -/

/-- `ser_writedata32`. -/
def ser32 (x : UInt32) : List UInt8 := leBytes 4 x.toNat

/-- `ser_writedata64` of an `int64_t`: its two's complement bits. -/
def ser64 (x : Int64) : List UInt8 := leBytes 8 x.toBitVec.toNat

/-- `Serialize(bool)`: one byte, `0` or `1`. -/
def serBool (b : Bool) : List UInt8 := [if b then 1 else 0]

/-- A `uint256`: its 32 bytes. -/
def serUint256 (h : uint256) : List UInt8 := leBytes 32 h.toNat

/-- A `poc_storage<64>` blob: its 64 bytes. -/
def serBlob64 (b : BitVec 512) : List UInt8 := leBytes 64 b.toNat

/-- `WriteCompactSize`. -/
def WriteCompactSize (nSize : UInt64) : List UInt8 :=
  if nSize < 253 then [nSize.toUInt8]
  else if nSize ≤ 0xffff then 253 :: leBytes 2 nSize.toNat
  else if nSize ≤ 0xffffffff then 254 :: leBytes 4 nSize.toNat
  else 255 :: leBytes 8 nSize.toNat

/-- A `std::vector`, `std::string` or `prevector`: the size as CompactSize,
then the elements. -/
def serVector {α : Type} (ser : α → List UInt8) (v : List α) : List UInt8 :=
  WriteCompactSize (UInt64.ofNat v.length) ++ v.flatMap ser

/-! ## The payload types -/

/-- `CCvnInfo::SerializationOp`. -/
def serCvnInfo (c : CCvnInfo) : List UInt8 :=
  ser32 c.nNodeId ++ ser32 c.nHeightAdded ++ serBlob64 c.pubKey.data

/-- `CChainAdmin::SerializationOp`: the same layout as `CCvnInfo`. -/
def serChainAdmin (a : CChainAdmin) : List UInt8 :=
  ser32 a.nAdminId ++ ser32 a.nHeightAdded ++ serBlob64 a.pubKey.data

/-- `CDynamicChainParams::SerializationOp`. -/
def serDynamicChainParams (p : CDynamicChainParams) : List UInt8 :=
  ser32 p.nVersion ++ ser32 p.nMinAdminSigs ++ ser32 p.nMaxAdminSigs ++
  ser32 p.nBlockSpacing ++ ser32 p.nBlockSpacingGracePeriod ++
  ser64 p.nTransactionFee ++ ser64 p.nDustThreshold ++
  ser32 p.nMinSuccessiveSignatures ++ ser32 p.nBlocksToConsiderForSigCheck ++
  ser32 p.nPercentageOfSignaturesMean ++ ser32 p.nMaxBlockSize ++
  ser32 p.nBlockPropagationWaitTime ++ ser32 p.nRetryNewSigSetInterval ++
  ser32 p.nCoinbaseMaturity ++ serVector (fun b => [b]) p.strDescription

/-- `CCoinSupply::SerializationOp`: the description comes before the script. -/
def serCoinSupply (s : CCoinSupply) : List UInt8 :=
  ser32 s.nVersion ++ ser64 s.nValue ++ serBool s.fFinalCoinsSupply ++
  serVector (fun b => [b]) s.strDescription ++ serVector (fun b => [b]) s.scriptDestination

/-! ## Codecs

Each serializer above is the encoder of a codec; the readers are proof
devices (the one for CompactSize skips the canonicity and `MAX_SIZE` checks
of `ReadCompactSize`). Only the lengths of vectors and strings restrict
validity: they must fit the `uint64_t` that `WriteCompactSize` takes.
-/

/-- `uint32_t` fields. -/
def u32Codec : Codec UInt32 :=
  ((leWord 4).map UInt32.ofNat UInt32.toNat fun _ => UInt32.ofNat_toNat).withEncode ser32
    fun _ => rfl

theorem u32Codec_valid (x : UInt32) : u32Codec.Valid x := by
  show x.toNat < 256 ^ 4
  exact x.toNat_lt

/-- `int64_t` fields. -/
def i64Codec : Codec Int64 :=
  ((leWord 8).map (fun n => Int64.ofBitVec (BitVec.ofNat 64 n)) (fun x => x.toBitVec.toNat)
    fun x => by simp).withEncode ser64 fun _ => rfl

theorem i64Codec_valid (x : Int64) : i64Codec.Valid x := by
  show x.toBitVec.toNat < 256 ^ 8
  exact x.toBitVec.isLt

/-- `bool` fields. -/
def boolCodec : Codec Bool where
  encode := serBool
  read
    | [] => none
    | b :: rest => some (b == 1, rest)
  Valid _ := True
  read_encode b rest _ := by cases b <;> rfl

/-- `uint256` fields. -/
def uint256Codec : Codec uint256 :=
  ((leWord 32).map (BitVec.ofNat 256) BitVec.toNat fun b => by simp).withEncode serUint256
    fun _ => rfl

theorem uint256Codec_valid (h : uint256) : uint256Codec.Valid h := by
  show h.toNat < 256 ^ 32
  exact h.isLt

/-- `poc_storage<64>` fields. -/
def blob64Codec : Codec (BitVec 512) :=
  ((leWord 64).map (BitVec.ofNat 512) BitVec.toNat fun b => by simp).withEncode serBlob64
    fun _ => rfl

theorem blob64Codec_valid (b : BitVec 512) : blob64Codec.Valid b := by
  show b.toNat < 256 ^ 64
  rw [show (256 : Nat) = 2 ^ 8 from rfl, ← Nat.pow_mul]
  exact b.isLt

/-- A reader for `WriteCompactSize`, without the canonicity and range checks
of `ReadCompactSize`. -/
def compactSizeReader : List UInt8 → Option (Nat × List UInt8)
  | [] => none
  | b :: rest =>
    if b.toNat < 253 then some (b.toNat, rest)
    else if b.toNat = 253 then (leWord 2).read rest
    else if b.toNat = 254 then (leWord 4).read rest
    else (leWord 8).read rest

theorem compactSizeReader_write (n : Nat) (hn : n < 2 ^ 64) (rest : List UInt8) :
    compactSizeReader (WriteCompactSize (UInt64.ofNat n) ++ rest) = some (n, rest) := by
  have hu : (UInt64.ofNat n).toNat = n := by
    rw [UInt64.toNat_ofNat']
    exact Nat.mod_eq_of_lt hn
  unfold WriteCompactSize
  -- one case per width class of the writer
  by_cases h1 : n < 253
  · have hlt : UInt64.ofNat n < 253 := by rw [UInt64.lt_iff_toNat_lt, hu]; simpa using h1
    have hByte : n % 256 = n := by omega
    simp [hlt, compactSizeReader, hByte, h1]
  · have hge : ¬ UInt64.ofNat n < 253 := by rw [UInt64.lt_iff_toNat_lt, hu]; simpa using h1
    by_cases h2 : n ≤ 0xffff
    · have hle : UInt64.ofNat n ≤ 0xffff := by rw [UInt64.le_iff_toNat_le, hu]; simpa using h2
      simp [hge, hle, compactSizeReader, hu, leWord_read 2 n rest (by omega)]
    · have hgt : ¬ UInt64.ofNat n ≤ 0xffff := by rw [UInt64.le_iff_toNat_le, hu]; simpa using h2
      by_cases h3 : n ≤ 0xffffffff
      · have hle : UInt64.ofNat n ≤ 0xffffffff := by
          rw [UInt64.le_iff_toNat_le, hu]; simpa using h3
        simp [hge, hgt, hle, compactSizeReader, hu, leWord_read 4 n rest (by omega)]
      · have hgt' : ¬ UInt64.ofNat n ≤ 0xffffffff := by
          rw [UInt64.le_iff_toNat_le, hu]; simpa using h3
        simp [hge, hgt, hgt', compactSizeReader, hu, leWord_read 8 n rest (by omega)]

/-- Vector sizes, as `WriteCompactSize` of the `uint64_t` size. -/
def compactSizeCodec : Codec Nat where
  encode n := WriteCompactSize (UInt64.ofNat n)
  read := compactSizeReader
  Valid n := n < 2 ^ 64
  read_encode n rest hn := compactSizeReader_write n hn rest

/-- Vectors of a codec's values. -/
def vectorCodec {α : Type} (c : Codec α) : Codec (List α) :=
  (Codec.list compactSizeCodec c).withEncode (serVector c.encode) fun _ => rfl

theorem vectorCodec_valid {α : Type} (c : Codec α) {v : List α} (hLen : v.length < 2 ^ 64)
    (hAll : ∀ a ∈ v, c.Valid a) : (vectorCodec c).Valid v :=
  ⟨hLen, hAll⟩

/-- Strings and scripts: byte vectors. -/
def bytesCodec : Codec (List UInt8) :=
  (vectorCodec ⟨fun b => [b], fun bs => bs.head?.map fun b => (b, bs.tail), fun _ => True,
    fun _ _ _ => rfl⟩).withEncode (serVector fun b => [b]) fun _ => rfl

theorem bytesCodec_valid {l : List UInt8} (hLen : l.length < 2 ^ 64) : bytesCodec.Valid l :=
  vectorCodec_valid _ hLen fun _ _ => trivial

/-- `CCvnInfo`. -/
def cvnInfoCodec : Codec CCvnInfo :=
  ((u32Codec.prod (u32Codec.prod blob64Codec)).map (fun p => ⟨p.1, p.2.1, ⟨p.2.2⟩⟩)
    (fun c => (c.nNodeId, c.nHeightAdded, c.pubKey.data)) fun _ => rfl).withEncode serCvnInfo
    fun c => by simp only [Codec.map, Codec.prod, Codec.withEncode, serCvnInfo, u32Codec,
      blob64Codec, List.append_assoc]

theorem cvnInfoCodec_valid (c : CCvnInfo) : cvnInfoCodec.Valid c :=
  ⟨u32Codec_valid _, u32Codec_valid _, blob64Codec_valid _⟩

/-- `CChainAdmin`. -/
def chainAdminCodec : Codec CChainAdmin :=
  ((u32Codec.prod (u32Codec.prod blob64Codec)).map (fun p => ⟨p.1, p.2.1, ⟨p.2.2⟩⟩)
    (fun a => (a.nAdminId, a.nHeightAdded, a.pubKey.data)) fun _ => rfl).withEncode serChainAdmin
    fun a => by simp only [Codec.map, Codec.prod, Codec.withEncode, serChainAdmin, u32Codec,
      blob64Codec, List.append_assoc]

theorem chainAdminCodec_valid (a : CChainAdmin) : chainAdminCodec.Valid a :=
  ⟨u32Codec_valid _, u32Codec_valid _, blob64Codec_valid _⟩

/-- `CDynamicChainParams`, field after field. -/
def dynamicChainParamsCodec : Codec CDynamicChainParams :=
  ((u32Codec.prod <| u32Codec.prod <| u32Codec.prod <| u32Codec.prod <| u32Codec.prod <|
    i64Codec.prod <| i64Codec.prod <| u32Codec.prod <| u32Codec.prod <| u32Codec.prod <|
    u32Codec.prod <| u32Codec.prod <| u32Codec.prod <| u32Codec.prod bytesCodec).map
    (fun ⟨a, b, c, d, e, f, g, h, i, j, k, l, m, n, o⟩ => ⟨a, b, c, d, e, f, g, h, i, j, k, l, m, n, o⟩)
    (fun p => (p.nVersion, p.nMinAdminSigs, p.nMaxAdminSigs, p.nBlockSpacing,
      p.nBlockSpacingGracePeriod, p.nTransactionFee, p.nDustThreshold, p.nMinSuccessiveSignatures,
      p.nBlocksToConsiderForSigCheck, p.nPercentageOfSignaturesMean, p.nMaxBlockSize,
      p.nBlockPropagationWaitTime, p.nRetryNewSigSetInterval, p.nCoinbaseMaturity,
      p.strDescription))
    fun _ => rfl).withEncode serDynamicChainParams fun p => by
      simp only [Codec.map, Codec.prod, Codec.withEncode, serDynamicChainParams, u32Codec, i64Codec,
        bytesCodec, List.append_assoc]

theorem dynamicChainParamsCodec_valid {p : CDynamicChainParams}
    (hDesc : p.strDescription.length < 2 ^ 64) : dynamicChainParamsCodec.Valid p :=
  ⟨u32Codec_valid _, u32Codec_valid _, u32Codec_valid _, u32Codec_valid _, u32Codec_valid _,
    i64Codec_valid _, i64Codec_valid _, u32Codec_valid _, u32Codec_valid _, u32Codec_valid _,
    u32Codec_valid _, u32Codec_valid _, u32Codec_valid _, u32Codec_valid _, bytesCodec_valid hDesc⟩

/-- `CCoinSupply`. -/
def coinSupplyCodec : Codec CCoinSupply :=
  ((u32Codec.prod <| i64Codec.prod <| boolCodec.prod <| bytesCodec.prod bytesCodec).map
    (fun ⟨v, x, f, d, sc⟩ => ⟨v, x, f, sc, d⟩)
    (fun s => (s.nVersion, s.nValue, s.fFinalCoinsSupply, s.strDescription, s.scriptDestination))
    fun _ => rfl).withEncode serCoinSupply fun s => by
      simp only [Codec.map, Codec.prod, Codec.withEncode, serCoinSupply, u32Codec, i64Codec,
        boolCodec, bytesCodec, List.append_assoc]

theorem coinSupplyCodec_valid {s : CCoinSupply} (hDesc : s.strDescription.length < 2 ^ 64)
    (hScript : s.scriptDestination.length < 2 ^ 64) : coinSupplyCodec.Valid s :=
  ⟨u32Codec_valid _, i64Codec_valid _, trivial, bytesCodec_valid hDesc, bytesCodec_valid hScript⟩

/-- Lists of CVNs, and of chain admins. -/
def cvnsCodec : Codec (List CCvnInfo) :=
  (vectorCodec cvnInfoCodec).withEncode (serVector serCvnInfo) fun _ => rfl

def chainAdminsCodec : Codec (List CChainAdmin) :=
  (vectorCodec chainAdminCodec).withEncode (serVector serChainAdmin) fun _ => rfl

/-! ## The admin hash preimages -/

/-- The payload part common to `CChainDataMsg::GetHash` and
`CBlock::GetPayloadHash`: each payload written when its bit is set, in the
order CVNs, chain parameters, chain admins, coin supply. -/
def payloadPreimage (fCvn fParams fAdmins fSupply : Bool) (vCvns : List CCvnInfo)
    (params : CDynamicChainParams) (vChainAdmins : List CChainAdmin) (supply : CCoinSupply) :
    List UInt8 :=
  (if fCvn then serVector serCvnInfo vCvns else []) ++
  (if fParams then serDynamicChainParams params else []) ++
  (if fAdmins then serVector serChainAdmin vChainAdmins else []) ++
  (if fSupply then serCoinSupply supply else [])

/-- The bytes `CChainDataMsg::GetHash` writes into its `CHashWriter`. -/
def chainDataMsgPreimage (msg : CChainDataMsg) : List UInt8 :=
  serUint256 msg.hashPrevBlock ++
  payloadPreimage msg.hasCvnInfo msg.hasChainParameters msg.hasChainAdmins
    msg.hasCoinSupplyPayload msg.vCvns msg.dynamicChainParams msg.vChainAdmins msg.coinSupply

/-- The bytes `CBlock::GetPayloadHash(fAdminDataOnly)` writes. -/
def blockPayloadPreimage (fAdminDataOnly : Bool) (b : CBlock) : List UInt8 :=
  serUint256 b.hashPrevBlock ++
  (if fAdminDataOnly then []
   else serVector ser32 b.vMissingSignerIds ++ serBlob64 b.chainMultiSig.data ++
     (if b.hasAdminPayload then serVector ser32 b.vAdminIds ++ serBlob64 b.adminMultiSig.data
      else [])) ++
  payloadPreimage b.hasCvnInfo b.hasChainParameters b.hasChainAdmins b.hasCoinSupplyPayload
    b.vCvns b.dynamicChainParams b.vChainAdmins b.coinSupply

/-- `CChainDataMsg::GetHash`, for the double-SHA256 `hash` of `CHashWriter`. -/
def chainDataMsgGetHash (hash : List UInt8 → uint256) (msg : CChainDataMsg) : uint256 :=
  hash (chainDataMsgPreimage msg)

/-- `CBlock::GetPayloadHash`. -/
def GetPayloadHash (hash : List UInt8 → uint256) (fAdminDataOnly : Bool) (b : CBlock) : uint256 :=
  hash (blockPayloadPreimage fAdminDataOnly b)

@[simp] theorem cvnsCodec_encode : cvnsCodec.encode = serVector serCvnInfo := rfl

@[simp] theorem chainAdminsCodec_encode : chainAdminsCodec.encode = serVector serChainAdmin := rfl

@[simp] theorem dynamicChainParamsCodec_encode :
    dynamicChainParamsCodec.encode = serDynamicChainParams := rfl

@[simp] theorem coinSupplyCodec_encode : coinSupplyCodec.encode = serCoinSupply := rfl

theorem cvnsCodec_valid {v : List CCvnInfo} (hLen : v.length < 2 ^ 64) : cvnsCodec.Valid v :=
  vectorCodec_valid _ hLen fun c _ => cvnInfoCodec_valid c

theorem chainAdminsCodec_valid {v : List CChainAdmin} (hLen : v.length < 2 ^ 64) :
    chainAdminsCodec.Valid v :=
  vectorCodec_valid _ hLen fun a _ => chainAdminCodec_valid a

/-! ## The payload bits are not signed -/

/-- `CCvnInfo` and `CChainAdmin` serialize to the same bytes field for field. -/
theorem serCvnInfo_eq_serChainAdmin (nId nHeight : UInt32) (key : CSchnorrPubKey) :
    serCvnInfo ⟨nId, nHeight, key⟩ = serChainAdmin ⟨nId, nHeight, key⟩ := rfl

/-- A message carrying one CVN. -/
def cvnListMsg : CChainDataMsg :=
  { (default : CChainDataMsg) with
    nPayload := CChainDataMsg.CVN_PAYLOAD, vCvns := [⟨7, 0, ⟨0⟩⟩] }

/-- A message carrying one chain admin with the same id, height and key. -/
def adminListMsg : CChainDataMsg :=
  { (default : CChainDataMsg) with
    nPayload := CChainDataMsg.CHAIN_ADMINS_PAYLOAD, vChainAdmins := [⟨7, 0, ⟨0⟩⟩] }

/-- The two messages as block payloads. -/
def cvnListBlock : CBlock :=
  { (default : CBlock) with nVersion := CBlockHeader.CVN_PAYLOAD, vCvns := [⟨7, 0, ⟨0⟩⟩] }

def adminListBlock : CBlock :=
  { (default : CBlock) with
    nVersion := CBlockHeader.CHAIN_ADMINS_PAYLOAD, vChainAdmins := [⟨7, 0, ⟨0⟩⟩] }

/-- A CVN-list payload hashes like a chain-admin payload, for messages and for
blocks: `CCvnInfo` and `CChainAdmin` share one 72-byte layout, and the bits
that tell them apart are not written. -/
theorem chainDataMsg_preimage_collision :
    chainDataMsgPreimage cvnListMsg = chainDataMsgPreimage adminListMsg ∧
      cvnListMsg.nPayload &&& CChainDataMsg.BLOCK_PAYLOAD_MASK ≠
        adminListMsg.nPayload &&& CChainDataMsg.BLOCK_PAYLOAD_MASK ∧
      blockPayloadPreimage true cvnListBlock = blockPayloadPreimage true adminListBlock ∧
      cvnListBlock.nVersion &&& CBlockHeader.ADMIN_PAYLOAD_MASK ≠
        adminListBlock.nVersion &&& CBlockHeader.ADMIN_PAYLOAD_MASK := by
  refine ⟨?_, by decide, ?_, by decide⟩
  · have hCvn : cvnListMsg.hasCvnInfo = true ∧ cvnListMsg.hasChainParameters = false ∧
        cvnListMsg.hasChainAdmins = false ∧ cvnListMsg.hasCoinSupplyPayload = false := by decide
    have hAdmin : adminListMsg.hasCvnInfo = false ∧ adminListMsg.hasChainParameters = false ∧
        adminListMsg.hasChainAdmins = true ∧ adminListMsg.hasCoinSupplyPayload = false := by decide
    obtain ⟨h1, h2, h3, h4⟩ := hCvn
    obtain ⟨h5, h6, h7, h8⟩ := hAdmin
    simp only [chainDataMsgPreimage, payloadPreimage, h1, h2, h3, h4, h5, h6, h7, h8, if_true,
      Bool.false_eq_true, if_false, List.nil_append, List.append_nil]
    rfl
  · have hCvn : cvnListBlock.hasCvnInfo = true ∧ cvnListBlock.hasChainParameters = false ∧
        cvnListBlock.hasChainAdmins = false ∧ cvnListBlock.hasCoinSupplyPayload = false := by decide
    have hAdmin : adminListBlock.hasCvnInfo = false ∧ adminListBlock.hasChainParameters = false ∧
        adminListBlock.hasChainAdmins = true ∧ adminListBlock.hasCoinSupplyPayload = false := by
      decide
    obtain ⟨h1, h2, h3, h4⟩ := hCvn
    obtain ⟨h5, h6, h7, h8⟩ := hAdmin
    simp only [blockPayloadPreimage, payloadPreimage, h1, h2, h3, h4, h5, h6, h7, h8, if_true,
      Bool.false_eq_true, if_false, List.nil_append, List.append_nil]
    rfl

/-! ## Injectivity under fixed payload bits -/

/-- Every vector and string a payload writes fits the `uint64_t` size that
`WriteCompactSize` takes, as `std::vector` and `std::string` sizes do. -/
structure PayloadRepresentable (vCvns : List CCvnInfo) (params : CDynamicChainParams)
    (vChainAdmins : List CChainAdmin) (supply : CCoinSupply) : Prop where
  cvns : vCvns.length < 2 ^ 64
  paramsDescription : params.strDescription.length < 2 ^ 64
  admins : vChainAdmins.length < 2 ^ 64
  supplyDescription : supply.strDescription.length < 2 ^ 64
  supplyScript : supply.scriptDestination.length < 2 ^ 64

/-- The payload part is four flagged codec outputs in a row. -/
theorem payloadPreimage_eq (fCvn fParams fAdmins fSupply : Bool) (vCvns : List CCvnInfo)
    (params : CDynamicChainParams) (vChainAdmins : List CChainAdmin) (supply : CCoinSupply) :
    payloadPreimage fCvn fParams fAdmins fSupply vCvns params vChainAdmins supply =
      cvnsCodec.encodeIf fCvn vCvns ++ (dynamicChainParamsCodec.encodeIf fParams params ++
        (chainAdminsCodec.encodeIf fAdmins vChainAdmins ++
          coinSupplyCodec.encodeIf fSupply supply)) := by
  simp only [payloadPreimage, Codec.encodeIf, cvnsCodec_encode, dynamicChainParamsCodec_encode,
    chainAdminsCodec_encode, coinSupplyCodec_encode, List.append_assoc]

/-- Under the same four bits, equal payload parts have equal payloads wherever
a bit is set. -/
theorem payloadPreimage_inj {fCvn fParams fAdmins fSupply : Bool}
    {c₁ c₂ : List CCvnInfo} {p₁ p₂ : CDynamicChainParams} {a₁ a₂ : List CChainAdmin}
    {s₁ s₂ : CCoinSupply} (h₁ : PayloadRepresentable c₁ p₁ a₁ s₁)
    (h₂ : PayloadRepresentable c₂ p₂ a₂ s₂)
    (h : payloadPreimage fCvn fParams fAdmins fSupply c₁ p₁ a₁ s₁ =
      payloadPreimage fCvn fParams fAdmins fSupply c₂ p₂ a₂ s₂) :
    (fCvn = true → c₁ = c₂) ∧ (fParams = true → p₁ = p₂) ∧ (fAdmins = true → a₁ = a₂) ∧
      (fSupply = true → s₁ = s₂) := by
  rw [payloadPreimage_eq, payloadPreimage_eq] at h
  obtain ⟨hCvn, hRest⟩ := cvnsCodec.encodeIf_append_inj (cvnsCodec_valid h₁.cvns)
    (cvnsCodec_valid h₂.cvns) h
  obtain ⟨hParams, hRest⟩ := dynamicChainParamsCodec.encodeIf_append_inj
    (dynamicChainParamsCodec_valid h₁.paramsDescription)
    (dynamicChainParamsCodec_valid h₂.paramsDescription) hRest
  obtain ⟨hAdmins, hRest⟩ := chainAdminsCodec.encodeIf_append_inj
    (chainAdminsCodec_valid h₁.admins) (chainAdminsCodec_valid h₂.admins) hRest
  have hLast : coinSupplyCodec.encodeIf fSupply s₁ ++ [] = coinSupplyCodec.encodeIf fSupply s₂ ++ [] := by
    simpa using hRest
  obtain ⟨hSupply, -⟩ := coinSupplyCodec.encodeIf_append_inj
    (coinSupplyCodec_valid h₁.supplyDescription h₁.supplyScript)
    (coinSupplyCodec_valid h₂.supplyDescription h₂.supplyScript) hLast
  exact ⟨hCvn, hParams, hAdmins, hSupply⟩

/-- A flag inside a mask is read the same from any two words that agree under
the mask. -/
theorem flag_eq_of_masked_eq {n m mask f : UInt32} (hf : mask &&& f = f)
    (h : n &&& mask = m &&& mask) : (n &&& f != 0) = (m &&& f != 0) := by
  have hn : n &&& f = (n &&& mask) &&& f := by rw [UInt32.and_assoc, hf]
  have hm : m &&& f = (m &&& mask) &&& f := by rw [UInt32.and_assoc, hf]
  rw [hn, hm, h]

/-- The same for the signed `nVersion` of a block. -/
theorem flag_eq_of_masked_eq₃₂ {n m mask f : Int32} (hf : mask &&& f = f)
    (h : n &&& mask = m &&& mask) : (n &&& f != 0) = (m &&& f != 0) := by
  have hn : n &&& f = (n &&& mask) &&& f := by rw [Int32.and_assoc, hf]
  have hm : m &&& f = (m &&& mask) &&& f := by rw [Int32.and_assoc, hf]
  rw [hn, hm, h]

/-- What a chain-data message preimage determines when the payload bits are
known: the previous block and every payload present. -/
theorem chainDataMsgPreimage_inj {m₁ m₂ : CChainDataMsg}
    (h₁ : PayloadRepresentable m₁.vCvns m₁.dynamicChainParams m₁.vChainAdmins m₁.coinSupply)
    (h₂ : PayloadRepresentable m₂.vCvns m₂.dynamicChainParams m₂.vChainAdmins m₂.coinSupply)
    (hBits : m₁.nPayload &&& CChainDataMsg.BLOCK_PAYLOAD_MASK =
      m₂.nPayload &&& CChainDataMsg.BLOCK_PAYLOAD_MASK)
    (h : chainDataMsgPreimage m₁ = chainDataMsgPreimage m₂) :
    m₁.hashPrevBlock = m₂.hashPrevBlock ∧ (m₁.hasCvnInfo = true → m₁.vCvns = m₂.vCvns) ∧
      (m₁.hasChainParameters = true → m₁.dynamicChainParams = m₂.dynamicChainParams) ∧
      (m₁.hasChainAdmins = true → m₁.vChainAdmins = m₂.vChainAdmins) ∧
      (m₁.hasCoinSupplyPayload = true → m₁.coinSupply = m₂.coinSupply) := by
  obtain ⟨hPrev, hPayload⟩ := uint256Codec.encode_append_inj (uint256Codec_valid _)
    (uint256Codec_valid _) h
  have hCvn : m₂.hasCvnInfo = m₁.hasCvnInfo := (flag_eq_of_masked_eq (by decide) hBits).symm
  have hParams : m₂.hasChainParameters = m₁.hasChainParameters :=
    (flag_eq_of_masked_eq (by decide) hBits).symm
  have hAdmins : m₂.hasChainAdmins = m₁.hasChainAdmins :=
    (flag_eq_of_masked_eq (by decide) hBits).symm
  have hSupply : m₂.hasCoinSupplyPayload = m₁.hasCoinSupplyPayload :=
    (flag_eq_of_masked_eq (by decide) hBits).symm
  have hSame : payloadPreimage m₁.hasCvnInfo m₁.hasChainParameters m₁.hasChainAdmins
      m₁.hasCoinSupplyPayload m₁.vCvns m₁.dynamicChainParams m₁.vChainAdmins m₁.coinSupply =
    payloadPreimage m₁.hasCvnInfo m₁.hasChainParameters m₁.hasChainAdmins
      m₁.hasCoinSupplyPayload m₂.vCvns m₂.dynamicChainParams m₂.vChainAdmins m₂.coinSupply := by
    rw [hCvn, hParams, hAdmins, hSupply] at hPayload
    exact hPayload
  exact ⟨hPrev, payloadPreimage_inj h₁ h₂ hSame⟩

/-- What the admin preimage of a block determines when its admin payload bits
are known. -/
theorem blockAdminPreimage_inj {b₁ b₂ : CBlock}
    (h₁ : PayloadRepresentable b₁.vCvns b₁.dynamicChainParams b₁.vChainAdmins b₁.coinSupply)
    (h₂ : PayloadRepresentable b₂.vCvns b₂.dynamicChainParams b₂.vChainAdmins b₂.coinSupply)
    (hBits : b₁.nVersion &&& CBlockHeader.ADMIN_PAYLOAD_MASK =
      b₂.nVersion &&& CBlockHeader.ADMIN_PAYLOAD_MASK)
    (h : blockPayloadPreimage true b₁ = blockPayloadPreimage true b₂) :
    b₁.hashPrevBlock = b₂.hashPrevBlock ∧ (b₁.hasCvnInfo = true → b₁.vCvns = b₂.vCvns) ∧
      (b₁.hasChainParameters = true → b₁.dynamicChainParams = b₂.dynamicChainParams) ∧
      (b₁.hasChainAdmins = true → b₁.vChainAdmins = b₂.vChainAdmins) ∧
      (b₁.hasCoinSupplyPayload = true → b₁.coinSupply = b₂.coinSupply) := by
  simp only [blockPayloadPreimage, if_true, List.append_nil] at h
  obtain ⟨hPrev, hPayload⟩ := uint256Codec.encode_append_inj (uint256Codec_valid _)
    (uint256Codec_valid _) h
  have hCvn : b₂.hasCvnInfo = b₁.hasCvnInfo := (flag_eq_of_masked_eq₃₂ (by decide) hBits).symm
  have hParams : b₂.hasChainParameters = b₁.hasChainParameters :=
    (flag_eq_of_masked_eq₃₂ (by decide) hBits).symm
  have hAdmins : b₂.hasChainAdmins = b₁.hasChainAdmins :=
    (flag_eq_of_masked_eq₃₂ (by decide) hBits).symm
  have hSupply : b₂.hasCoinSupplyPayload = b₁.hasCoinSupplyPayload :=
    (flag_eq_of_masked_eq₃₂ (by decide) hBits).symm
  rw [hCvn, hParams, hAdmins, hSupply] at hPayload
  exact ⟨hPrev, payloadPreimage_inj h₁ h₂ hPayload⟩

/-- **Admin preimages are injective once the payload bits are fixed.** For
messages with the same `nPayload & BLOCK_PAYLOAD_MASK`, and for blocks with
the same admin bits of `nVersion`, the bytes the chain administrators sign
determine the previous block and every payload whose bit is set. -/
theorem adminPreimage_inj_of_payload_bits :
    (∀ m₁ m₂ : CChainDataMsg,
      PayloadRepresentable m₁.vCvns m₁.dynamicChainParams m₁.vChainAdmins m₁.coinSupply →
      PayloadRepresentable m₂.vCvns m₂.dynamicChainParams m₂.vChainAdmins m₂.coinSupply →
      m₁.nPayload &&& CChainDataMsg.BLOCK_PAYLOAD_MASK =
        m₂.nPayload &&& CChainDataMsg.BLOCK_PAYLOAD_MASK →
      chainDataMsgPreimage m₁ = chainDataMsgPreimage m₂ →
      m₁.hashPrevBlock = m₂.hashPrevBlock ∧ (m₁.hasCvnInfo = true → m₁.vCvns = m₂.vCvns) ∧
        (m₁.hasChainParameters = true → m₁.dynamicChainParams = m₂.dynamicChainParams) ∧
        (m₁.hasChainAdmins = true → m₁.vChainAdmins = m₂.vChainAdmins) ∧
        (m₁.hasCoinSupplyPayload = true → m₁.coinSupply = m₂.coinSupply)) ∧
    (∀ b₁ b₂ : CBlock,
      PayloadRepresentable b₁.vCvns b₁.dynamicChainParams b₁.vChainAdmins b₁.coinSupply →
      PayloadRepresentable b₂.vCvns b₂.dynamicChainParams b₂.vChainAdmins b₂.coinSupply →
      b₁.nVersion &&& CBlockHeader.ADMIN_PAYLOAD_MASK =
        b₂.nVersion &&& CBlockHeader.ADMIN_PAYLOAD_MASK →
      blockPayloadPreimage true b₁ = blockPayloadPreimage true b₂ →
      b₁.hashPrevBlock = b₂.hashPrevBlock ∧ (b₁.hasCvnInfo = true → b₁.vCvns = b₂.vCvns) ∧
        (b₁.hasChainParameters = true → b₁.dynamicChainParams = b₂.dynamicChainParams) ∧
        (b₁.hasChainAdmins = true → b₁.vChainAdmins = b₂.vChainAdmins) ∧
        (b₁.hasCoinSupplyPayload = true → b₁.coinSupply = b₂.coinSupply)) := by
  constructor
  · intro m₁ m₂ h₁ h₂ hBits h
    exact chainDataMsgPreimage_inj h₁ h₂ hBits h
  · intro b₁ b₂ h₁ h₂ hBits h
    exact blockAdminPreimage_inj h₁ h₂ hBits h

/-- The CVN message and a copy signed by other admins share a preimage, and
the theorem recovers that they carry the same CVN list; likewise for the block
and a copy with another creator. -/
theorem adminPreimage_inj_cvnListMsg :
    cvnListMsg.vCvns = { cvnListMsg with vAdminIds := [1, 2] }.vCvns ∧
      cvnListBlock.vCvns = { cvnListBlock with nCreatorId := 9 }.vCvns := by
  have hRepr : PayloadRepresentable cvnListMsg.vCvns cvnListMsg.dynamicChainParams
      cvnListMsg.vChainAdmins cvnListMsg.coinSupply := ⟨by decide, by decide, by decide, by decide,
    by decide⟩
  have hReprBlock : PayloadRepresentable cvnListBlock.vCvns cvnListBlock.dynamicChainParams
      cvnListBlock.vChainAdmins cvnListBlock.coinSupply := ⟨by decide, by decide, by decide,
    by decide, by decide⟩
  exact ⟨(adminPreimage_inj_of_payload_bits.1 cvnListMsg { cvnListMsg with vAdminIds := [1, 2] }
      hRepr hRepr rfl rfl).2.1 (by decide),
    (adminPreimage_inj_of_payload_bits.2 cvnListBlock { cvnListBlock with nCreatorId := 9 }
      hReprBlock hReprBlock rfl rfl).2.1 (by decide)⟩

end FairCoin.Ports.Serialize
