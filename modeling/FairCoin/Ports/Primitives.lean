import FairCoin.Verified.SortedMap

/-!
# FairCoin primitives: blocks, transactions and chain data

The data model of the node, field for field as `primitives/block.h`,
`primitives/transaction.h` and `primitives/cvn.h` declare it. Fixed-width
fields keep their machine types (`UInt32`, `Int32`, `Int64`); the opaque
byte blobs of the Proof-of-Cooperation layer (`poc_storage<32>` and
`poc_storage<64>`) are bit vectors of their width; `std::vector` is `List`,
and `std::string` and `CScript` are lists of bytes.

A block is a header (whose `nVersion` carries the payload bits), the
transactions, the chain and admin signatures, the creator signature and the
admin payloads. Which payloads a block (or a chain-data message) carries is
decided by bit tests on `nVersion` (or `nPayload`); the predicates below are
those bit tests.

Memory-only fields are kept where validation reads them: `CBlock.fChecked`
(the `CheckBlock` cache). A transaction's id, the double SHA-256 of its
serialization that `CTransaction` caches, is a function of its other fields;
the modules that key coins by it take that function as a parameter.

The dynamic chain parameters and their admissibility check
`CheckDynamicChainParameters` (from `chainparams.cpp`) close the module.
-/

namespace FairCoin.Ports.Primitives

/-! ## Hashes and Schnorr blobs -/

/-- `uint256`: block hashes, transaction ids and message digests. -/
abbrev uint256 := BitVec 256

/-- `CSchnorrPubKey`: the 64-byte internal form of a curve point. -/
structure CSchnorrPubKey where
  data : BitVec 512
  deriving DecidableEq, Repr

/-- `CSchnorrSig`: 32 bytes of `R.x` followed by the 32-byte scalar `s`. -/
structure CSchnorrSig where
  data : BitVec 512
  deriving DecidableEq, Repr

/-- `CSchnorrNonce`: a public nonce, a point in the 64-byte internal form. -/
structure CSchnorrNonce where
  data : BitVec 512
  deriving DecidableEq, Repr

/-- `CSchnorrRx`: the 32 bytes of the `x` coordinate that identifies a
signature set. -/
structure CSchnorrRx where
  data : List UInt8
  deriving DecidableEq, Repr

/-- `poc_storage::operator<`: `memcmp` of the bytes, the lexicographic order. -/
instance instLinearOrderCSchnorrRx : LinearOrder CSchnorrRx :=
  LinearOrder.lift' CSchnorrRx.data fun a b h => by
    cases a
    cases b
    simp only at h
    rw [h]

/-- `CSchnorrSig::GetRx`: the first 32 bytes of the signature. -/
def getRx (sig : CSchnorrSig) : CSchnorrRx :=
  ⟨(List.range 32).map fun i => UInt8.ofNat (sig.data.toNat / 256 ^ i)⟩

/-- `poc_storage::IsNull`: all bytes zero. -/
def CSchnorrSig.isNull (sig : CSchnorrSig) : Bool := sig.data == 0

/-- `CAmount`, in the smallest unit. -/
abbrev CAmount := Int64

/-- `COIN`. -/
def COIN : CAmount := 100000000

/-- `MAX_MONEY = 53193831.467966 * COIN`, the double product truncated. -/
def MAX_MONEY : CAmount := 5319383146796600

/-- `MoneyRange`. -/
def MoneyRange (nValue : CAmount) : Bool := 0 ≤ nValue && nValue ≤ MAX_MONEY

/-- `CScript`, and any other byte string. -/
abbrev CScript := List UInt8

/-! ## Chain data payloads (`primitives/cvn.h`) -/

/-- `CCvnInfo`: a certified validation node and its key. -/
structure CCvnInfo where
  nNodeId : UInt32
  nHeightAdded : UInt32
  pubKey : CSchnorrPubKey
  deriving DecidableEq, Repr

/-- `CChainAdmin`: a chain administrator and its key. -/
structure CChainAdmin where
  nAdminId : UInt32
  nHeightAdded : UInt32
  pubKey : CSchnorrPubKey
  deriving DecidableEq, Repr

/-- `CDynamicChainParams`. -/
structure CDynamicChainParams where
  nVersion : UInt32
  nMinAdminSigs : UInt32
  nMaxAdminSigs : UInt32
  nBlockSpacing : UInt32
  nBlockSpacingGracePeriod : UInt32
  nTransactionFee : CAmount
  nDustThreshold : CAmount
  nMinSuccessiveSignatures : UInt32
  nBlocksToConsiderForSigCheck : UInt32
  nPercentageOfSignaturesMean : UInt32
  nMaxBlockSize : UInt32
  nBlockPropagationWaitTime : UInt32
  nRetryNewSigSetInterval : UInt32
  nCoinbaseMaturity : UInt32
  strDescription : List UInt8
  deriving DecidableEq, Repr

/-- `CCoinSupply`. -/
structure CCoinSupply where
  nVersion : UInt32
  nValue : CAmount
  fFinalCoinsSupply : Bool
  scriptDestination : CScript
  strDescription : List UInt8
  deriving DecidableEq, Repr

/-- `CChainDataMsg`: an admin-signed change to be put into the block after
`hashPrevBlock`. -/
structure CChainDataMsg where
  nPayload : UInt32
  nCreationTime : UInt32
  hashPrevBlock : uint256
  vCvns : List CCvnInfo
  vChainAdmins : List CChainAdmin
  dynamicChainParams : CDynamicChainParams
  adminMultiSig : CSchnorrSig
  vAdminIds : List UInt32
  coinSupply : CCoinSupply
  deriving DecidableEq, Repr

/-- What `CDynamicChainParams::SetNull` leaves. -/
instance instInhabitedCDynamicChainParams : Inhabited CDynamicChainParams :=
  ⟨⟨1, 0, 0, 0, 0, 0, 0, 0, 0, 0, 0, 0, 0, 0, []⟩⟩

/-- What `CCoinSupply::SetNull` leaves: no value yet (`-1`), not final. -/
instance instInhabitedCCoinSupply : Inhabited CCoinSupply :=
  ⟨⟨1, -1, false, [], []⟩⟩

/-- What `CChainDataMsg::SetNull` leaves: no payload, no signers. -/
instance instInhabitedCChainDataMsg : Inhabited CChainDataMsg :=
  ⟨⟨0, 0, 0, [], [], default, ⟨0⟩, [], default⟩⟩

namespace CChainDataMsg

def CVN_PAYLOAD : UInt32 := (1 : UInt32) <<< 0
def CHAIN_ADMINS_PAYLOAD : UInt32 := (1 : UInt32) <<< 1
def CHAIN_PARAMETERS_PAYLOAD : UInt32 := (1 : UInt32) <<< 2
def COIN_SUPPLY_PAYLOAD : UInt32 := (1 : UInt32) <<< 3
def FLUSH_SIGHOLDER_PAYLOAD : UInt32 := (1 : UInt32) <<< 4
def BLOCK_PAYLOAD_MASK : UInt32 :=
  CVN_PAYLOAD ||| CHAIN_ADMINS_PAYLOAD ||| CHAIN_PARAMETERS_PAYLOAD ||| COIN_SUPPLY_PAYLOAD

def hasCvnInfo (msg : CChainDataMsg) : Bool := msg.nPayload &&& CVN_PAYLOAD != 0
def hasChainAdmins (msg : CChainDataMsg) : Bool := msg.nPayload &&& CHAIN_ADMINS_PAYLOAD != 0
def hasChainParameters (msg : CChainDataMsg) : Bool :=
  msg.nPayload &&& CHAIN_PARAMETERS_PAYLOAD != 0
def hasCoinSupplyPayload (msg : CChainDataMsg) : Bool :=
  msg.nPayload &&& COIN_SUPPLY_PAYLOAD != 0
def hasFlushSigholderPayload (msg : CChainDataMsg) : Bool :=
  msg.nPayload &&& FLUSH_SIGHOLDER_PAYLOAD != 0

end CChainDataMsg

/-- `CNoncePool`: the public nonces a CVN publishes for the blocks to come;
`nHeightAdded` is the memory-only height at which the node stored it. -/
structure CNoncePool where
  nCvnId : UInt32
  hashRootBlock : uint256
  vPublicNonces : List CSchnorrNonce
  nCreationTime : UInt32
  msgSig : CSchnorrSig
  nHeightAdded : UInt32
  deriving DecidableEq, Repr

/-- `CCvnPartialSignature`: one CVN's share of the chain signature of the
block after `hashPrevBlock`; `fValidated` is memory only. -/
structure CCvnPartialSignature where
  nVersion : Int32
  nSignerId : UInt32
  nCreatorId : UInt32
  hashPrevBlock : uint256
  signature : CSchnorrSig
  nCreationTime : UInt32
  fValidated : Bool
  vMissingSignerIds : List UInt32
  msgSig : CSchnorrSig
  deriving DecidableEq, Repr

/-! ## Transactions (`primitives/transaction.h`) -/

/-- `COutPoint`. -/
structure COutPoint where
  hash : uint256
  n : UInt32
  deriving DecidableEq, Repr

/-- `COutPoint::IsNull`: the null outpoint of a coinbase input. -/
def COutPoint.isNull (o : COutPoint) : Bool := o.hash == 0 && o.n == UInt32.ofNat (2 ^ 32 - 1)

/-- `CTxIn`. -/
structure CTxIn where
  prevout : COutPoint
  scriptSig : CScript
  nSequence : UInt32
  deriving DecidableEq, Repr

/-- `CTxIn::IsFinal`: the sequence number is the largest `uint32_t`. -/
def CTxIn.isFinal (txin : CTxIn) : Bool := txin.nSequence == UInt32.ofNat (2 ^ 32 - 1)

/-- `CTxOut`. -/
structure CTxOut where
  nValue : CAmount
  scriptPubKey : CScript
  deriving DecidableEq, Repr

/-- `CTxOut::SetNull`. -/
def CTxOut.null : CTxOut := ⟨-1, []⟩

/-- `CTxOut::IsNull`: a spent output. -/
def CTxOut.isNull (o : CTxOut) : Bool := o.nValue == -1

/-- `CTransaction`. -/
structure CTransaction where
  nVersion : Int32
  vin : List CTxIn
  vout : List CTxOut
  nLockTime : UInt32
  deriving DecidableEq, Repr

namespace CTransaction

/-- `CTransaction::IsCoinBase`: one input, spending the null outpoint. -/
def isCoinBase (tx : CTransaction) : Bool :=
  match tx.vin with
  | [txin] => txin.prevout.isNull
  | _ => false

/-- `CTransaction::GetValueOut`: the `int64` sum of the output values. It
throws (`none`) as soon as an output or the running sum leaves the money
range. -/
def getValueOut (tx : CTransaction) : Option CAmount :=
  tx.vout.foldlM (fun nValueOut txout =>
    if MoneyRange txout.nValue && MoneyRange (nValueOut + txout.nValue) then
      some (nValueOut + txout.nValue)
    else none) 0

end CTransaction

/-! ## Blocks (`primitives/block.h`) -/

/-- `CBlockHeader`. -/
structure CBlockHeader where
  nVersion : Int32
  hashPrevBlock : uint256
  hashMerkleRoot : uint256
  hashPayload : uint256
  nTime : UInt32
  nCreatorId : UInt32
  deriving DecidableEq, Repr

namespace CBlockHeader

def CURRENT_VERSION : Int32 := 1
def TX_PAYLOAD : Int32 := (1 : Int32) <<< 8
def CVN_PAYLOAD : Int32 := (1 : Int32) <<< 9
def CHAIN_PARAMETERS_PAYLOAD : Int32 := (1 : Int32) <<< 10
def CHAIN_ADMINS_PAYLOAD : Int32 := (1 : Int32) <<< 11
def COIN_SUPPLY_PAYLOAD : Int32 := (1 : Int32) <<< 12
def ADMIN_PAYLOAD_MASK : Int32 :=
  CVN_PAYLOAD ||| CHAIN_PARAMETERS_PAYLOAD ||| CHAIN_ADMINS_PAYLOAD ||| COIN_SUPPLY_PAYLOAD
def PAYLOAD_MASK : Int32 := TX_PAYLOAD ||| ADMIN_PAYLOAD_MASK

def hasCvnInfo (h : CBlockHeader) : Bool := h.nVersion &&& CVN_PAYLOAD != 0
def hasChainParameters (h : CBlockHeader) : Bool := h.nVersion &&& CHAIN_PARAMETERS_PAYLOAD != 0
def hasTx (h : CBlockHeader) : Bool := h.nVersion &&& TX_PAYLOAD != 0
def hasChainAdmins (h : CBlockHeader) : Bool := h.nVersion &&& CHAIN_ADMINS_PAYLOAD != 0
def hasCoinSupplyPayload (h : CBlockHeader) : Bool := h.nVersion &&& COIN_SUPPLY_PAYLOAD != 0
def hasAdminPayload (h : CBlockHeader) : Bool := h.nVersion &&& ADMIN_PAYLOAD_MASK != 0

end CBlockHeader

/-- `CBlock`: the header, the transactions and the PoC data. `fChecked` is
the memory-only cache `CheckBlock` sets. -/
structure CBlock extends CBlockHeader where
  vtx : List CTransaction
  chainMultiSig : CSchnorrSig
  vMissingSignerIds : List UInt32
  adminMultiSig : CSchnorrSig
  vAdminIds : List UInt32
  creatorSignature : CSchnorrSig
  vCvns : List CCvnInfo
  vChainAdmins : List CChainAdmin
  dynamicChainParams : CDynamicChainParams
  coinSupply : CCoinSupply
  fChecked : Bool
  deriving DecidableEq, Repr

/-- What `CBlock::SetNull` leaves: a version-1 block with no payload. -/
instance instInhabitedCBlock : Inhabited CBlock :=
  ⟨{ nVersion := CBlockHeader.CURRENT_VERSION, hashPrevBlock := 0, hashMerkleRoot := 0,
     hashPayload := 0, nTime := 0, nCreatorId := 0, vtx := [], chainMultiSig := ⟨0⟩,
     vMissingSignerIds := [], adminMultiSig := ⟨0⟩, vAdminIds := [], creatorSignature := ⟨0⟩,
     vCvns := [], vChainAdmins := [], dynamicChainParams := default, coinSupply := default,
     fChecked := false }⟩

/-! ## The block index (`chain.h`) -/

/-- `BLOCK_VALID_SCRIPTS`: scripts and signatures checked, the block connected. -/
def BLOCK_VALID_SCRIPTS : UInt32 := 5

/-- `BLOCK_VALID_MASK`: the validity level in the low bits of `nStatus`. -/
def BLOCK_VALID_MASK : UInt32 := 1 ||| 2 ||| 3 ||| 4 ||| 5

/-- `CBlockIndex`, with `phashBlock` as the hash itself and the `pprev` link
left to the list the index sits in. `vCvns` is the CVN payload of the block
as stored on disk, which `FindNewlyAddedCVN` reads back for CVN blocks. -/
structure CBlockIndex where
  hashBlock : uint256
  nHeight : Int32
  nStatus : UInt32
  nVersion : Int32
  nTime : UInt32
  nCreatorId : UInt32
  vMissingSignerIds : List UInt32
  vCvns : List CCvnInfo
  deriving DecidableEq, Repr

instance instInhabitedCBlockIndex : Inhabited CBlockIndex := ⟨⟨0, 0, 0, 0, 0, 0, [], []⟩⟩

/-! ## Dynamic chain parameters (`chainparams.cpp`, `poc.h`) -/

def MAX_BLOCK_SPACING : UInt32 := 3600
def MIN_BLOCK_SPACING : UInt32 := 30
def MAX_DUST_THRESHOLD : CAmount := 1 * COIN
def MIN_DUST_THRESHOLD : CAmount := 0
def MAX_TX_FEE_THRESHOLD : CAmount := 1 * COIN
def MIN_TX_FEE_THRESHOLD : CAmount := 0
def MIN_BLOCKS_TO_CONSIDER_FOR_SIG_CHECK : UInt32 := 1
def MAX_BLOCKS_TO_CONSIDER_FOR_SIG_CHECK : UInt32 := 100
def MIN_PERCENTAGE_OF_SIGNATURES_MEAN : UInt32 := 33
def MAX_PERCENTAGE_OF_SIGNATURES_MEAN : UInt32 := 100
def MIN_SIZE_OF_BLOCK : UInt32 := 100000
def MAX_SIZE_OF_BLOCK : UInt32 := 5000000
def MIN_BLOCK_PROPAGATION_WAIT_TIME : UInt32 := 1
def MAX_BLOCK_PROPAGATION_WAIT_TIME : UInt32 := 3600
def MIN_RETRY_NEW_SIG_SET_INTERVAL : UInt32 := 2
def MAX_RETRY_NEW_SIG_SET_INTERVAL : UInt32 := 600
def MIN_CHAIN_DATA_DESCRIPTION_LEN : Nat := 20
def MAX_COINBASE_MATURITY : UInt32 := 200
def MIN_COINBASE_MATURITY : UInt32 := 10

/-- `MAX_NUMBER_OF_CVNS` and `MAX_NUMBER_OF_CHAIN_ADMINS` (`consensus.h`). -/
def MAX_NUMBER_OF_CVNS : Nat := 100
def MAX_NUMBER_OF_CHAIN_ADMINS : Nat := 11

/-- `CheckDynamicChainParameters`: every bound in the order the code tests
them; the description must be longer than `MIN_CHAIN_DATA_DESCRIPTION_LEN`. -/
def CheckDynamicChainParameters (p : CDynamicChainParams) : Bool :=
  !(p.nBlockSpacing > MAX_BLOCK_SPACING || p.nBlockSpacing < MIN_BLOCK_SPACING) &&
  !(p.nTransactionFee > MAX_TX_FEE_THRESHOLD || p.nTransactionFee < MIN_TX_FEE_THRESHOLD) &&
  !(p.nDustThreshold > MAX_DUST_THRESHOLD || p.nDustThreshold < MIN_DUST_THRESHOLD) &&
  !(p.nMinAdminSigs == 0 || p.nMinAdminSigs > p.nMaxAdminSigs) &&
  !(p.nBlocksToConsiderForSigCheck < MIN_BLOCKS_TO_CONSIDER_FOR_SIG_CHECK ||
    p.nBlocksToConsiderForSigCheck > MAX_BLOCKS_TO_CONSIDER_FOR_SIG_CHECK) &&
  !(p.nPercentageOfSignaturesMean < MIN_PERCENTAGE_OF_SIGNATURES_MEAN ||
    p.nPercentageOfSignaturesMean > MAX_PERCENTAGE_OF_SIGNATURES_MEAN) &&
  !(p.nMaxBlockSize < MIN_SIZE_OF_BLOCK || p.nMaxBlockSize > MAX_SIZE_OF_BLOCK) &&
  !(p.nBlockPropagationWaitTime < MIN_BLOCK_PROPAGATION_WAIT_TIME ||
    p.nBlockPropagationWaitTime > MAX_BLOCK_PROPAGATION_WAIT_TIME ||
    p.nBlockPropagationWaitTime ≥ p.nBlockSpacing) &&
  !(p.nRetryNewSigSetInterval < MIN_RETRY_NEW_SIG_SET_INTERVAL ||
    p.nRetryNewSigSetInterval > MAX_RETRY_NEW_SIG_SET_INTERVAL) &&
  !(p.nCoinbaseMaturity < MIN_COINBASE_MATURITY || p.nCoinbaseMaturity > MAX_COINBASE_MATURITY) &&
  !(p.strDescription.length ≤ MIN_CHAIN_DATA_DESCRIPTION_LEN)

end FairCoin.Ports.Primitives
