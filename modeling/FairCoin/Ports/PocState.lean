import FairCoin.Verified.SortedMap
import FairCoin.Ports.Primitives

/-!
# Proof-of-Cooperation globals and the checks on signer lists

`poc.cpp` keeps the validation state of the Proof-of-Cooperation layer in
globals: the active CVNs, the chain administrators, the published nonce pools,
the banned CVNs, the dynamic chain parameters and whether the coin supply is
final. `PocGlobals` is that state, each `std::map` a `SortedMap` (iteration in
key order is what the code relies on when it combines keys).

`mapCVNInfoCache` records, at the height of each CVN block, how many CVNs it
put in force and the sum of their keys. `GetNumChainSigs` counts a block's
chain signatures from the entry in force below its height, and
`GetBlockProof` is that count as work.

The curve arithmetic lives in the vendored `secp256k1` library and in
`CPubKey`; `PocCrypto` takes those calls, and the message digest, as
parameters. Nothing below assumes a law about them: where a result needs one,
its statement names the law.

The duplicate checks of `poc.cpp` share one loop (insert every id into a set,
fail on the first repeat); it is `insertEach`, and each check is that loop
applied to its own list.

## Main results

* `insertEach_eq_true_iff` — the insertion loop passes exactly on repeat-free
  lists that avoid the ids already inserted.
* `checkDuplicateSignerIds_eq_true_iff` — the signer-list check passes exactly
  on repeat-free lists no longer than the map they refer to (or lists of at
  most one id).
-/

namespace FairCoin.Ports.PocState

open FairCoin.Verified FairCoin.Ports.Primitives

/-- The cryptographic calls of the PoC layer: `CHashWriter::GetHash`,
`CPubKey::VerifySchnorr`, `CPubKey::VerifyPartialSchnorr`,
`secp256k1_ec_pubkey_combine` (which fails on an empty list and on a sum at
infinity) and `secp256k1_schnorr_partial_combine`. -/
structure PocCrypto where
  hash : List UInt8 → uint256
  verifySchnorr : uint256 → CSchnorrSig → CSchnorrPubKey → Bool
  verifyPartialSchnorr : uint256 → CSchnorrSig → CSchnorrPubKey → CSchnorrPubKey → Bool
  pubkeyCombine : List CSchnorrPubKey → Option CSchnorrPubKey
  partialCombine : List CSchnorrSig → Option CSchnorrSig

/-- The validation globals of `poc.cpp`. `mapBannedCVNs` maps a banned
creator to the height of its ban. -/
structure PocGlobals where
  mapCVNs : SortedMap UInt32 CCvnInfo
  mapChainAdmins : SortedMap UInt32 CChainAdmin
  mapNoncePool : SortedMap UInt32 CNoncePool
  mapBannedCVNs : SortedMap UInt32 UInt32
  dynParams : CDynamicChainParams
  fCoinSupplyFinal : Bool

instance instInhabitedPocGlobals : Inhabited PocGlobals := ⟨⟨default, default, default, default, default, false⟩⟩

/-! ## The CVN info cache -/

/-- `CvnInfoCache`: the sum of the keys of the CVNs in force and their
number, recorded by `AddToCvnInfoCache` at the height of a CVN block. -/
structure CvnInfoCache where
  sumOfAllpubKeys : CSchnorrPubKey
  nActiveCvns : UInt32
  deriving DecidableEq, Repr

/-- `CvnInfoCache::SetNull`. -/
instance instInhabitedCvnInfoCache : Inhabited CvnInfoCache := ⟨⟨⟨0⟩, 0⟩⟩

/-- `mapCVNInfoCache`, by height. -/
abbrev CvnInfoCacheType := SortedMap UInt32 CvnInfoCache

/-- `GetCvnInfoCache`: nothing from an empty cache; at height 0 the entry
of height 0 (`operator[]`, a null entry if there is none); otherwise the
entry of the greatest height below `nHeight`. -/
def GetCvnInfoCache (mapCVNInfoCache : CvnInfoCacheType) (nHeight : UInt32) :
    Option CvnInfoCache :=
  if mapCVNInfoCache.size = 0 then none
  else if nHeight = 0 then some (mapCVNInfoCache.findD 0 default)
  else (mapCVNInfoCache.entries.reverse.find? fun e => e.1 < nHeight).map (·.2)

/-- `AddToCvnInfoCache(pblock, nHeight)`: `mapCVNs` becomes the block's CVN
list (of two entries with one id the first stays, `std::map::insert`), and
the cache at `nHeight` records the sum of the list's keys (a single key is
its own sum) and the number of CVNs. A failed combination returns after
`mapCVNs` was rebuilt and before the cache is written; a block without a CVN
payload changes nothing. -/
def AddToCvnInfoCache (ec : PocCrypto) (g : PocGlobals) (mapCVNInfoCache : CvnInfoCacheType)
    (block : CBlock) (nHeight : UInt32) : PocGlobals × CvnInfoCacheType :=
  if !block.hasCvnInfo then (g, mapCVNInfoCache)
  else
    let mapCVNs := block.vCvns.foldl (fun m cvn => m.insertNew cvn.nNodeId cvn) SortedMap.empty
    let keys := block.vCvns.map CCvnInfo.pubKey
    let sumOfAllSignersPubkeys := if keys.length = 1 then keys.head? else ec.pubkeyCombine keys
    ({ g with mapCVNs },
      match sumOfAllSignersPubkeys with
      | none => mapCVNInfoCache
      | some sum => mapCVNInfoCache.insert nHeight ⟨sum, UInt32.ofNat mapCVNs.size⟩)

/-- The count both `GetNumChainSigs` return: the CVNs of the cache in force
at `nHeight` minus the missing signers, in `uint32_t`; 0 without a cache. -/
def numChainSigs (mapCVNInfoCache : CvnInfoCacheType) (nHeight : UInt32)
    (vMissingSignerIds : List UInt32) : UInt32 :=
  match GetCvnInfoCache mapCVNInfoCache nHeight with
  | none => 0
  | some info => info.nActiveCvns - UInt32.ofNat vMissingSignerIds.length

/-- `GetNumChainSigs(const CBlockIndex*)`. -/
def GetNumChainSigs (mapCVNInfoCache : CvnInfoCacheType) (pindex : CBlockIndex) : UInt32 :=
  numChainSigs mapCVNInfoCache pindex.nHeight.toUInt32 pindex.vMissingSignerIds

/-- `GetNumChainSigs(const CBlock*)`: at the height after the parent's; 0
for a parent not in the index. -/
def GetNumChainSigsBlock (mapCVNInfoCache : CvnInfoCacheType) (pindexPrev : Option CBlockIndex)
    (block : CBlock) : UInt32 :=
  match pindexPrev with
  | none => 0
  | some pindexPrev =>
    numChainSigs mapCVNInfoCache (pindexPrev.nHeight + 1).toUInt32 block.vMissingSignerIds

/-- `GetBlockProof`: the chain signatures of the entry, as work. -/
def GetBlockProof (mapCVNInfoCache : CvnInfoCacheType) (pindex : CBlockIndex) : Nat :=
  (GetNumChainSigs mapCVNInfoCache pindex).toNat

/-! ## The insertion loop of the duplicate checks -/

/-- `sNodeIds.insert(id).second` for each id in turn: the loop fails at the
first id that is already in the set. -/
def insertEach (sNodeIds : List UInt32) : List UInt32 → Bool
  | [] => true
  | id :: ids => if id ∈ sNodeIds then false else insertEach (id :: sNodeIds) ids

theorem insertEach_eq_true_iff (sNodeIds ids : List UInt32) :
    insertEach sNodeIds ids = true ↔ ids.Nodup ∧ ∀ id ∈ ids, id ∉ sNodeIds := by
  induction ids generalizing sNodeIds with
  | nil => simp [insertEach]
  | cons id ids ih =>
    by_cases hIn : id ∈ sNodeIds
    · simp [insertEach, hIn]
    · -- the set grows by `id`: the rest must avoid it and the old set
      simp only [insertEach, hIn, if_false, ih, List.nodup_cons, List.mem_cons,
        forall_eq_or_imp, not_false_eq_true, true_and]
      constructor
      · rintro ⟨hNodup, hAvoid⟩
        refine ⟨⟨fun h => (hAvoid id h) (Or.inl rfl), hNodup⟩, fun j hj => ?_⟩
        exact fun h => hAvoid j hj (Or.inr h)
      · rintro ⟨⟨hNotIn, hNodup⟩, hAvoid⟩
        refine ⟨hNodup, fun j hj h => ?_⟩
        rcases h with rfl | h
        · exact hNotIn hj
        · exact hAvoid j hj h

/-- `CheckForDuplicateCvns`: no node id twice in a CVN payload. -/
def CheckForDuplicateCvns (vCvns : List CCvnInfo) : Bool :=
  insertEach [] (vCvns.map CCvnInfo.nNodeId)

/-- `CheckForDuplicateChainAdmins`: no admin id twice in an admin payload. -/
def CheckForDuplicateChainAdmins (vChainAdmins : List CChainAdmin) : Bool :=
  insertEach [] (vChainAdmins.map CChainAdmin.nAdminId)

/-- The check `CheckForDuplicateAdminSigs` and
`CheckForDuplicateMissingChainSigs` share: a list of at most one id passes;
a longer one must be no longer than the map of `nKnown` entries it refers to,
and free of repeats. Membership in that map is not tested. -/
def checkDuplicateSignerIds (vIds : List UInt32) (nKnown : Nat) : Bool :=
  if vIds.isEmpty || vIds.length == 1 then true
  else if vIds.length > nKnown then false
  else insertEach [] vIds

/-- `CheckForDuplicateAdminSigs`. -/
def CheckForDuplicateAdminSigs (g : PocGlobals) (block : CBlock) : Bool :=
  checkDuplicateSignerIds block.vAdminIds g.mapChainAdmins.size

/-- `CheckForDuplicateMissingChainSigs`. -/
def CheckForDuplicateMissingChainSigs (g : PocGlobals) (block : CBlock) : Bool :=
  checkDuplicateSignerIds block.vMissingSignerIds g.mapCVNs.size

theorem checkDuplicateSignerIds_eq_true_iff (vIds : List UInt32) (nKnown : Nat) :
    checkDuplicateSignerIds vIds nKnown = true ↔
      vIds.Nodup ∧ (vIds.length ≤ 1 ∨ vIds.length ≤ nKnown) := by
  rcases vIds with _ | ⟨a, _ | ⟨b, rest⟩⟩
  · simp [checkDuplicateSignerIds]
  · simp [checkDuplicateSignerIds]
  · have hLen : ¬ rest.length + 1 + 1 = 1 := by omega
    have hShort : ¬ rest.length + 1 + 1 ≤ 1 := by omega
    simp only [checkDuplicateSignerIds, List.isEmpty_cons, List.length_cons, Bool.false_or,
      beq_iff_eq, hLen, if_false, hShort, false_or, gt_iff_lt]
    by_cases hLong : nKnown < rest.length + 1 + 1
    · simp only [hLong, if_true, Bool.false_eq_true, false_iff, not_and]
      intro _
      omega
    · simp only [hLong, if_false, insertEach_eq_true_iff, List.not_mem_nil, not_false_eq_true,
        implies_true, and_true]
      constructor
      · intro h
        exact ⟨h, by omega⟩
      · exact fun h => h.1

end FairCoin.Ports.PocState
