import FairCoin.Ports.AdminSignature
import FairCoin.Ports.Serialize

/-!
# Chain signatures: partial signatures, signature sets and the block

Every active CVN co-signs the block after the tip with a partial Schnorr
signature. A signer hashes the tip and the next creator, and, when some CVNs
are declared missing, the sum of their ids (`UpdateHashWithMissingIDs`); it
signs against the sum of the other signers' public nonces of the current
round (`CreateSumPublicNoncesOthers`). Signatures whose total nonce has the
same `x` coordinate form one set in the signature holder.

`DetermineBestSignatureSet` picks a set, combines its partial signatures and
writes into the block the CVNs that did not sign as `vMissingSignerIds`;
`CvnVerifyChainSignature` then checks the combined signature for the hash
over that list. The block's list is recomputed from the set, while each
partial signature was made for its own list: two signatures of one set can
have been made for different hashes when `CreateSumPublicNoncesOthers` skipped
a CVN whose nonce pool has run out without declaring it missing.

`HasEnoughSignatures(pindexPrev, ·)` reads the signature statistics of the
chain below the tip; it is a parameter here.

With no missing signer, `CvnVerifyChainSignature` takes the sum of all keys
from the CVN info cache in force above the parent, not from `mapCVNs`.

## Main results

* `DetermineBestSignatureSet_spec` — a chosen set gives the block the tip and
  creator of every signature in it, and the missing list is exactly the
  active CVNs that did not sign.
* `determineBestSignatureSet_mixed_hashes` — a set mixing a signature for the
  missing list `[3]` with one for the empty list is chosen, and the block's
  signature is checked for the hash over `[3]`.
* `determineBestSignatureSet_breaks_chainSignature` — under a scheme that
  satisfies the aggregation law, that set yields a block whose chain
  signature fails.
-/

namespace FairCoin.Ports.ChainSignature

open FairCoin.Verified FairCoin.Verified.ByteCodec FairCoin.Ports.Primitives
open FairCoin.Ports.Serialize FairCoin.Ports.PocState FairCoin.Ports.AdminSignature

/-! ## The signed hash and the nonce sums -/

/-- `UpdateHashWithMissingIDs`: nothing for an empty list, else the
`uint64_t` sum of the missing ids. -/
def UpdateHashWithMissingIDs (vMissingSignerIds : List UInt32) : List UInt8 :=
  if vMissingSignerIds.isEmpty then []
  else leBytes 8 (vMissingSignerIds.foldl (fun (nSum : UInt64) id => nSum + id.toUInt64) 0).toNat

/-- The bytes a chain signature is made for: the tip, the next creator and
the missing ids. -/
def chainSigPreimage (hashPrevBlock : uint256) (nCreatorId : UInt32)
    (vMissingSignerIds : List UInt32) : List UInt8 :=
  serUint256 hashPrevBlock ++ ser32 nCreatorId ++ UpdateHashWithMissingIDs vMissingSignerIds

/-- `GetCurrnetPublicNonce`: the nonce of the pool entry for the tip height;
`none` for a CVN without a pool, a pool from the future or one used up. -/
def GetCurrnetPublicNonce (g : PocGlobals) (nTipHeight : Int32) (nNodeId : UInt32) :
    Option CSchnorrNonce :=
  match g.mapNoncePool.find? nNodeId with
  | none => none
  | some pool =>
    let nPoolOffset : Int32 := (nTipHeight.toUInt32 - pool.nHeightAdded).toInt32
    if nPoolOffset < 0 then none
    else if nPoolOffset.toInt ≥ pool.vPublicNonces.length then none
    else pool.vPublicNonces[nPoolOffset.toInt.toNat]?

/-- The nonce loop of `CreateSumPublicNoncesOthers` over the active CVNs:
the signer and the declared missing CVNs are skipped, a CVN without a pool
fails the call, and a CVN whose pool yields no current nonce is skipped
silently. -/
def collectNoncesOthers (g : PocGlobals) (nTipHeight : Int32) (nNodeId : UInt32)
    (vMissingSignerIds : List UInt32) : List UInt32 → Option (List CSchnorrNonce)
  | [] => some []
  | id :: ids =>
    if id = nNodeId then collectNoncesOthers g nTipHeight nNodeId vMissingSignerIds ids
    else if vMissingSignerIds.contains id then
      collectNoncesOthers g nTipHeight nNodeId vMissingSignerIds ids
    else if !g.mapNoncePool.contains id then none
    else
      match GetCurrnetPublicNonce g nTipHeight id with
      | none => collectNoncesOthers g nTipHeight nNodeId vMissingSignerIds ids
      | some nonce => (collectNoncesOthers g nTipHeight nNodeId vMissingSignerIds ids).map (nonce :: ·)

/-- A public nonce read as the curve point it is. -/
def nonceAsPubKey (nonce : CSchnorrNonce) : CSchnorrPubKey := ⟨nonce.data⟩

/-- `CreateSumPublicNoncesOthers`: the sum of the collected nonces (one is
copied as it is; none fails). -/
def CreateSumPublicNoncesOthers (ec : PocCrypto) (g : PocGlobals) (nTipHeight : Int32)
    (nNodeId : UInt32) (vMissingSignerIds : List UInt32) : Option CSchnorrPubKey :=
  match collectNoncesOthers g nTipHeight nNodeId vMissingSignerIds g.mapCVNs.keys with
  | none => none
  | some [] => none
  | some [nonce] => some (nonceAsPubKey nonce)
  | some nonces => ec.pubkeyCombine (nonces.map nonceAsPubKey)

/-- `CvnVerifyPartialSignature` at the tip height `nTipHeight`. -/
def CvnVerifyPartialSignature (ec : PocCrypto) (g : PocGlobals) (nTipHeight : Int32)
    (sig : CCvnPartialSignature) : Bool :=
  if !g.mapCVNs.contains sig.nCreatorId then false
  else if !g.mapCVNs.contains sig.nSignerId then false
  else
    match g.mapCVNs.find? sig.nSignerId with
    | none => false
    | some signer =>
      if g.mapCVNs.size = 1 then
        CvnVerifySignature ec (ec.hash (chainSigPreimage sig.hashPrevBlock sig.nCreatorId []))
          sig.signature signer.pubKey
      else
        match CreateSumPublicNoncesOthers ec g nTipHeight sig.nSignerId sig.vMissingSignerIds with
        | none => false
        | some sumPublicNoncesOthers =>
          ec.verifyPartialSchnorr
            (ec.hash (chainSigPreimage sig.hashPrevBlock sig.nCreatorId sig.vMissingSignerIds))
            sig.signature signer.pubKey sumPublicNoncesOthers

/-- `CvnVerifyChainSignature`, for the parent `pindexPrev` that
`mapBlockIndex` gives the block. With a single CVN its key checks the
signature. With no missing signer the sum of all keys is the one of the
cache entry in force at the parent's height plus one; an unknown parent
fails, and so does a height without a cache entry, where the code reads an
unset pointer. With missing signers the keys of the other CVNs are combined
and the hash covers the sum of the missing ids. -/
def CvnVerifyChainSignature (ec : PocCrypto) (g : PocGlobals) (mapCVNInfoCache : CvnInfoCacheType)
    (pindexPrev : Option CBlockIndex) (block : CBlock) : Bool :=
  if g.mapCVNs.size = 1 then
    match g.mapCVNs.find? block.nCreatorId with
    | none => false
    | some creator =>
      ec.verifySchnorr (ec.hash (chainSigPreimage block.hashPrevBlock block.nCreatorId []))
        block.chainMultiSig creator.pubKey
  else if block.vMissingSignerIds.isEmpty then
    match pindexPrev with
    | none => false
    | some pindexPrev =>
      match GetCvnInfoCache mapCVNInfoCache (pindexPrev.nHeight + 1).toUInt32 with
      | none => false
      | some cache =>
        CvnVerifySignature ec (ec.hash (chainSigPreimage block.hashPrevBlock block.nCreatorId []))
          block.chainMultiSig cache.sumOfAllpubKeys
  else
    let signerKeys := (g.mapCVNs.entries.filter fun e => !block.vMissingSignerIds.contains e.1).map
      fun e => e.2.pubKey
    match ec.pubkeyCombine signerKeys with
    | none => false
    | some pubKey =>
      CvnVerifySignature ec
        (ec.hash (chainSigPreimage block.hashPrevBlock block.nCreatorId block.vMissingSignerIds))
        block.chainMultiSig pubKey

/-! ## The signature holder -/

/-- `MapSigSigner`: the partial signatures of one set, by signer. -/
abbrev MapSigSigner := SortedMap UInt32 CCvnPartialSignature

/-- `CSignatureHolder::sigs`: the sets by the `x` coordinate of their total
nonce. -/
abbrev MapSigCommonR := SortedMap CSchnorrRx MapSigSigner

/-- `CSignatureHolder::AddSig`. -/
def AddSig (sigs : MapSigCommonR) (sig : CCvnPartialSignature) : MapSigCommonR :=
  sigs.insert (getRx sig.signature)
    ((sigs.findD (getRx sig.signature) SortedMap.empty).insert sig.nSignerId sig)

/-! ## Choosing the set: `DetermineBestSignatureSet` -/

/-- The per-signature checks of a set, in map order: a signature not yet
validated must verify, and every signature must be for the block's tip and
creator. `setSigners` never sees a repeat, the signers being map keys. -/
def setSigsValid (ec : PocCrypto) (g : PocGlobals) (nTipHeight : Int32) (pblock : CBlock)
    (signatures : MapSigSigner) : Bool :=
  signatures.entries.all fun entry =>
    (entry.2.fValidated || CvnVerifyPartialSignature ec g nTipHeight entry.2) &&
    entry.2.hashPrevBlock == pblock.hashPrevBlock && entry.2.nCreatorId == pblock.nCreatorId

/-- The active CVNs without a signature in the set, in map order. -/
def missingFromSet (g : PocGlobals) (signatures : MapSigSigner) : List UInt32 :=
  g.mapCVNs.keys.filter fun id => !signatures.contains id

/-- The body of the loop over the sets: the combined signature and the
missing list of a set that passes, `none` for a set the loop skips. -/
def trySignatureSet (ec : PocCrypto) (g : PocGlobals) (nTipHeight : Int32)
    (hasEnoughSignatures : UInt32 → Bool) (pblock : CBlock) (signatures : MapSigSigner) :
    Option (CSchnorrSig × List UInt32) :=
  match signatures.entries.head? with
  | none => none
  | some (_, firstSig) =>
    if signatures.size + firstSig.vMissingSignerIds.length < g.mapCVNs.size then none
    else if !hasEnoughSignatures (UInt32.ofNat signatures.size) then none
    else if !setSigsValid ec g nTipHeight pblock signatures then none
    -- `CombinePartialSignatures` refuses fewer than two signatures
    else if signatures.size < 2 then none
    else
      (ec.partialCombine (signatures.entries.map fun e => e.2.signature)).map
        fun allsig => (allsig, missingFromSet g signatures)

/-- The choice among the candidates: the first with the fewest missing ids,
starting from `MAX_NUMBER_OF_CVNS`. -/
def leastMissing : List (CSchnorrSig × List UInt32) → Nat → Option (CSchnorrSig × List UInt32) →
    Option (CSchnorrSig × List UInt32)
  | [], _, best => best
  | c :: cs, nLeast, best =>
    if c.2.length < nLeast then leastMissing cs c.2.length (some c) else leastMissing cs nLeast best

/-- `DetermineBestSignatureSet`: the block with the chosen missing list and
chain signature, `none` for a `false` return. -/
def DetermineBestSignatureSet (ec : PocCrypto) (g : PocGlobals) (nTipHeight : Int32)
    (hasEnoughSignatures : UInt32 → Bool) (sigs : MapSigCommonR) (pblock : CBlock) :
    Option CBlock :=
  if sigs.entries.isEmpty then none
  else
    let candidates := sigs.entries.filterMap fun e =>
      trySignatureSet ec g nTipHeight hasEnoughSignatures pblock e.2
    match candidates with
    | [] => none
    | [c] => some { pblock with vMissingSignerIds := c.2, chainMultiSig := c.1 }
    | _ =>
      match leastMissing candidates MAX_NUMBER_OF_CVNS none with
      | none => none
      | some best =>
        if best.1.isNull then none
        else some { pblock with vMissingSignerIds := best.2, chainMultiSig := best.1 }

/-! ## What a chosen set gives the block -/

theorem leastMissing_mem :
    ∀ (cands : List (CSchnorrSig × List UInt32)) (nLeast : Nat)
      (best : Option (CSchnorrSig × List UInt32)) (c : CSchnorrSig × List UInt32),
      leastMissing cands nLeast best = some c → c ∈ cands ∨ best = some c
  | [], _, _, _, h => Or.inr h
  | c' :: cs, nLeast, best, c, h => by
    unfold leastMissing at h
    split_ifs at h
    · -- `c'` becomes the best so far
      rcases leastMissing_mem cs _ _ c h with hMem | hBest
      · exact Or.inl (List.mem_cons_of_mem c' hMem)
      · exact Or.inl (by rw [Option.some.inj hBest]; exact List.mem_cons_self)
    · rcases leastMissing_mem cs _ _ c h with hMem | hBest
      · exact Or.inl (List.mem_cons_of_mem c' hMem)
      · exact Or.inr hBest

/-- A set that passes the loop body: its signatures are valid for the block's
tip and creator, and the missing list is the active CVNs outside the set. -/
theorem trySignatureSet_spec {ec : PocCrypto} {g : PocGlobals} {nTipHeight : Int32}
    {hasEnoughSignatures : UInt32 → Bool} {pblock : CBlock} {signatures : MapSigSigner}
    {c : CSchnorrSig × List UInt32}
    (h : trySignatureSet ec g nTipHeight hasEnoughSignatures pblock signatures = some c) :
    setSigsValid ec g nTipHeight pblock signatures = true ∧
      ec.partialCombine (signatures.entries.map fun e => e.2.signature) = some c.1 ∧
      c.2 = missingFromSet g signatures := by
  unfold trySignatureSet at h
  split at h
  · cases h
  · split_ifs at h with hCount hEnough hValid hTwo
    obtain ⟨allsig, hComb, rfl⟩ := Option.map_eq_some_iff.mp h
    exact ⟨by simpa using hValid, hComb, rfl⟩

/-- What `DetermineBestSignatureSet` writes comes from one set of the holder:
the set's signatures are valid for the block's tip and creator, they combine
to the chain signature, and the missing list is the active CVNs outside the
set. -/
theorem DetermineBestSignatureSet_spec {ec : PocCrypto} {g : PocGlobals} {nTipHeight : Int32}
    {hasEnoughSignatures : UInt32 → Bool} {sigs : MapSigCommonR} {pblock block : CBlock}
    (h : DetermineBestSignatureSet ec g nTipHeight hasEnoughSignatures sigs pblock = some block) :
    ∃ rx signatures, (rx, signatures) ∈ sigs.entries ∧
      setSigsValid ec g nTipHeight pblock signatures = true ∧
      ec.partialCombine (signatures.entries.map fun e => e.2.signature) = some block.chainMultiSig ∧
      block.vMissingSignerIds = missingFromSet g signatures ∧
      block.hashPrevBlock = pblock.hashPrevBlock ∧ block.nCreatorId = pblock.nCreatorId := by
  have hFrom : ∀ c ∈ sigs.entries.filterMap (fun e =>
      trySignatureSet ec g nTipHeight hasEnoughSignatures pblock e.2),
      block = { pblock with vMissingSignerIds := c.2, chainMultiSig := c.1 } →
      ∃ rx signatures, (rx, signatures) ∈ sigs.entries ∧
        setSigsValid ec g nTipHeight pblock signatures = true ∧
        ec.partialCombine (signatures.entries.map fun e => e.2.signature) = some block.chainMultiSig ∧
        block.vMissingSignerIds = missingFromSet g signatures ∧
        block.hashPrevBlock = pblock.hashPrevBlock ∧ block.nCreatorId = pblock.nCreatorId := by
    intro c hc hBlock
    obtain ⟨⟨rx, signatures⟩, hMem, hTry⟩ := List.mem_filterMap.mp hc
    obtain ⟨hValid, hComb, hMissing⟩ := trySignatureSet_spec hTry
    subst hBlock
    exact ⟨rx, signatures, hMem, hValid, hComb, hMissing, rfl, rfl⟩
  unfold DetermineBestSignatureSet at h
  split_ifs at h
  dsimp only at h
  split at h
  · cases h
  · rename_i c hOne
    exact hFrom c (by rw [hOne]; exact List.mem_singleton_self c) (Option.some.inj h).symm
  · rename_i cands _ _
    split at h
    · cases h
    · rename_i best hBest
      split_ifs at h
      rcases leastMissing_mem _ _ _ best hBest with hMem | hNone
      · exact hFrom best hMem (Option.some.inj h).symm
      · cases hNone

/-! ## Evaluating the checks on one set -/

theorem DetermineBestSignatureSet_of_single {ec : PocCrypto} {g : PocGlobals} {nTipHeight : Int32}
    {hasEnoughSignatures : UInt32 → Bool} {sigs : MapSigCommonR} {pblock : CBlock}
    {rx : CSchnorrRx} {signatures : MapSigSigner} {c : CSchnorrSig × List UInt32}
    (hEntries : sigs.entries = [(rx, signatures)])
    (hTry : trySignatureSet ec g nTipHeight hasEnoughSignatures pblock signatures = some c) :
    DetermineBestSignatureSet ec g nTipHeight hasEnoughSignatures sigs pblock =
      some { pblock with vMissingSignerIds := c.2, chainMultiSig := c.1 } := by
  simp [DetermineBestSignatureSet, hEntries, hTry]

theorem trySignatureSet_of_checks {ec : PocCrypto} {g : PocGlobals} {nTipHeight : Int32}
    {hasEnoughSignatures : UInt32 → Bool} {pblock : CBlock} {signatures : MapSigSigner}
    {firstId : UInt32} {firstSig : CCvnPartialSignature} {allsig : CSchnorrSig}
    (hFirst : signatures.entries.head? = some (firstId, firstSig))
    (hComplete : g.mapCVNs.size ≤ signatures.size + firstSig.vMissingSignerIds.length)
    (hEnough : hasEnoughSignatures (UInt32.ofNat signatures.size) = true)
    (hValid : setSigsValid ec g nTipHeight pblock signatures = true)
    (hTwo : 2 ≤ signatures.size)
    (hComb : ec.partialCombine (signatures.entries.map fun e => e.2.signature) = some allsig) :
    trySignatureSet ec g nTipHeight hasEnoughSignatures pblock signatures =
      some (allsig, missingFromSet g signatures) := by
  have hNotShort : ¬ signatures.size + firstSig.vMissingSignerIds.length < g.mapCVNs.size := by
    omega
  have hNotOne : ¬ signatures.size < 2 := by omega
  simp [trySignatureSet, hFirst, hNotShort, hEnough, hValid, hNotOne, hComb]

/-- Signatures already validated pass the per-signature checks when they are
for the block's tip and creator. -/
theorem setSigsValid_of_validated {ec : PocCrypto} {g : PocGlobals} {nTipHeight : Int32}
    {pblock : CBlock} {signatures : MapSigSigner}
    (h : ∀ e ∈ signatures.entries, e.2.fValidated = true ∧
      e.2.hashPrevBlock = pblock.hashPrevBlock ∧ e.2.nCreatorId = pblock.nCreatorId) :
    setSigsValid ec g nTipHeight pblock signatures = true := by
  apply List.all_eq_true.mpr
  intro e he
  obtain ⟨hValidated, hPrev, hCreator⟩ := h e he
  simp [hValidated, hPrev, hCreator]

theorem CreateSumPublicNoncesOthers_of_single {ec : PocCrypto} {g : PocGlobals}
    {nTipHeight : Int32} {nNodeId : UInt32} {vMissingSignerIds : List UInt32}
    {nonce : CSchnorrNonce}
    (h : collectNoncesOthers g nTipHeight nNodeId vMissingSignerIds g.mapCVNs.keys = some [nonce]) :
    CreateSumPublicNoncesOthers ec g nTipHeight nNodeId vMissingSignerIds =
      some (nonceAsPubKey nonce) := by
  simp [CreateSumPublicNoncesOthers, h]

/-- With more than one CVN, a partial signature is checked for the hash over
its own missing list, against the nonce sum computed for that list. -/
theorem CvnVerifyPartialSignature_eq {ec : PocCrypto} {g : PocGlobals} {nTipHeight : Int32}
    {sig : CCvnPartialSignature} {signer : CCvnInfo} {sumPublicNoncesOthers : CSchnorrPubKey}
    (hCreator : g.mapCVNs.contains sig.nCreatorId = true)
    (hSigner : g.mapCVNs.find? sig.nSignerId = some signer) (hSize : g.mapCVNs.size ≠ 1)
    (hSum : CreateSumPublicNoncesOthers ec g nTipHeight sig.nSignerId sig.vMissingSignerIds =
      some sumPublicNoncesOthers) :
    CvnVerifyPartialSignature ec g nTipHeight sig =
      ec.verifyPartialSchnorr
        (ec.hash (chainSigPreimage sig.hashPrevBlock sig.nCreatorId sig.vMissingSignerIds))
        sig.signature signer.pubKey sumPublicNoncesOthers := by
  have hSignerIn : g.mapCVNs.contains sig.nSignerId = true :=
    (g.mapCVNs.contains_iff_find?_isSome _).mpr (by simp [hSigner])
  simp [CvnVerifyPartialSignature, hCreator, hSignerIn, hSigner, hSize, hSum]

/-- With more than one CVN and a missing signer, the chain signature is
checked under the sum of the keys of the CVNs outside the block's missing
list, for the hash over it; neither the cache nor the parent is read. -/
theorem CvnVerifyChainSignature_eq (ec : PocCrypto) {g : PocGlobals}
    (mapCVNInfoCache : CvnInfoCacheType) (pindexPrev : Option CBlockIndex) {block : CBlock}
    (hSize : g.mapCVNs.size ≠ 1) (hMissing : block.vMissingSignerIds ≠ []) :
    CvnVerifyChainSignature ec g mapCVNInfoCache pindexPrev block =
      (ec.pubkeyCombine ((g.mapCVNs.entries.filter fun e => !block.vMissingSignerIds.contains e.1).map
        fun e => e.2.pubKey)).any
        (CvnVerifySignature ec
          (ec.hash (chainSigPreimage block.hashPrevBlock block.nCreatorId block.vMissingSignerIds))
          block.chainMultiSig) := by
  unfold CvnVerifyChainSignature
  simp only [hSize, if_false, List.isEmpty_iff, hMissing]
  cases ec.pubkeyCombine _ <;> rfl

/-! ## A set mixing two hashes -/

/-- CVN `id` with key `⟨id⟩`. -/
def signerEntry (id : UInt32) : CCvnInfo := ⟨id, 0, ⟨BitVec.ofNat 512 id.toNat⟩⟩

/-- CVN `id`'s nonce pool of one nonce, stored at height `nHeightAdded`. -/
def singleNoncePool (id nHeightAdded : UInt32) : CNoncePool :=
  { nCvnId := id, hashRootBlock := 0, vPublicNonces := [⟨BitVec.ofNat 512 (100 + id.toNat)⟩],
    nCreationTime := 0, msgSig := ⟨0⟩, nHeightAdded }

/-- Three active CVNs at tip height 10; the pools of 1 and 2 are current, the
pool of 3 was stored at height 0 and is used up. -/
def expiredPoolGlobals : PocGlobals :=
  { (default : PocGlobals) with
    mapCVNs := ⟨[(1, signerEntry 1), (2, signerEntry 2), (3, signerEntry 3)], by decide⟩
    mapNoncePool :=
      ⟨[(1, singleNoncePool 1 10), (2, singleNoncePool 2 10), (3, singleNoncePool 3 0)], by decide⟩ }

/-- A validated partial signature of `nSignerId` for tip `5` and creator `1`,
with the missing list `vMissing`; its first 32 bytes (`R.x`) are `7`. -/
def validatedSig (nSignerId : UInt32) (vMissing : List UInt32) (s : Nat) : CCvnPartialSignature :=
  { nVersion := 1, nSignerId, nCreatorId := 1, hashPrevBlock := 5,
    signature := ⟨BitVec.ofNat 512 (7 + 2 ^ 256 * s)⟩, nCreationTime := 0, fValidated := true,
    vMissingSignerIds := vMissing, msgSig := ⟨0⟩ }

/-- CVN 1 signed with 3 declared missing; CVN 2 signed with nobody missing, its
nonce sum having skipped the used-up pool of 3. Both total nonces are the sum
of the nonces of 1 and 2, so the two signatures form one set. -/
def mixedHolder : MapSigCommonR :=
  AddSig (AddSig SortedMap.empty (validatedSig 1 [3] 9)) (validatedSig 2 [] 6)

/-- The template of creator 1 on tip 5. -/
def tipFiveTemplate : CBlock := { (default : CBlock) with hashPrevBlock := 5, nCreatorId := 1 }

/-- The set the two signatures form, in signer order. -/
def mixedSet : MapSigSigner :=
  (SortedMap.empty.insert 1 (validatedSig 1 [3] 9)).insert 2 (validatedSig 2 [] 6)

/-- For any curve operations under which the two partial signatures combine:
the set is chosen and the block declares 3 missing; CVN 1's signature was
checked for the hash over `[3]` against the nonce of 2, CVN 2's for the hash
over the empty list against the nonce of 1, and these hashes are over
different bytes; the block's signature is checked for the hash over `[3]`
under the keys of 1 and 2. -/
theorem determineBestSignatureSet_mixed_hashes (ec : PocCrypto)
    (hasEnoughSignatures : UInt32 → Bool) (allsig : CSchnorrSig)
    (hEnough : hasEnoughSignatures 2 = true)
    (hComb : ec.partialCombine [(validatedSig 1 [3] 9).signature, (validatedSig 2 [] 6).signature] =
      some allsig) :
    DetermineBestSignatureSet ec expiredPoolGlobals 10 hasEnoughSignatures mixedHolder tipFiveTemplate =
      some { tipFiveTemplate with vMissingSignerIds := [3], chainMultiSig := allsig } ∧
    CvnVerifyPartialSignature ec expiredPoolGlobals 10 (validatedSig 1 [3] 9) =
      ec.verifyPartialSchnorr (ec.hash (chainSigPreimage 5 1 [3])) (validatedSig 1 [3] 9).signature
        (signerEntry 1).pubKey (nonceAsPubKey ⟨BitVec.ofNat 512 102⟩) ∧
    CvnVerifyPartialSignature ec expiredPoolGlobals 10 (validatedSig 2 [] 6) =
      ec.verifyPartialSchnorr (ec.hash (chainSigPreimage 5 1 [])) (validatedSig 2 [] 6).signature
        (signerEntry 2).pubKey (nonceAsPubKey ⟨BitVec.ofNat 512 101⟩) ∧
    chainSigPreimage 5 1 [] ≠ chainSigPreimage 5 1 [3] ∧
    ∀ mapCVNInfoCache pindexPrev, CvnVerifyChainSignature ec expiredPoolGlobals mapCVNInfoCache
        pindexPrev { tipFiveTemplate with vMissingSignerIds := [3], chainMultiSig := allsig } =
      (ec.pubkeyCombine [(signerEntry 1).pubKey, (signerEntry 2).pubKey]).any
        (CvnVerifySignature ec (ec.hash (chainSigPreimage 5 1 [3])) allsig) := by
  have hSize : expiredPoolGlobals.mapCVNs.size ≠ 1 := by decide
  have hEntries : mixedHolder.entries = [(getRx (validatedSig 1 [3] 9).signature, mixedSet)] := by
    decide +kernel
  have hFirst : mixedSet.entries.head? = some (1, validatedSig 1 [3] 9) := by decide +kernel
  have hCount : UInt32.ofNat mixedSet.size = 2 := by decide +kernel
  have hSigs : (mixedSet.entries.map fun e => e.2.signature) =
      [(validatedSig 1 [3] 9).signature, (validatedSig 2 [] 6).signature] := by
    decide +kernel
  have hMissing : missingFromSet expiredPoolGlobals mixedSet = [3] := by decide +kernel
  have hTry : trySignatureSet ec expiredPoolGlobals 10 hasEnoughSignatures tipFiveTemplate mixedSet =
      some (allsig, [3]) := by
    rw [trySignatureSet_of_checks hFirst (by decide +kernel) (hCount ▸ hEnough)
      (setSigsValid_of_validated (by decide +kernel)) (by decide +kernel) (hSigs ▸ hComb),
      hMissing]
  have hKeys : ((expiredPoolGlobals.mapCVNs.entries.filter fun e => !([3] : List UInt32).contains e.1).map
      fun e => e.2.pubKey) = [(signerEntry 1).pubKey, (signerEntry 2).pubKey] := by
    decide +kernel
  refine ⟨DetermineBestSignatureSet_of_single hEntries hTry, ?_, ?_, by decide +kernel, ?_⟩
  · apply CvnVerifyPartialSignature_eq (by decide) (by decide +kernel) hSize
    exact CreateSumPublicNoncesOthers_of_single (by decide +kernel)
  · apply CvnVerifyPartialSignature_eq (by decide) (by decide +kernel) hSize
    exact CreateSumPublicNoncesOthers_of_single (by decide +kernel)
  · intro mapCVNInfoCache pindexPrev
    rw [CvnVerifyChainSignature_eq ec mapCVNInfoCache pindexPrev hSize (List.cons_ne_nil 3 [])]
    exact congrArg (fun keys => (ec.pubkeyCombine keys).any
      (CvnVerifySignature ec (ec.hash (chainSigPreimage 5 1 [3])) allsig)) hKeys

/-! ## The aggregation law does not close the gap -/

/-- The law the chain signature rests on: partial signatures that all verify
for one hash combine into a signature that verifies for that hash under the
combined keys. It is stated here without the condition that the nonce sums
add up to one total, so it is stronger than the law of the Schnorr scheme. -/
def AggregationLaw (ec : PocCrypto) : Prop :=
  ∀ (h : uint256) (parts : List (CSchnorrSig × CSchnorrPubKey × CSchnorrPubKey))
    (allsig : CSchnorrSig) (pubKey : CSchnorrPubKey),
    (∀ p ∈ parts, ec.verifyPartialSchnorr h p.1 p.2.1 p.2.2 = true) →
    ec.partialCombine (parts.map Prod.fst) = some allsig →
    ec.pubkeyCombine (parts.map fun p => p.2.1) = some pubKey →
    ec.verifySchnorr h allsig pubKey = true

/-- The upper 32 bytes of a signature (its `s` half). -/
def sigHashTag (sig : CSchnorrSig) : uint256 := sig.data.extractLsb' 256 256

/-- A scheme in which a signature is valid for the hash its `s` half carries,
whatever the key and nonce; partial signatures for one hash combine to the
first of them, and those for different hashes to the zero signature. The
digest adds up the bytes. -/
def hashTagCrypto : PocCrypto where
  hash bytes := BitVec.ofNat 256 (bytes.map UInt8.toNat).sum
  verifySchnorr h sig _ := sigHashTag sig == h
  verifyPartialSchnorr h sig _ _ := sigHashTag sig == h
  pubkeyCombine := List.head?
  partialCombine
    | [] => none
    | sig :: sigs => some (if sigs.all (sigHashTag · == sigHashTag sig) then sig else ⟨0⟩)

theorem aggregationLaw_hashTagCrypto : AggregationLaw hashTagCrypto := by
  intro h parts allsig pubKey hParts hComb _
  cases parts with
  | nil => cases hComb
  | cons p rest =>
    have hFirst : sigHashTag p.1 = h := beq_iff_eq.mp (hParts p (by simp))
    have hRest : (rest.map Prod.fst).all (sigHashTag · == sigHashTag p.1) = true := by
      simp only [List.all_map, List.all_eq_true, Function.comp_apply, beq_iff_eq, hFirst]
      intro q hq
      exact beq_iff_eq.mp (hParts q (by simp [hq]))
    have hAll : allsig = p.1 := by
      have hEq : some (if (rest.map Prod.fst).all (sigHashTag · == sigHashTag p.1) then p.1
          else ⟨0⟩) = some allsig := hComb
      rw [hRest, if_pos rfl] at hEq
      exact (Option.some.inj hEq).symm
    subst hAll
    exact beq_iff_eq.mpr hFirst

/-- Under a scheme that satisfies the aggregation law, two partial signatures
that each verify are combined by `DetermineBestSignatureSet` into a block whose
chain signature fails. -/
theorem determineBestSignatureSet_breaks_chainSignature :
    AggregationLaw hashTagCrypto ∧
    CvnVerifyPartialSignature hashTagCrypto expiredPoolGlobals 10 (validatedSig 1 [3] 9) = true ∧
    CvnVerifyPartialSignature hashTagCrypto expiredPoolGlobals 10 (validatedSig 2 [] 6) = true ∧
    DetermineBestSignatureSet hashTagCrypto expiredPoolGlobals 10 (fun _ => true) mixedHolder
        tipFiveTemplate =
      some { tipFiveTemplate with vMissingSignerIds := [3], chainMultiSig := ⟨0⟩ } ∧
    ∀ mapCVNInfoCache pindexPrev, CvnVerifyChainSignature hashTagCrypto expiredPoolGlobals
        mapCVNInfoCache pindexPrev
        { tipFiveTemplate with vMissingSignerIds := [3], chainMultiSig := ⟨0⟩ } = false := by
  have hComb : hashTagCrypto.partialCombine
      [(validatedSig 1 [3] 9).signature, (validatedSig 2 [] 6).signature] = some ⟨0⟩ := by
    decide +kernel
  obtain ⟨hBlock, hPart1, hPart2, -, hChain⟩ :=
    determineBestSignatureSet_mixed_hashes hashTagCrypto (fun _ => true) ⟨0⟩ rfl hComb
  refine ⟨aggregationLaw_hashTagCrypto, ?_, ?_, hBlock, ?_⟩
  · rw [hPart1]
    decide +kernel
  · rw [hPart2]
    decide +kernel
  · intro mapCVNInfoCache pindexPrev
    rw [hChain mapCVNInfoCache pindexPrev]
    decide +kernel

end FairCoin.Ports.ChainSignature
