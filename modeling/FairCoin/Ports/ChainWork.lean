import FairCoin.Ports.Activation

/-!
# Counting chain signatures: `GetNumChainSigs` and the chain work

`GetNumChainSigs` counts a block's chain signatures as the number of CVNs of
the `CvnInfoCache` in force at its height minus the length of its
missing-signer list. `GetBlockProof` is that count, and `AddToBlockIndex`
adds it to the parent's work once, when the entry is created.
With missing signers, `CvnVerifyChainSignature` checks the chain signature
under the sum of the keys of the CVNs outside the missing list, so an id in
that list that is no CVN is skipped there but still subtracted in the count;
nothing in `CheckProofOfCooperation` checks that a missing id is a CVN.
`AcceptBlockHeader` writes a full block's missing signers into an entry that
its header alone created, and keeps the work.

## Main results

* `chainSigners_length_eq` — with a cache that counts the CVNs in force, the
  CVNs whose keys are combined for the chain signature are the count plus the
  missing ids that are no CVN.
* `missing_non_cvn_accepted` — a block whose PoC checks pass, with one
  missing id that is no CVN: three CVNs signed, two are counted.
* `AcceptBlockHeader_known` — a known header takes the block's missing
  signers and keeps its work.
* `header_first_work` — a block that passes every check, whose header
  arrived first, keeps the work computed with no missing signer.
-/

namespace FairCoin.Ports.ChainWork

open FairCoin.Verified FairCoin.Verified.Checks FairCoin.Verified.StateRun FairCoin.Ports.Primitives
open FairCoin.Ports.PocState FairCoin.Ports.AdminSignature FairCoin.Ports.ChainSignature
open FairCoin.Ports.NextCreator FairCoin.Ports.BlockCheck FairCoin.Ports.BlockIndex
open FairCoin.Ports.Coins FairCoin.Ports.Activation

/-! ## Who signed, and who is counted -/

/-- The CVNs whose keys `CvnVerifyChainSignature` combines when there is
more than one and a missing signer: those outside the missing list, in id
order. -/
def chainSigners (g : PocGlobals) (block : CBlock) : List UInt32 :=
  (g.mapCVNs.entries.filter fun e => !block.vMissingSignerIds.contains e.1).map Prod.fst

/-- Two repeat-free lists: the elements of each that the other has are as
many. -/
theorem length_filter_mem_comm {α : Type} [DecidableEq α] {as bs : List α} (ha : as.Nodup)
    (hb : bs.Nodup) : (as.filter (· ∈ bs)).length = (bs.filter (· ∈ as)).length := by
  apply List.Perm.length_eq
  rw [List.perm_ext_iff_of_nodup (ha.filter _) (hb.filter _)]
  intro a
  simp only [List.mem_filter, decide_eq_true_eq]
  exact and_comm

/-- The CVNs are split by the missing list: those outside it sign, and those
in it are the missing ids that are CVNs. -/
theorem chainSigners_length (g : PocGlobals) (block : CBlock)
    (hNodup : block.vMissingSignerIds.Nodup) :
    (chainSigners g block).length +
        (block.vMissingSignerIds.filter fun id => g.mapCVNs.contains id).length =
      g.mapCVNs.size := by
  have hIn : (block.vMissingSignerIds.filter fun id => g.mapCVNs.contains id).length =
      (g.mapCVNs.entries.filter fun e => block.vMissingSignerIds.contains e.1).length := by
    have hComm := length_filter_mem_comm hNodup (SortedMap.keys_nodup g.mapCVNs)
    simp only [SortedMap.keys, List.filter_map, List.length_map] at hComm
    have hContains : (fun id => g.mapCVNs.contains id) = (fun id => decide (id ∈ g.mapCVNs.keys)) := by
      funext id
      rw [Bool.eq_iff_iff, SortedMap.contains_iff_mem_keys, decide_eq_true_iff]
    rw [hContains]
    simpa [SortedMap.keys, Function.comp_def] using hComm
  have hSplit := @List.length_eq_length_filter_add _ g.mapCVNs.entries (fun e =>
    !block.vMissingSignerIds.contains e.1)
  simp only [Bool.not_not] at hSplit
  rw [hIn, chainSigners, List.length_map, SortedMap.size]
  omega

/-- With a cache that counts the CVNs in force and a missing list no longer
than the CVN set, the CVNs that signed are the count `GetNumChainSigs`
returns plus the missing ids that are no CVN. -/
theorem chainSigners_length_eq (g : PocGlobals) (block : CBlock)
    (mapCVNInfoCache : CvnInfoCacheType) (nHeight : UInt32) (info : CvnInfoCache)
    (hCache : GetCvnInfoCache mapCVNInfoCache nHeight = some info)
    (hActive : info.nActiveCvns.toNat = g.mapCVNs.size)
    (hNodup : block.vMissingSignerIds.Nodup)
    (hLen : block.vMissingSignerIds.length ≤ g.mapCVNs.size) :
    (chainSigners g block).length =
      (numChainSigs mapCVNInfoCache nHeight block.vMissingSignerIds).toNat +
        (block.vMissingSignerIds.filter fun id => !g.mapCVNs.contains id).length := by
  have hSplit := chainSigners_length g block hNodup
  have hMissing := @List.length_eq_length_filter_add _ block.vMissingSignerIds
    (fun id => g.mapCVNs.contains id)
  have hBound : info.nActiveCvns.toNat < 2 ^ 32 := info.nActiveCvns.toNat_lt
  have hOfNat : (UInt32.ofNat block.vMissingSignerIds.length).toNat =
      block.vMissingSignerIds.length := by
    rw [UInt32.toNat_ofNat', Nat.mod_eq_of_lt (by omega)]
  have hCount : (numChainSigs mapCVNInfoCache nHeight block.vMissingSignerIds).toNat =
      g.mapCVNs.size - block.vMissingSignerIds.length := by
    have hLe : UInt32.ofNat block.vMissingSignerIds.length ≤ info.nActiveCvns := by
      rw [UInt32.le_iff_toNat_le, hOfNat]
      omega
    rw [numChainSigs, hCache, UInt32.toNat_sub_of_le _ _ hLe, hOfNat, hActive]
  omega

/-! ## A block counted one short -/

/-- The CVNs `{1, 2, 3}` under `oneSignatureParams`. -/
def threeCvnGlobals : PocGlobals :=
  { (default : PocGlobals) with
    mapCVNs := ⟨[(1, cvnEntry 1 0), (2, cvnEntry 2 0), (3, cvnEntry 3 0)], by decide⟩
    dynParams := oneSignatureParams }

/-- The cache of a genesis block with three CVNs. -/
def threeCvnCache : CvnInfoCacheType := SortedMap.empty.insert 0 ⟨⟨1⟩, 3⟩

/-- A parent at height 0 by CVN 1, validated, whose missing list names the
id 9. -/
def parentNine : CBlockIndex := cvnBlock 0 1000 1 [9] []

/-- A block by CVN 1 one second after `parentNine`, missing the id 9, with
the creator and chain signatures of CVN 1's key (which `echoCrypto` checks
and combines to). -/
def missingNineBlock : CBlock :=
  { (default : CBlock) with
    nTime := 1001, nCreatorId := 1, vMissingSignerIds := [9],
    creatorSignature := ⟨BitVec.ofNat 512 1⟩, chainMultiSig := ⟨BitVec.ofNat 512 1⟩ }

/-- Every PoC check of the block passes, whatever `HasEnoughSignatures`
says; the id 9 is no CVN; all three CVNs' keys are combined for the chain
signature, and `GetNumChainSigs` counts two. -/
theorem missing_non_cvn_accepted (hasEnoughSignatures : List CBlockIndex → UInt32 → Bool)
    (hashBlock : uint256) :
    pocChecks echoCrypto threeCvnGlobals threeCvnCache hasEnoughSignatures hashBlock
        missingNineBlock [parentNine] = true ∧
      CheckForDuplicateMissingChainSigs threeCvnGlobals missingNineBlock = true ∧
      threeCvnGlobals.mapCVNs.contains 9 = false ∧
      chainSigners threeCvnGlobals missingNineBlock = [1, 2, 3] ∧
      GetNumChainSigsBlock threeCvnCache (some parentNine) missingNineBlock = 2 := by
  refine ⟨?_, by decide, by decide, by decide, by decide⟩
  have hCounts : GetNumChainSigsBlock threeCvnCache (some parentNine) missingNineBlock = 2 ∧
      GetNumChainSigs threeCvnCache parentNine = 2 := by decide
  simp only [pocChecks, hCounts.1, hCounts.2, CvnVerifySignatureById, CvnVerifySignature,
    echoCrypto, gt_iff_lt, lt_self_iff_false, decide_false, Bool.not_false, Bool.true_or,
    Bool.and_true]
  decide +kernel

/-! ## The work of a block whose header came first -/

/-- `AcceptBlockHeader` on a header already in the index, not failed, with
missing signers: the entry takes them and keeps its work. -/
theorem AcceptBlockHeader_known {np : NodeParams} {block : CBlockHeader}
    {vMissingSignerIds : List UInt32} {s : NodeState} {pindex : IndexEntry}
    (hGenesis : np.blockHash block ≠ np.hashGenesisBlock)
    (hKnown : s.tree.lookup (np.blockHash block) = some pindex) (hNotFailed : pindex.isFailed = false)
    (hMissing : vMissingSignerIds ≠ []) :
    AcceptBlockHeader np block vMissingSignerIds s =
      .ok { pindex with index := { pindex.index with vMissingSignerIds } }
        { s with tree := s.tree.setEntry { pindex with index := { pindex.index with vMissingSignerIds } } } := by
  simp [AcceptBlockHeader, hGenesis, hKnown, hNotFailed, hMissing]
  rfl

/-- Three CVNs, 1, 2 and 3, under `oneSignatureParams` asking for half the
signature mean. -/
def halfMeanGlobals : PocGlobals :=
  { startGlobals with dynParams := { oneSignatureParams with nPercentageOfSignaturesMean := 50 } }

/-- The node at genesis with CVNs 1, 2 and 3: genesis has the work of three
signatures plus one. -/
def threeCvnNode : NodeState :=
  genesisNode forkParams halfMeanGlobals (cvnGenesisBlock [cvnEntry 1 0, cvnEntry 2 0, cvnEntry 3 0])

/-- A block on genesis at 200 s by CVN 1, the only candidate, without CVN 2's
signature. -/
def missingTwoBlock : CBlock := { txBlock 0 200 1 [0x51, 0x01] with vMissingSignerIds := [2] }

/-- The node at genesis receives the header of `missingTwoBlock` alone, then
the block. -/
def headerFirstRun : EStateM.Result ValidationError NodeState Unit :=
  (AcceptBlockHeader forkParams missingTwoBlock.toCBlockHeader [] >>= fun _ =>
    ProcessNewBlock forkParams missingTwoBlock true 3).run threeCvnNode

/-- The block passes every PoC check against genesis. Its header arrives
alone (no missing signers), then the block: the entry has the block's
missing signer, and the work of three signatures above genesis, where the
parent's work plus `GetBlockProof` of the entry is that of two. -/
theorem header_first_work :
    CheckProofOfCooperation forkParams threeCvnNode missingTwoBlock = true ∧
      chainAfter headerFirstRun = (true, [0, 200]) ∧
      ((Result.state headerFirstRun).tree.lookup 200).map
          (fun e => (e.index.vMissingSignerIds, e.nChainWork)) = some ([2], 7) ∧
      ((Result.state headerFirstRun).tree.lookup 200).map
          (fun e => 4 + GetBlockProof (Result.state headerFirstRun).mapCVNInfoCache e.index) =
        some 6 := by
  decide +kernel

end FairCoin.Ports.ChainWork
