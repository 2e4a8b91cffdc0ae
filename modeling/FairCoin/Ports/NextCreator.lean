import FairCoin.Ports.PocState

/-!
# The next block creator

`CheckNextBlockCreator(pindexStart, nTimeToTest)` decides which CVN may create
the block after `pindexStart`. It scans back at most `POC_BLOCKS_TO_SCAN`
blocks, collecting the creators that are still active and not banned (most
recent first) and counting, over the last `nMinSuccessiveSignatures` blocks,
which active CVNs co-signed. A CVN that was added and has not created a block
yet (`FindNewlyAddedCVN`), or else a CVN that signed but has not created
(`FindDormantNode`), is appended as the candidate of highest priority. The
candidates are then tried from the back, skipping as many as the block is
overdue by grace periods, against a signature threshold that is lowered
after every failed round; when it reaches zero the loop stops and the
function falls back to the appended candidate.

The chain below `pindexStart` is the list of its ancestors, newest first, as
the `pprev` walk visits them. `setCreatorCandidates` holds the same ids as
`vCreatorCandidates` and is represented by it.

## Main results

* `scanCandidates_inv` — every candidate the scan collects is an active,
  unbanned CVN, and so is every CVN it counts signatures for.
* `CheckNextBlockCreator_cases` — the creator is `0`, an active unbanned CVN,
  or the CVN `FindNewlyAddedCVN` reports.
* `checkNextBlockCreator_removed_cvn` — `FindNewlyAddedCVN` does not check that
  its CVN is still active: a CVN added and removed again is scheduled.
-/

namespace FairCoin.Ports.NextCreator

open FairCoin.Verified FairCoin.Ports.Primitives FairCoin.Ports.PocState

/-- `POC_BLOCKS_TO_SCAN`. -/
def POC_BLOCKS_TO_SCAN : Nat := 200

/-! ## The candidate scan -/

/-- The locals the scan loop of `CheckNextBlockCreator` updates. -/
structure ScanState where
  vCreatorCandidates : List UInt32
  mapLastSignatures : SortedMap UInt32 UInt32
  nMinSignatures : UInt32

/-- `mapLastSignatures[cvn.first]++` for every active CVN not in `vMissing`,
in the order of `mapCVNs`. -/
def recordSignatures (mapCVNs : SortedMap UInt32 CCvnInfo) (vMissing : List UInt32)
    (mapLastSignatures : SortedMap UInt32 UInt32) : SortedMap UInt32 UInt32 :=
  mapCVNs.keys.foldl
    (fun sigs id =>
      if !vMissing.isEmpty && vMissing.contains id then sigs
      else sigs.insert id (sigs.findD id 0 + 1))
    mapLastSignatures

/-- `if (setCreatorCandidates.insert(id).second) vCreatorCandidates.push_back(id)`. -/
def addCandidate (s : ScanState) (id : UInt32) : ScanState :=
  if s.vCreatorCandidates.contains id then s
  else { s with vCreatorCandidates := s.vCreatorCandidates ++ [id] }

/-- While the signature window lasts, count the block's signers. -/
def countSignatures (g : PocGlobals) (s : ScanState) (pindex : CBlockIndex) : ScanState :=
  if s.nMinSignatures != 0 then
    { s with nMinSignatures := s.nMinSignatures - 1,
             mapLastSignatures :=
               recordSignatures g.mapCVNs pindex.vMissingSignerIds s.mapLastSignatures }
  else s

/-- The body of the scan for a block whose creator is active and unbanned. -/
def scanStep (g : PocGlobals) (s : ScanState) (pindex : CBlockIndex) : ScanState :=
  countSignatures g (addCandidate s pindex.nCreatorId) pindex

/-- The scan loop over at most `nBlocksToScan` blocks; `none` is the early
`return 0` for a block that is not on a connected chain. -/
def scanCandidates (g : PocGlobals) : Nat → List CBlockIndex → ScanState → Option ScanState
  | 0, _, s => some s
  | _, [], s => some s
  | n + 1, pindex :: rest, s =>
    if pindex.nStatus &&& BLOCK_VALID_MASK < BLOCK_VALID_SCRIPTS then none
    -- ignore CVNs that were deactivated or banned
    else if !g.mapCVNs.contains pindex.nCreatorId || g.mapBannedCVNs.contains pindex.nCreatorId then
      scanCandidates g n rest s
    else
      let s := scanStep g s pindex
      if s.vCreatorCandidates.length == g.mapCVNs.size && s.nMinSignatures == 0 then some s
      else scanCandidates g n rest s

/-! ## Newly added and dormant CVNs -/

/-- The CVN a block added, if it is a CVN block: the first entry of its
payload whose `nHeightAdded` is the block's height. -/
def addedInBlock (pindex : CBlockIndex) : Option UInt32 :=
  if pindex.nVersion &&& CBlockHeader.CVN_PAYLOAD != 0 then
    (pindex.vCvns.find? fun cvn => cvn.nHeightAdded == pindex.nHeight.toUInt32).map CCvnInfo.nNodeId
  else none

/-- The first loop of `FindNewlyAddedCVN`: the CVN added last (an added id
of `0` does not count) and the number of blocks above the block that added
it. -/
def lastAddedCvn : List CBlockIndex → Option (UInt32 × Nat)
  | [] => none
  | pindex :: rest =>
    match addedInBlock pindex with
    | some id => if id != 0 then some (id, 0) else (lastAddedCvn rest).map fun r => (r.1, r.2 + 1)
    | none => (lastAddedCvn rest).map fun r => (r.1, r.2 + 1)

/-- `FindNewlyAddedCVN`: the CVN added last, unless it has created a block
since. Whether it is still active or banned is not asked. -/
def FindNewlyAddedCVN (chain : List CBlockIndex) : UInt32 :=
  match lastAddedCvn chain with
  | none => 0
  | some (nLastAddedNode, nAbove) =>
    if (chain.take nAbove).any (·.nCreatorId == nLastAddedNode) then 0 else nLastAddedNode

/-- The time-weight walk of `FindDormantNode`: erase each creator met from
the dormant set; the creator that empties it is the one that created least
recently. -/
def dormantWalk : List UInt32 → List CBlockIndex → UInt32
  | _, [] => 0
  | setDormantNodes, pindex :: rest =>
    if setDormantNodes.contains pindex.nCreatorId then
      if (setDormantNodes.erase pindex.nCreatorId).isEmpty then pindex.nCreatorId
      else dormantWalk (setDormantNodes.erase pindex.nCreatorId) rest
    else dormantWalk setDormantNodes rest

/-- `setDormantNodes` of `FindDormantNode`: the signers, in key order, with
at least `nMinSigs` signatures that are no candidate and not banned. -/
def dormantNodes (g : PocGlobals) (vLastSignatures : SortedMap UInt32 UInt32)
    (setCreatorCandidates : List UInt32) (nMinSigs : UInt32) : List UInt32 :=
  (vLastSignatures.entries.filter fun e =>
    !setCreatorCandidates.contains e.1 && e.2 ≥ nMinSigs && !g.mapBannedCVNs.contains e.1).map Prod.fst

/-- `FindDormantNode`: one dormant node directly, several by time weight. -/
def FindDormantNode (g : PocGlobals) (chain : List CBlockIndex)
    (vLastSignatures : SortedMap UInt32 UInt32) (setCreatorCandidates : List UInt32)
    (nMinSigs : UInt32) : UInt32 :=
  match dormantNodes g vLastSignatures setCreatorCandidates nMinSigs with
  | [] => 0
  | [id] => id
  | setDormantNodes => dormantWalk setDormantNodes chain

/-! ## The selection -/

/-- `GetCandidateOffset`: how many grace periods the block is overdue.
`nTimeToTest - nPrevBlockTime - nBlockSpacing` is computed in `uint64_t` and
stored in an `int`; the quotient is unsigned. A grace period of zero makes the
division trap, which is `none`. -/
def GetCandidateOffset (dynParams : CDynamicChainParams) (nPrevBlockTime : UInt64)
    (nTimeToTest : Int64) : Option UInt32 :=
  let nOverdue : Int32 :=
    (nTimeToTest.toUInt64 - nPrevBlockTime - dynParams.nBlockSpacing.toUInt64).toUInt32.toInt32
  if nOverdue < dynParams.nBlockSpacingGracePeriod.toInt32 then some 0
  else if dynParams.nBlockSpacingGracePeriod = 0 then none
  else some (nOverdue.toUInt32 / dynParams.nBlockSpacingGracePeriod)

/-- One round of the do-while loop: the first candidate with at least
`nMinSignatures` counted signatures. -/
def firstSigned (mapLastSignatures : SortedMap UInt32 UInt32) (nMinSignatures : UInt32) :
    List UInt32 → Option UInt32
  | [] => none
  | c :: cs =>
    if mapLastSignatures.findD c 0 ≥ nMinSignatures then some c
    else firstSigned mapLastSignatures nMinSignatures cs

/-- The do-while loop over the candidates from the offset on: rounds with
thresholds `m, m - 1, …, 1`; after the round with threshold `1` the lowered
threshold is `0` and the loop stops. Only a loop started at `0` tries the
threshold `0`, which the first candidate passes. -/
def selectCreator (mapLastSignatures : SortedMap UInt32 UInt32) (round : List UInt32) :
    Nat → Option UInt32
  | 0 => firstSigned mapLastSignatures 0 round
  | 1 => firstSigned mapLastSignatures 1 round
  | m + 2 =>
    (firstSigned mapLastSignatures (UInt32.ofNat (m + 2)) round).orElse
      fun _ => selectCreator mapLastSignatures round (m + 1)

/-- The candidate appended after the scan, which is also the result when the
selection loop finds nobody: a newly added CVN, else (when not every CVN is a
candidate) a dormant one, else none (`0`). -/
def appendedCandidate (g : PocGlobals) (chain : List CBlockIndex) (s : ScanState) : UInt32 :=
  if FindNewlyAddedCVN chain != 0 then FindNewlyAddedCVN chain
  else if s.vCreatorCandidates.length < g.mapCVNs.size then
    FindDormantNode g chain s.mapLastSignatures s.vCreatorCandidates
      g.dynParams.nMinSuccessiveSignatures
  else 0

/-- `vCreatorCandidates` after the appended candidate, if any, is pushed. -/
def withAppended (vCreatorCandidates : List UInt32) (nNextCreatorId : UInt32) : List UInt32 :=
  if nNextCreatorId != 0 then vCreatorCandidates ++ [nNextCreatorId] else vCreatorCandidates

/-- What follows the scan in `CheckNextBlockCreator`: the offset, reduced
modulo the number of candidates when it exceeds it, and the selection loop
over the candidates in reverse from that offset on. -/
def selectNextCreator (g : PocGlobals) (chain : List CBlockIndex) (nTimeToTest : Int64)
    (s : ScanState) : Option UInt32 :=
  let nNextCreatorId := appendedCandidate g chain s
  let vCreatorCandidates := withAppended s.vCreatorCandidates nNextCreatorId
  if vCreatorCandidates.isEmpty then some 0
  else
    (GetCandidateOffset g.dynParams (chain.headD default).nTime.toUInt64 nTimeToTest).map
      fun nOffset =>
        let nCandidateOffset :=
          if nOffset.toNat ≥ vCreatorCandidates.length then nOffset.toNat % vCreatorCandidates.length
          else nOffset.toNat
        (selectCreator s.mapLastSignatures (vCreatorCandidates.reverse.drop nCandidateOffset)
          g.dynParams.nMinSuccessiveSignatures.toNat).getD nNextCreatorId

/-- `CheckNextBlockCreator(pindexStart, nTimeToTest)` for `chain =
pindexStart :: ancestors`, without the status report. `none` is the trap of
`GetCandidateOffset`. -/
def CheckNextBlockCreator (g : PocGlobals) (chain : List CBlockIndex) (nTimeToTest : Int64) :
    Option UInt32 :=
  match scanCandidates g POC_BLOCKS_TO_SCAN chain ⟨[], default, g.dynParams.nMinSuccessiveSignatures⟩ with
  | none => some 0
  | some s => selectNextCreator g chain nTimeToTest s

/-! ## What the scan collects -/

/-- The scan's invariant: every candidate is an active, unbanned CVN, and
signatures are counted only for active CVNs. -/
structure ScanInv (g : PocGlobals) (s : ScanState) : Prop where
  candidates_active : ∀ c ∈ s.vCreatorCandidates,
    g.mapCVNs.contains c = true ∧ g.mapBannedCVNs.contains c = false
  signers_active : ∀ k ∈ s.mapLastSignatures.keys, g.mapCVNs.contains k = true

/-- Counting signatures adds keys from the list walked and no others. -/
theorem mem_keys_foldl_insert {vMissing : List UInt32} :
    ∀ (ids : List UInt32) (sigs : SortedMap UInt32 UInt32) (k : UInt32),
      k ∈ (ids.foldl (fun sigs id =>
          if !vMissing.isEmpty && vMissing.contains id then sigs
          else sigs.insert id (sigs.findD id 0 + 1)) sigs).keys →
        k ∈ sigs.keys ∨ k ∈ ids
  | [], _, _, h => Or.inl h
  | id :: ids, sigs, k, h => by
    rw [List.foldl_cons] at h
    rcases mem_keys_foldl_insert ids _ k h with hk | hk
    · split_ifs at hk
      · exact Or.inl hk
      · rcases (sigs.mem_keys_insert _ _ k).mp hk with rfl | hk
        · exact Or.inr List.mem_cons_self
        · exact Or.inl hk
    · exact Or.inr (List.mem_cons_of_mem id hk)

theorem recordSignatures_keys (mapCVNs : SortedMap UInt32 CCvnInfo) (vMissing : List UInt32)
    (sigs : SortedMap UInt32 UInt32) (k : UInt32)
    (h : k ∈ (recordSignatures mapCVNs vMissing sigs).keys) :
    k ∈ sigs.keys ∨ mapCVNs.contains k = true := by
  rcases mem_keys_foldl_insert mapCVNs.keys sigs k h with hk | hk
  · exact Or.inl hk
  · exact Or.inr ((mapCVNs.contains_iff_mem_keys k).mpr hk)

/-- One block of the scan keeps the invariant when its creator is active and
unbanned. -/
theorem addCandidate_inv {g : PocGlobals} {s : ScanState} {id : UInt32} (hs : ScanInv g s)
    (hActive : g.mapCVNs.contains id = true) (hBanned : g.mapBannedCVNs.contains id = false) :
    ScanInv g (addCandidate s id) := by
  unfold addCandidate
  split_ifs
  · exact hs
  · refine ⟨fun c hc => ?_, hs.signers_active⟩
    rcases List.mem_append.mp hc with hc | hc
    · exact hs.candidates_active c hc
    · rw [List.mem_singleton.mp hc]
      exact ⟨hActive, hBanned⟩

theorem countSignatures_inv {g : PocGlobals} {s : ScanState} (pindex : CBlockIndex)
    (hs : ScanInv g s) : ScanInv g (countSignatures g s pindex) := by
  unfold countSignatures
  split_ifs
  · refine ⟨hs.candidates_active, fun k hk => ?_⟩
    rcases recordSignatures_keys _ _ _ k hk with hk | hk
    · exact hs.signers_active k hk
    · exact hk
  · exact hs

/-- One block of the scan keeps the invariant when its creator is active and
unbanned. -/
theorem scanStep_inv {g : PocGlobals} {s : ScanState} {pindex : CBlockIndex} (hs : ScanInv g s)
    (hActive : g.mapCVNs.contains pindex.nCreatorId = true)
    (hBanned : g.mapBannedCVNs.contains pindex.nCreatorId = false) :
    ScanInv g (scanStep g s pindex) :=
  countSignatures_inv pindex (addCandidate_inv hs hActive hBanned)

/-- The invariant holds for every state the scan can end in. -/
theorem scanCandidates_inv (g : PocGlobals) :
    ∀ (n : Nat) (chain : List CBlockIndex) (s s' : ScanState),
      ScanInv g s → scanCandidates g n chain s = some s' → ScanInv g s'
  | 0, _, s, s', hs, h => by
    simp only [scanCandidates, Option.some.injEq] at h
    exact h ▸ hs
  | n + 1, [], s, s', hs, h => by
    simp only [scanCandidates, Option.some.injEq] at h
    exact h ▸ hs
  | n + 1, pindex :: rest, s, s', hs, h => by
    simp only [scanCandidates] at h
    split_ifs at h with hStatus hSkip hDone
    · -- skipped creator: the state is passed on unchanged
      exact scanCandidates_inv g n rest s s' hs h
    · -- the step ran on an active, unbanned creator; the loop breaks here
      have hActive : g.mapCVNs.contains pindex.nCreatorId = true ∧
          g.mapBannedCVNs.contains pindex.nCreatorId = false := by
        simpa using hSkip
      simp only [Option.some.injEq] at h
      exact h ▸ scanStep_inv hs hActive.1 hActive.2
    · have hActive : g.mapCVNs.contains pindex.nCreatorId = true ∧
          g.mapBannedCVNs.contains pindex.nCreatorId = false := by
        simpa using hSkip
      exact scanCandidates_inv g n rest _ s' (scanStep_inv hs hActive.1 hActive.2) h

theorem scanInv_init (g : PocGlobals) (n : UInt32) : ScanInv g ⟨[], default, n⟩ :=
  ⟨fun _ h => absurd h List.not_mem_nil, fun _ h => absurd h List.not_mem_nil⟩

/-! ## What the selection returns -/

theorem dormantWalk_mem :
    ∀ (setDormantNodes : List UInt32) (chain : List CBlockIndex),
      dormantWalk setDormantNodes chain = 0 ∨ dormantWalk setDormantNodes chain ∈ setDormantNodes
  | _, [] => Or.inl rfl
  | setDormantNodes, pindex :: rest => by
    unfold dormantWalk
    split_ifs with hIn hLast
    · exact Or.inr (List.contains_iff_mem.mp hIn)
    · -- the walk goes on with a smaller set
      rcases dormantWalk_mem (setDormantNodes.erase pindex.nCreatorId) rest with h | h
      · exact Or.inl h
      · exact Or.inr (List.mem_of_mem_erase h)
    · exact dormantWalk_mem setDormantNodes rest

theorem mem_dormantNodes {g : PocGlobals} {sigs : SortedMap UInt32 UInt32}
    {vCandidates : List UInt32} {nMinSigs id : UInt32}
    (h : id ∈ dormantNodes g sigs vCandidates nMinSigs) :
    id ∈ sigs.keys ∧ g.mapBannedCVNs.contains id = false := by
  obtain ⟨e, he, rfl⟩ := List.mem_map.mp h
  have ⟨heMem, heKeep⟩ := List.mem_filter.mp he
  have hKeep : (e.1 ∉ vCandidates ∧ nMinSigs ≤ e.2) ∧ g.mapBannedCVNs.contains e.1 = false := by
    simpa using heKeep
  exact ⟨List.mem_map_of_mem heMem, hKeep.2⟩

/-- A dormant node is a signer with counted signatures that is not banned. -/
theorem FindDormantNode_mem (g : PocGlobals) (chain : List CBlockIndex)
    (sigs : SortedMap UInt32 UInt32) (vCandidates : List UInt32) (nMinSigs : UInt32) :
    FindDormantNode g chain sigs vCandidates nMinSigs = 0 ∨
      (FindDormantNode g chain sigs vCandidates nMinSigs ∈ sigs.keys ∧
        g.mapBannedCVNs.contains (FindDormantNode g chain sigs vCandidates nMinSigs) = false) := by
  unfold FindDormantNode
  split
  · exact Or.inl rfl
  · rename_i id hOne
    exact Or.inr (mem_dormantNodes (by rw [hOne]; exact List.mem_singleton_self id))
  · rcases dormantWalk_mem (dormantNodes g sigs vCandidates nMinSigs) chain with h | h
    · exact Or.inl h
    · exact Or.inr (mem_dormantNodes h)

theorem firstSigned_mem (sigs : SortedMap UInt32 UInt32) (m : UInt32) :
    ∀ (round : List UInt32) (c : UInt32), firstSigned sigs m round = some c → c ∈ round
  | [], _, h => by simp [firstSigned] at h
  | c' :: cs, c, h => by
    unfold firstSigned at h
    split_ifs at h
    · simp only [Option.some.injEq] at h
      exact h ▸ List.mem_cons_self
    · exact List.mem_cons_of_mem c' (firstSigned_mem sigs m cs c h)

theorem selectCreator_mem (sigs : SortedMap UInt32 UInt32) (round : List UInt32) :
    ∀ (m : Nat) (c : UInt32), selectCreator sigs round m = some c → c ∈ round
  | 0, c, h => firstSigned_mem sigs 0 round c h
  | 1, c, h => firstSigned_mem sigs 1 round c h
  | m + 2, c, h => by
    unfold selectCreator at h
    cases hFirst : firstSigned sigs (UInt32.ofNat (m + 2)) round with
    | some c' =>
      rw [hFirst] at h
      simp only [Option.orElse_some, Option.some.injEq] at h
      exact h ▸ firstSigned_mem sigs _ round c' hFirst
    | none =>
      rw [hFirst] at h
      exact selectCreator_mem sigs round (m + 1) c h

/-- The appended candidate is `0`, an active unbanned CVN (a dormant one), or
the newly added CVN. -/
theorem appendedCandidate_cases {g : PocGlobals} (chain : List CBlockIndex) {s : ScanState}
    (hs : ScanInv g s) :
    appendedCandidate g chain s = 0 ∨
      (g.mapCVNs.contains (appendedCandidate g chain s) = true ∧
        g.mapBannedCVNs.contains (appendedCandidate g chain s) = false) ∨
      appendedCandidate g chain s = FindNewlyAddedCVN chain := by
  unfold appendedCandidate
  split_ifs
  · exact Or.inr (Or.inr rfl)
  · rcases FindDormantNode_mem g chain s.mapLastSignatures s.vCreatorCandidates
      g.dynParams.nMinSuccessiveSignatures with h0 | ⟨hKey, hBan⟩
    · exact Or.inl h0
    · exact Or.inr (Or.inl ⟨hs.signers_active _ hKey, hBan⟩)
  · exact Or.inl rfl

/-- The selection after a scan returns `0`, an active unbanned CVN, or the
newly added CVN. -/
theorem selectNextCreator_cases {g : PocGlobals} {chain : List CBlockIndex} {nTimeToTest : Int64}
    {s : ScanState} (hs : ScanInv g s) {r : UInt32}
    (h : selectNextCreator g chain nTimeToTest s = some r) :
    r = 0 ∨ (g.mapCVNs.contains r = true ∧ g.mapBannedCVNs.contains r = false) ∨
      r = FindNewlyAddedCVN chain := by
  have hNext := appendedCandidate_cases chain hs
  have hCands : ∀ c ∈ withAppended s.vCreatorCandidates (appendedCandidate g chain s),
      (g.mapCVNs.contains c = true ∧ g.mapBannedCVNs.contains c = false) ∨
        c = appendedCandidate g chain s := by
    intro c hc
    unfold withAppended at hc
    split_ifs at hc
    · rcases List.mem_append.mp hc with hc | hc
      · exact Or.inl (hs.candidates_active c hc)
      · exact Or.inr (List.mem_singleton.mp hc)
    · exact Or.inl (hs.candidates_active c hc)
  unfold selectNextCreator at h
  dsimp only at h
  split_ifs at h
  · exact Or.inl (Option.some.inj h).symm
  · obtain ⟨nOffset, -, hSel⟩ := Option.map_eq_some_iff.mp h
    cases hPick : selectCreator s.mapLastSignatures _ g.dynParams.nMinSuccessiveSignatures.toNat with
    | none =>
      rw [hPick, Option.getD_none] at hSel
      rw [← hSel]
      exact hNext
    | some c =>
      rw [hPick, Option.getD_some] at hSel
      have hMem := List.mem_reverse.mp (List.mem_of_mem_drop (selectCreator_mem _ _ _ c hPick))
      rw [← hSel]
      rcases hCands c hMem with hGood | rfl
      · exact Or.inr (Or.inl hGood)
      · exact hNext

/-- Whatever `CheckNextBlockCreator` returns is `0`, an active CVN that is not
banned, or the CVN `FindNewlyAddedCVN` reports. -/
theorem CheckNextBlockCreator_cases (g : PocGlobals) (chain : List CBlockIndex)
    (nTimeToTest : Int64) (r : UInt32) (h : CheckNextBlockCreator g chain nTimeToTest = some r) :
    r = 0 ∨ (g.mapCVNs.contains r = true ∧ g.mapBannedCVNs.contains r = false) ∨
      r = FindNewlyAddedCVN chain := by
  unfold CheckNextBlockCreator at h
  split at h
  · exact Or.inl (Option.some.inj h).symm
  · rename_i s hScan
    exact selectNextCreator_cases (scanCandidates_inv g _ chain _ s (scanInv_init g _) hScan) h

/-! ## A removed CVN is scheduled -/

/-- The CVN entry of `id`, added at height `h`. -/
def cvnEntry (id h : UInt32) : CCvnInfo := ⟨id, h, ⟨BitVec.ofNat 512 id.toNat⟩⟩

/-- Admissible chain parameters (three minutes a block, one-minute grace
periods) that ask for one successive signature. -/
def oneSignatureParams : CDynamicChainParams :=
  { nVersion := 1, nMinAdminSigs := 1, nMaxAdminSigs := 11, nBlockSpacing := 180,
    nBlockSpacingGracePeriod := 60, nTransactionFee := 0, nDustThreshold := 0,
    nMinSuccessiveSignatures := 1, nBlocksToConsiderForSigCheck := 12,
    nPercentageOfSignaturesMean := 70, nMaxBlockSize := 1000000, nBlockPropagationWaitTime := 5,
    nRetryNewSigSetInterval := 15, nCoinbaseMaturity := 10,
    strDescription := List.replicate 21 65 }

/-- The node after CVN 3 was added and removed again: CVNs 1 and 2 are active. -/
def removedCvnGlobals : PocGlobals :=
  { (default : PocGlobals) with
    mapCVNs := ⟨[(1, cvnEntry 1 0), (2, cvnEntry 2 0)], by decide⟩
    dynParams := oneSignatureParams }

/-- A connected CVN block of the chain, at `h`, with its creator, missing
signers and CVN payload. -/
def cvnBlock (h : Int32) (nTime nCreatorId : UInt32) (vMissingSignerIds : List UInt32)
    (vCvns : List CCvnInfo) : CBlockIndex :=
  { (default : CBlockIndex) with
    nHeight := h, nStatus := BLOCK_VALID_SCRIPTS,
    nVersion := CBlockHeader.TX_PAYLOAD ||| CBlockHeader.CVN_PAYLOAD,
    nTime, nCreatorId, vMissingSignerIds, vCvns }

/-- Genesis with CVNs 1 and 2; block 1, created by 2, adds CVN 3; block 2,
created by 1 and signed by 2 alone, removes it again (`removecvn` keeps the
other entries' heights). -/
def removedCvnChain : List CBlockIndex :=
  [cvnBlock 2 1000 1 [1] [cvnEntry 1 0, cvnEntry 2 0],
   cvnBlock 1 820 2 [] [cvnEntry 1 0, cvnEntry 2 0, cvnEntry 3 1],
   cvnBlock 0 640 1 [] [cvnEntry 1 0, cvnEntry 2 0]]

/-- Two grace periods after the block is due, the removed CVN 3 is chosen:
`FindNewlyAddedCVN` reports it, the offset skips to candidate 1, which did not
sign block 2, and when the lowered threshold reaches zero the loop falls back
to CVN 3. -/
theorem checkNextBlockCreator_removed_cvn :
    CheckDynamicChainParameters removedCvnGlobals.dynParams = true ∧
    removedCvnGlobals.mapCVNs.contains 3 = false ∧
    FindNewlyAddedCVN removedCvnChain = 3 ∧
    CheckNextBlockCreator removedCvnGlobals removedCvnChain 1300 = some 3 := by
  decide

/-! ## A schedule that no time changes -/

/-- With a zero grace period the offset is `0` at every time before the block
is due, and the division traps from then on. -/
theorem GetCandidateOffset_zero_or_trap (p : CDynamicChainParams) (nPrevBlockTime : UInt64)
    (nTimeToTest : Int64) (hGrace : p.nBlockSpacingGracePeriod = 0) :
    GetCandidateOffset p nPrevBlockTime nTimeToTest = some 0 ∨
      GetCandidateOffset p nPrevBlockTime nTimeToTest = none := by
  unfold GetCandidateOffset
  dsimp only
  split_ifs
  · exact .inl rfl
  · exact .inr rfl

theorem firstSigned_zero (sigs : SortedMap UInt32 UInt32) (c : UInt32) (cs : List UInt32) :
    firstSigned sigs 0 (c :: cs) = some c := by
  simp [firstSigned]

/-- With a zero grace period and no successive signatures required, the
creator is the candidate of highest priority at every time, or the call
traps: the time a block is made at never hands it to another CVN. -/
theorem selectNextCreator_zero_grace {g : PocGlobals} {chain : List CBlockIndex} {s : ScanState}
    (hGrace : g.dynParams.nBlockSpacingGracePeriod = 0) (hMin : g.dynParams.nMinSuccessiveSignatures = 0)
    {c : UInt32} (hLast : (withAppended s.vCreatorCandidates (appendedCandidate g chain s)).getLast? = some c)
    (nTimeToTest : Int64) :
    selectNextCreator g chain nTimeToTest s = some c ∨ selectNextCreator g chain nTimeToTest s = none := by
  obtain ⟨rest, hReverse⟩ : ∃ rest,
      (withAppended s.vCreatorCandidates (appendedCandidate g chain s)).reverse = c :: rest := by
    rw [← List.head?_reverse] at hLast
    exact List.head?_eq_some_iff.mp hLast
  have hNonempty : (withAppended s.vCreatorCandidates (appendedCandidate g chain s)).isEmpty = false := by
    rw [← List.isEmpty_reverse, hReverse]
    rfl
  unfold selectNextCreator
  dsimp only
  rw [hNonempty, hMin]
  rcases GetCandidateOffset_zero_or_trap g.dynParams (chain.headD default).nTime.toUInt64 nTimeToTest
    hGrace with hOffset | hOffset
  · left
    rw [hOffset, Option.map_some, hReverse]
    simp [selectCreator, firstSigned_zero]
  · right
    rw [hOffset]
    rfl

/-- Parameters that `CheckDynamicChainParameters` accepts, with no grace
period and no successive signatures required. -/
def noGraceParams : CDynamicChainParams :=
  { oneSignatureParams with nBlockSpacingGracePeriod := 0, nMinSuccessiveSignatures := 0 }

/-- CVNs 1 and 2 active under `noGraceParams`. -/
def noGraceGlobals : PocGlobals := { removedCvnGlobals with dynParams := noGraceParams }

/-- Genesis created by CVN 2; the tip, created by CVN 1, which CVN 2 did not
sign. -/
def unsignedByTwoChain : List CBlockIndex := [cvnBlock 1 1000 1 [2] [], cvnBlock 0 820 2 [] []]

/-- At every time the next block is CVN 2's or the call traps, although CVN 2
did not sign the tip and CVN 1, which did, is active: with CVN 2 offline the
chain stalls. -/
theorem checkNextBlockCreator_zero_grace_stalls :
    CheckDynamicChainParameters noGraceGlobals.dynParams = true ∧
    noGraceGlobals.mapCVNs.contains 1 = true ∧ noGraceGlobals.mapBannedCVNs.contains 1 = false ∧
    (unsignedByTwoChain.headD default).vMissingSignerIds = [2] ∧
    ∀ nTimeToTest, CheckNextBlockCreator noGraceGlobals unsignedByTwoChain nTimeToTest = some 2 ∨
      CheckNextBlockCreator noGraceGlobals unsignedByTwoChain nTimeToTest = none := by
  refine ⟨by decide, by decide, by decide, rfl, fun nTimeToTest => ?_⟩
  have hScan : scanCandidates noGraceGlobals POC_BLOCKS_TO_SCAN unsignedByTwoChain
      ⟨[], default, noGraceGlobals.dynParams.nMinSuccessiveSignatures⟩ = some ⟨[1, 2], default, 0⟩ :=
    rfl
  unfold CheckNextBlockCreator
  rw [hScan]
  exact selectNextCreator_zero_grace rfl rfl (by decide) nTimeToTest

end FairCoin.Ports.NextCreator
