import FairCoin.Ports.Chainstate

/-!
# The block index and the choice of the best chain

`mapBlockIndex` of `main.cpp` with the status bits of `chain.h`: headers
enter it through `AddToBlockIndex`; `ReceivedBlockTransactions` records a
block's data, and once every ancestor has data it gives the block and the
descendants that waited for it (`mapBlocksUnlinked`) a sequence number and
makes them candidates for the tip; `FindMostWorkChain` picks the candidate
with the most work whose path back to the active chain has data and no
failed block.

The index is the list of its entries in the order they were added, each
naming its parent by hash (`pprev`). `chainActive` is the list of the active
chain's hashes, genesis first. The work of a block (`GetBlockProof`, its
number of chain signatures) is a parameter.
-/

namespace FairCoin.Ports.BlockIndex

open FairCoin.Ports.Primitives

/-! ## Status bits

`BLOCK_VALID_SCRIPTS` and `BLOCK_VALID_MASK` are in `FairCoin.Ports.Primitives`. -/

/-- `BLOCK_VALID_TREE`. -/
def BLOCK_VALID_TREE : UInt32 := 2
/-- `BLOCK_VALID_TRANSACTIONS`. -/
def BLOCK_VALID_TRANSACTIONS : UInt32 := 3
/-- `BLOCK_HAVE_DATA`. -/
def BLOCK_HAVE_DATA : UInt32 := 8
/-- `BLOCK_HAVE_UNDO`. -/
def BLOCK_HAVE_UNDO : UInt32 := 16
/-- `BLOCK_FAILED_VALID`. -/
def BLOCK_FAILED_VALID : UInt32 := 32
/-- `BLOCK_FAILED_CHILD`. -/
def BLOCK_FAILED_CHILD : UInt32 := 64
/-- `BLOCK_FAILED_MASK`. -/
def BLOCK_FAILED_MASK : UInt32 := 96

/-- `CBlockIndex::IsValid`: not failed, and validated up to `nUpTo`. -/
def isValid (nStatus nUpTo : UInt32) : Bool :=
  nStatus &&& BLOCK_FAILED_MASK == 0 && nStatus &&& BLOCK_VALID_MASK ≥ nUpTo

/-- `CBlockIndex::RaiseValidity`, as the status it leaves: a failed block
keeps its status, any other is raised to `nUpTo` if it is below. -/
def raiseValidity (nStatus nUpTo : UInt32) : UInt32 :=
  if nStatus &&& BLOCK_FAILED_MASK != 0 then nStatus
  else if nStatus &&& BLOCK_VALID_MASK < nUpTo then (nStatus &&& ~~~BLOCK_VALID_MASK) ||| nUpTo
  else nStatus

/-! ## Entries -/

/-- An entry of `mapBlockIndex`: the `CBlockIndex`, its `pprev` as the
parent's hash, and the counters the activation code reads. -/
structure IndexEntry where
  index : CBlockIndex
  hashPrev : Option uint256
  nChainWork : Nat
  nTx : Nat
  nChainTx : Nat
  nSequenceId : Nat
  deriving DecidableEq, Repr

namespace IndexEntry

/-- `GetBlockHash()`. -/
def hash (e : IndexEntry) : uint256 := e.index.hashBlock

/-- The entry with status `nStatus`. -/
def setStatus (e : IndexEntry) (nStatus : UInt32) : IndexEntry :=
  { e with index := { e.index with nStatus := nStatus } }

/-- Whether a `BLOCK_FAILED_*` bit is set. -/
def isFailed (e : IndexEntry) : Bool := e.index.nStatus &&& BLOCK_FAILED_MASK != 0

/-- Whether `BLOCK_HAVE_DATA` is set. -/
def haveData (e : IndexEntry) : Bool := e.index.nStatus &&& BLOCK_HAVE_DATA != 0

@[simp] theorem hash_setStatus (e : IndexEntry) (nStatus : UInt32) :
    (e.setStatus nStatus).hash = e.hash := rfl

@[simp] theorem hashPrev_setStatus (e : IndexEntry) (nStatus : UInt32) :
    (e.setStatus nStatus).hashPrev = e.hashPrev := rfl

@[simp] theorem nStatus_setStatus (e : IndexEntry) (nStatus : UInt32) :
    (e.setStatus nStatus).index.nStatus = nStatus := rfl

end IndexEntry

/-- `CBlockIndexWorkComparator`: `a` sorts below `b` when it has less work,
or as much work and a later sequence number (the block received first wins
a tie). -/
def workLess (a b : IndexEntry) : Bool :=
  a.nChainWork < b.nChainWork || (a.nChainWork == b.nChainWork && b.nSequenceId < a.nSequenceId)

/-! ## The index and the active chain -/

/-- The block bookkeeping of `main.cpp`: `mapBlockIndex` in the order its
entries were added, the tip candidates `setBlockIndexCandidates`,
`mapBlocksUnlinked` (a block with data under its parent, which has none
yet), the sequence counter `nBlockSequenceId`, and `chainActive`, genesis
first. -/
structure BlockTree where
  mapBlockIndex : List IndexEntry
  setBlockIndexCandidates : List uint256
  mapBlocksUnlinked : List (uint256 × uint256)
  nBlockSequenceId : Nat
  chainActive : List uint256
  deriving DecidableEq, Repr

namespace BlockTree

/-- `mapBlockIndex.find(hash)`. -/
def lookup (t : BlockTree) (hash : uint256) : Option IndexEntry :=
  t.mapBlockIndex.find? fun e => e.hash == hash

/-- A lookup finds an entry of the hash it was given. -/
theorem lookup_hash {t : BlockTree} {hash : uint256} {e : IndexEntry} (h : t.lookup hash = some e) :
    e.hash = hash := by
  simpa using List.find?_some h

/-- The entry of `e`'s hash replaced by `e`. -/
def setEntry (t : BlockTree) (e : IndexEntry) : BlockTree :=
  { t with mapBlockIndex := t.mapBlockIndex.map fun e' => if e'.hash == e.hash then e else e' }

/-- `chainActive.Tip()`. -/
def tip (t : BlockTree) : Option IndexEntry := t.chainActive.getLast? >>= t.lookup

/-- `chainActive.Height()`: -1 for an empty chain. -/
def height (t : BlockTree) : Int32 := (t.tip.map (·.index.nHeight)).getD (-1)

/-- `setBlockIndexCandidates.insert(hash)`. -/
def insertCandidate (t : BlockTree) (hash : uint256) : BlockTree :=
  if t.setBlockIndexCandidates.contains hash then t
  else { t with setBlockIndexCandidates := t.setBlockIndexCandidates ++ [hash] }

/-- `setBlockIndexCandidates.erase(hash)`. -/
def eraseCandidate (t : BlockTree) (hash : uint256) : BlockTree :=
  { t with setBlockIndexCandidates := t.setBlockIndexCandidates.filter (· != hash) }

/-- The entries from `hash` back along `pprev` up to (not including) the
first one that `stop` accepts, at most `fuel` of them: the walk
`while (pindex && !stop(pindex)) pindex = pindex->pprev`. -/
def walkBack (t : BlockTree) (stop : uint256 → Bool) : Nat → uint256 → List IndexEntry
  | 0, _ => []
  | fuel + 1, hash =>
    if stop hash then []
    else
      match t.lookup hash with
      | none => []
      | some e =>
        match e.hashPrev with
        | none => [e]
        | some hashPrev => e :: walkBack t stop fuel hashPrev

/-- The blocks from `hash` back to the active chain, the newest first. -/
def pathToChain (t : BlockTree) (hash : uint256) : List IndexEntry :=
  t.walkBack t.chainActive.contains t.mapBlockIndex.length hash

/-- `chainActive.FindFork(pindex)`: the last block of the active chain on the
way back from `hash`. -/
def findFork (t : BlockTree) (hash : uint256) : Option uint256 :=
  match (t.pathToChain hash).getLast? with
  | none => if t.chainActive.contains hash then some hash else none
  | some e => e.hashPrev

/-! ## Headers and block data -/

/-- `AddToBlockIndex`: the entry of a header, or the one already there. A
new entry sits one above its parent, with the parent's work (1 for the
genesis block) plus its own, and is valid up to `BLOCK_VALID_TREE`. -/
def AddToBlockIndex (blockProof : CBlockIndex → Nat) (t : BlockTree) (hash : uint256)
    (block : CBlockHeader) (vMissingSignerIds : List UInt32) : BlockTree × IndexEntry :=
  match t.lookup hash with
  | some e => (t, e)
  | none =>
    let pprev := t.lookup block.hashPrevBlock
    let index : CBlockIndex :=
      ⟨hash, (pprev.map (·.index.nHeight + 1)).getD 0, raiseValidity 0 BLOCK_VALID_TREE,
        block.nVersion, block.nTime, block.nCreatorId, vMissingSignerIds, []⟩
    let e : IndexEntry :=
      ⟨index, pprev.map (·.hash), ((pprev.map (·.nChainWork)).getD 1) + blockProof index, 0, 0, 0⟩
    ({ t with mapBlockIndex := t.mapBlockIndex ++ [e] }, e)

/-- The loop of `ReceivedBlockTransactions` over a queue of blocks whose
ancestors all have data: each gets its `nChainTx` and a sequence number,
becomes a candidate unless it has less work than the tip, and brings the
descendants that waited for it into the queue. Every block is queued at most
once, so `fuel` is the size of the index. -/
def linkDescendants : Nat → BlockTree → List uint256 → BlockTree
  | 0, t, _ => t
  | _, t, [] => t
  | fuel + 1, t, hash :: queue =>
    match t.lookup hash with
    | none => linkDescendants fuel t queue
    | some e =>
      let nChainTxPrev := ((e.hashPrev >>= t.lookup).map (·.nChainTx)).getD 0
      let e' := { e with nChainTx := nChainTxPrev + e.nTx, nSequenceId := t.nBlockSequenceId }
      let t1 := { t.setEntry e' with nBlockSequenceId := t.nBlockSequenceId + 1 }
      let t2 := match t1.tip with
        | some tip => if workLess e' tip then t1 else t1.insertCandidate hash
        | none => t1.insertCandidate hash
      let children := (t2.mapBlocksUnlinked.filter (·.1 == hash)).map (·.2)
      linkDescendants fuel { t2 with mapBlocksUnlinked := t2.mapBlocksUnlinked.filter (·.1 != hash) }
        (queue ++ children)

/-- `ReceivedBlockTransactions`: the block's data is there (a block without
`TX_PAYLOAD` counts as one transaction); if every ancestor has data, the
block and its waiting descendants are linked, otherwise it waits under its
parent. The CVN payload is recorded with the entry, as read back from disk
later. -/
def ReceivedBlockTransactions (t : BlockTree) (block : CBlock) (hash : uint256) : BlockTree :=
  match t.lookup hash with
  | none => t
  | some e =>
    let e1 : IndexEntry :=
      { e with
        index := { e.index with
          nStatus := raiseValidity (e.index.nStatus ||| BLOCK_HAVE_DATA) BLOCK_VALID_TRANSACTIONS,
          vCvns := block.vCvns }
        nTx := if block.hasTx then block.vtx.length else 1
        nChainTx := 0 }
    let t1 := t.setEntry e1
    match e1.hashPrev >>= t1.lookup with
    | none => linkDescendants t1.mapBlockIndex.length t1 [hash]
    | some prev =>
      if prev.nChainTx != 0 then linkDescendants t1.mapBlockIndex.length t1 [hash]
      else if isValid prev.index.nStatus BLOCK_VALID_TREE then
        { t1 with mapBlocksUnlinked := t1.mapBlocksUnlinked ++ [(prev.hash, hash)] }
      else t1

/-! ## The best chain -/

/-- The greatest candidate under `CBlockIndexWorkComparator` (the set's
`rbegin()`). -/
def bestCandidate (t : BlockTree) : Option IndexEntry :=
  (t.setBlockIndexCandidates.filterMap t.lookup).foldl
    (fun best e => match best with
      | none => some e
      | some b => if workLess b e then some e else some b) none

/-- The clean-up of `FindMostWorkChain` when the block `pindexTest` on the
path `path` (newest first) is failed or misses data: the blocks above it are
marked as failed children or put back to wait for data, and they and
`pindexTest` stop being candidates. -/
def dropCandidateChain (t : BlockTree) (path : List IndexEntry) (pindexTest : IndexEntry) :
    BlockTree :=
  let above := path.takeWhile (·.hash != pindexTest.hash)
  let t1 := above.foldl (fun t e =>
    let t' := if pindexTest.isFailed then t.setEntry (e.setStatus (e.index.nStatus ||| BLOCK_FAILED_CHILD))
      else match e.hashPrev with
        | some hashPrev => { t with mapBlocksUnlinked := t.mapBlocksUnlinked ++ [(hashPrev, e.hash)] }
        | none => t
    t'.eraseCandidate e.hash) t
  t1.eraseCandidate pindexTest.hash

/-- `FindMostWorkChain`: the best candidate whose path back to the active
chain has data and no failed block, dropping the candidates that fail this.
Each round drops a candidate, so `fuel` is the number of candidates. -/
def FindMostWorkChain : Nat → BlockTree → BlockTree × Option IndexEntry
  | 0, t => (t, none)
  | fuel + 1, t =>
    match t.bestCandidate with
    | none => (t, none)
    | some pindexNew =>
      let path := t.pathToChain pindexNew.hash
      match path.find? (fun e => e.isFailed || !e.haveData) with
      | none => (t, some pindexNew)
      | some pindexTest => FindMostWorkChain fuel (t.dropCandidateChain path pindexTest)

/-- `PruneBlockIndexCandidates`: the candidates below the tip go. -/
def PruneBlockIndexCandidates (t : BlockTree) : BlockTree :=
  match t.tip with
  | none => t
  | some tip =>
    { t with setBlockIndexCandidates := t.setBlockIndexCandidates.filter fun hash =>
        match t.lookup hash with
        | some e => !workLess e tip
        | none => true }

end BlockTree

end FairCoin.Ports.BlockIndex
