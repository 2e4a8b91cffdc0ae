import FairCoin.Ports.Primitives

/-!
# The memory pool's package state

Each entry of `CTxMemPool::mapTx` carries, besides its own fee, size and
signature operations, the totals of its package: the count, size, modified
fee and signature operations of itself with all its in-mempool ancestors,
and the count, size and modified fee of itself with all its in-mempool
descendants. `mapLinks` records the in-mempool parents and children of every
entry. `addUnchecked` links a new entry to its parents and adds it to the
descendant totals of the ancestors `CalculateMemPoolAncestors` found, and its
own ancestor totals from theirs. `PrioritiseTransaction` changes an entry's
fee delta, and with it the entry's modified fee, its own two totals and the
descendant totals of its ancestors. The updates of the totals assert that a
package size and count stay positive as `int64_t` and the signature
operations non-negative as `int`; a failed assert aborts the node, which is
`none` here.

The specification of the ancestor totals reads the ancestors off the
spending relation of the transactions in `mapTx` (`inPoolAncestors`).

## Main results

* `PrioritiseTransaction_isSome` — on a pool whose clean entries have a
  positive package size and count, `PrioritiseTransaction` passes its
  asserts.
* `PrioritiseTransaction_tx`, `PrioritiseTransaction_ancestorState_of_ne` —
  `PrioritiseTransaction` changes no transaction and no ancestor totals but
  those of the entry it prioritises.
* `PrioritiseTransaction_modifiedFee` — that entry's modified fee moves by
  the delta.
* `prioritiseTransaction_stale_ancestor_fees` — after a parent and a child
  are added, the ancestor totals are right; once the parent is prioritised,
  the child's modified fee with ancestors misses the delta.
-/

namespace FairCoin.Ports.TxMemPool

open FairCoin.Verified FairCoin.Ports.Primitives

/-- `COutPoint::operator<`: by hash, then by index. -/
instance instLinearOrderCOutPoint : LinearOrder COutPoint :=
  LinearOrder.lift' (fun o => toLex (o.hash, o.n)) fun a b h => by
    cases a
    cases b
    simp only [toLex_inj, Prod.mk.injEq] at h
    rw [h.1, h.2]

/-! ## Entries -/

/-- `CTxMemPoolEntry`, with the fields the package state reads. -/
structure CTxMemPoolEntry where
  tx : CTransaction
  nFee : CAmount
  nTxSize : UInt64
  sigOpCount : UInt32
  feeDelta : Int64
  nCountWithDescendants : UInt64
  nSizeWithDescendants : UInt64
  nModFeesWithDescendants : CAmount
  nCountWithAncestors : UInt64
  nSizeWithAncestors : UInt64
  nModFeesWithAncestors : CAmount
  nSigOpCountWithAncestors : UInt32
  deriving DecidableEq, Repr

namespace CTxMemPoolEntry

/-- The constructor: a package of the entry alone. -/
def create (tx : CTransaction) (nFee : CAmount) (nTxSize : UInt64) (sigOpCount : UInt32) :
    CTxMemPoolEntry :=
  ⟨tx, nFee, nTxSize, sigOpCount, 0, 1, nTxSize, nFee, 1, nTxSize, nFee, sigOpCount⟩

/-- `GetModifiedFee`. -/
def GetModifiedFee (e : CTxMemPoolEntry) : CAmount := e.nFee + e.feeDelta

/-- `IsDirty`. -/
def IsDirty (e : CTxMemPoolEntry) : Bool := e.nCountWithDescendants == 0

/-- `UpdateDescendantState`: a dirty entry is left as it is; `none` is a
failed assert, a size or count with descendants that is not positive as an
`int64_t`. -/
def UpdateDescendantState (e : CTxMemPoolEntry) (modifySize : Int64) (modifyFee : CAmount)
    (modifyCount : Int64) : Option CTxMemPoolEntry :=
  if e.IsDirty then some e
  else
    let nSizeWithDescendants := e.nSizeWithDescendants + modifySize.toUInt64
    let nCountWithDescendants := e.nCountWithDescendants + modifyCount.toUInt64
    if nSizeWithDescendants.toInt64 ≤ 0 then none
    else if nCountWithDescendants.toInt64 ≤ 0 then none
    else
      some { e with
        nSizeWithDescendants
        nModFeesWithDescendants := e.nModFeesWithDescendants + modifyFee
        nCountWithDescendants }

/-- `UpdateAncestorState`: `none` is a failed assert, a size or count with
ancestors that is not positive as an `int64_t`, or signature operations
that are negative as an `int`. -/
def UpdateAncestorState (e : CTxMemPoolEntry) (modifySize : Int64) (modifyFee : CAmount)
    (modifyCount : Int64) (modifySigOps : Int32) : Option CTxMemPoolEntry :=
  let nSizeWithAncestors := e.nSizeWithAncestors + modifySize.toUInt64
  let nCountWithAncestors := e.nCountWithAncestors + modifyCount.toUInt64
  let nSigOpCountWithAncestors := e.nSigOpCountWithAncestors + modifySigOps.toUInt32
  if nSizeWithAncestors.toInt64 ≤ 0 then none
  else if nCountWithAncestors.toInt64 ≤ 0 then none
  else if nSigOpCountWithAncestors.toInt32 < 0 then none
  else
    some { e with
      nSizeWithAncestors
      nModFeesWithAncestors := e.nModFeesWithAncestors + modifyFee
      nCountWithAncestors
      nSigOpCountWithAncestors }

/-- `UpdateFeeDelta`: both package fees move by the change of the delta. -/
def UpdateFeeDelta (e : CTxMemPoolEntry) (newFeeDelta : Int64) : CTxMemPoolEntry :=
  { e with
    nModFeesWithDescendants := e.nModFeesWithDescendants + (newFeeDelta - e.feeDelta)
    nModFeesWithAncestors := e.nModFeesWithAncestors + (newFeeDelta - e.feeDelta)
    feeDelta := newFeeDelta }

/-- The four ancestor totals. -/
def ancestorState (e : CTxMemPoolEntry) : UInt64 × UInt64 × CAmount × UInt32 :=
  (e.nCountWithAncestors, e.nSizeWithAncestors, e.nModFeesWithAncestors, e.nSigOpCountWithAncestors)

/-- Whether the entry passes the asserts of `UpdateDescendantState` for a
change of nothing: dirty, or a positive size and count with descendants. -/
def descendantsPositive (e : CTxMemPoolEntry) : Prop :=
  e.IsDirty = true ∨ (0 < e.nSizeWithDescendants.toInt64 ∧ 0 < e.nCountWithDescendants.toInt64)

/-- A successful `UpdateDescendantState` changes neither the transaction, nor
the ancestor totals, nor the modified fee. -/
theorem UpdateDescendantState_frame {e e' : CTxMemPoolEntry} {modifySize : Int64}
    {modifyFee : CAmount} {modifyCount : Int64}
    (h : e.UpdateDescendantState modifySize modifyFee modifyCount = some e') :
    (e'.tx, e'.ancestorState, e'.GetModifiedFee) = (e.tx, e.ancestorState, e.GetModifiedFee) := by
  unfold UpdateDescendantState at h
  dsimp only at h
  split_ifs at h <;> cases h <;> rfl

/-- A change of size and count zero passes the asserts of an entry that
passed them before, and the entry passes them after. -/
theorem UpdateDescendantState_zero {e : CTxMemPoolEntry} (modifyFee : CAmount)
    (he : e.descendantsPositive) :
    ∃ e', e.UpdateDescendantState 0 modifyFee 0 = some e' ∧ e'.descendantsPositive := by
  unfold UpdateDescendantState
  by_cases hDirty : e.IsDirty = true
  · exact ⟨e, by rw [if_pos hDirty], he⟩
  · obtain ⟨hSize, hCount⟩ := he.resolve_left hDirty
    have hZero : (0 : Int64).toUInt64 = 0 := rfl
    refine ⟨{ e with nModFeesWithDescendants := e.nModFeesWithDescendants + modifyFee }, ?_,
      Or.inr ⟨hSize, hCount⟩⟩
    simp only [if_neg hDirty, hZero, UInt64.add_zero, if_neg (Int64.not_le.mpr hSize),
      if_neg (Int64.not_le.mpr hCount)]

@[simp] theorem tx_UpdateFeeDelta (e : CTxMemPoolEntry) (newFeeDelta : Int64) :
    (e.UpdateFeeDelta newFeeDelta).tx = e.tx := rfl

/-- `UpdateFeeDelta` moves no size or count with descendants. -/
theorem descendantsPositive_UpdateFeeDelta {e : CTxMemPoolEntry} (newFeeDelta : Int64)
    (he : e.descendantsPositive) : (e.UpdateFeeDelta newFeeDelta).descendantsPositive := he

end CTxMemPoolEntry

/-! ## The pool -/

/-- `CTxMemPool::TxLinks`: the in-mempool parents and children of an entry. -/
structure TxLinks where
  parents : List uint256
  children : List uint256
  deriving DecidableEq, Repr

/-- The parts of `CTxMemPool` the package state reads: `mapTx` by hash,
`mapLinks`, `mapNextTx` (an outpoint to the hash and input index of its
spender), the fee deltas of `mapDeltas`, and `totalTxSize`. -/
structure CTxMemPool where
  mapTx : SortedMap uint256 CTxMemPoolEntry
  mapLinks : SortedMap uint256 TxLinks
  mapNextTx : SortedMap COutPoint (uint256 × UInt32)
  mapDeltas : SortedMap uint256 CAmount
  totalTxSize : UInt64

/-- An empty pool. -/
def CTxMemPool.empty : CTxMemPool := ⟨SortedMap.empty, SortedMap.empty, SortedMap.empty, SortedMap.empty, 0⟩

/-- `mapTx.modify(it, f)`, with an update `f` that may fail an assert. -/
def modifyEntry (pool : CTxMemPool) (hash : uint256) (f : CTxMemPoolEntry → Option CTxMemPoolEntry) :
    Option CTxMemPool :=
  match pool.mapTx.find? hash with
  | none => some pool
  | some e => (f e).map fun e' => { pool with mapTx := pool.mapTx.insert hash e' }

/-- Set insertion into a list without repeats. -/
def insertId (ids : List uint256) (id : uint256) : List uint256 :=
  if ids.contains id then ids else ids ++ [id]

/-- `UpdateParent(entry, parent, true)`: `mapLinks[entry].parents.insert(parent)`. -/
def UpdateParent (pool : CTxMemPool) (entry parent : uint256) : CTxMemPool :=
  let links := pool.mapLinks.findD entry ⟨[], []⟩
  { pool with mapLinks := pool.mapLinks.insert entry { links with parents := insertId links.parents parent } }

/-- `UpdateChild(entry, child, true)`: `mapLinks[entry].children.insert(child)`. -/
def UpdateChild (pool : CTxMemPool) (entry child : uint256) : CTxMemPool :=
  let links := pool.mapLinks.findD entry ⟨[], []⟩
  { pool with mapLinks := pool.mapLinks.insert entry { links with children := insertId links.children child } }

/-- `GetMemPoolParents`. -/
def GetMemPoolParents (pool : CTxMemPool) (hash : uint256) : List uint256 :=
  ((pool.mapLinks.find? hash).map TxLinks.parents).getD []

/-- The loop of `CalculateMemPoolAncestors` over a parent relation: take a
staged entry into `setAncestors` and stage its parents not met yet. Each
entry is staged at most once, so `fuel` entries of the pool suffice. The
code takes the staged entry of least hash; the set it ends with does not
depend on the order. -/
def ancestorWalk (parents : uint256 → List uint256) :
    Nat → List uint256 → List uint256 → List uint256
  | 0, _, setAncestors => setAncestors
  | _, [], setAncestors => setAncestors
  | fuel + 1, stage :: parentHashes, setAncestors =>
    let setAncestors := setAncestors ++ [stage]
    let parentHashes := (parents stage).foldl
      (fun staged p => if setAncestors.contains p then staged else insertId staged p) parentHashes
    ancestorWalk parents fuel parentHashes setAncestors

/-- The in-mempool transactions `tx` spends, without repeats. -/
def spentInPool (pool : CTxMemPool) (tx : CTransaction) : List uint256 :=
  (tx.vin.map fun txin => txin.prevout.hash).foldl
    (fun parents hash => if pool.mapTx.contains hash then insertId parents hash else parents) []

/-- `CalculateMemPoolAncestors` without limits: the first parents searched in
`mapTx` through the inputs, or read from `mapLinks`. -/
def CalculateMemPoolAncestors (pool : CTxMemPool) (hash : uint256) (tx : CTransaction)
    (fSearchForParents : Bool) : List uint256 :=
  let parentHashes := if fSearchForParents then spentInPool pool tx else GetMemPoolParents pool hash
  ancestorWalk (GetMemPoolParents pool) pool.mapTx.size parentHashes []

/-- `UpdateAncestorsOf(true, it, setAncestors)`: the entry becomes a child of
each of its parents, and joins the descendant totals of each ancestor. -/
def UpdateAncestorsOf (pool : CTxMemPool) (hash : uint256) (setAncestors : List uint256) :
    Option CTxMemPool :=
  let pool := (GetMemPoolParents pool hash).foldl (fun pool parent => UpdateChild pool parent hash) pool
  match pool.mapTx.find? hash with
  | none => some pool
  | some e =>
    setAncestors.foldlM (fun pool a =>
      modifyEntry pool a (·.UpdateDescendantState e.nTxSize.toInt64 e.GetModifiedFee 1)) pool

/-- `UpdateEntryForAncestors`: the entry's ancestor totals take in each
ancestor's. -/
def UpdateEntryForAncestors (pool : CTxMemPool) (hash : uint256) (setAncestors : List uint256) :
    Option CTxMemPool :=
  let ancestors := setAncestors.filterMap pool.mapTx.find?
  let updateSize := (ancestors.map fun a => a.nTxSize.toInt64).sum
  let updateFee := (ancestors.map CTxMemPoolEntry.GetModifiedFee).sum
  let updateSigOps := (ancestors.map fun a => a.sigOpCount.toInt32).sum
  modifyEntry pool hash
    (·.UpdateAncestorState updateSize updateFee (UInt64.ofNat setAncestors.length).toInt64 updateSigOps)

/-- `addUnchecked(hash, entry, setAncestors)`: an entry already in `mapTx`
is kept; a fee delta set by `PrioritiseTransaction` is applied; each input
is recorded in `mapNextTx`; the entry is linked to its in-mempool parents and
its package totals are brought up to date. -/
def addUnchecked (pool : CTxMemPool) (hash : uint256) (entry : CTxMemPoolEntry)
    (setAncestors : List uint256) : Option CTxMemPool := do
  let pool := { pool with
    mapTx := pool.mapTx.insertNew hash entry
    mapLinks := pool.mapLinks.insertNew hash ⟨[], []⟩ }
  let delta := pool.mapDeltas.find? hash
  let pool ← match delta with
    | some feeDelta =>
      if feeDelta != 0 then modifyEntry pool hash fun e => some (e.UpdateFeeDelta feeDelta)
      else some pool
    | none => some pool
  let pool := ((List.range entry.tx.vin.length).zip entry.tx.vin).foldl
    (fun pool input => { pool with
      mapNextTx := pool.mapNextTx.insert input.2.prevout (hash, UInt32.ofNat input.1) }) pool
  let setParentTransactions := (entry.tx.vin.map fun txin => txin.prevout.hash).foldl insertId []
  let pool := setParentTransactions.foldl
    (fun pool phash => if pool.mapTx.contains phash then UpdateParent pool hash phash else pool) pool
  let pool ← UpdateAncestorsOf pool hash setAncestors
  let pool ← UpdateEntryForAncestors pool hash setAncestors
  return { pool with totalTxSize := pool.totalTxSize + entry.nTxSize }

/-- The ancestor loop of `PrioritiseTransaction`: each ancestor's
descendant fees move by `nFeeDelta`. -/
def updateAncestorFees (nFeeDelta : CAmount) (setAncestors : List uint256) (pool : CTxMemPool) :
    Option CTxMemPool :=
  setAncestors.foldlM (fun pool a => modifyEntry pool a (·.UpdateDescendantState 0 nFeeDelta 0)) pool

/-- `PrioritiseTransaction(hash, nFeeDelta)` (the priority delta aside): the
delta is added to `mapDeltas`; an entry in `mapTx` takes the new delta, and
its ancestors' descendant fees move by `nFeeDelta`. -/
def PrioritiseTransaction (pool : CTxMemPool) (hash : uint256) (nFeeDelta : CAmount) :
    Option CTxMemPool :=
  let deltas := pool.mapDeltas.findD hash 0 + nFeeDelta
  let pool := { pool with mapDeltas := pool.mapDeltas.insert hash deltas }
  match pool.mapTx.find? hash with
  | none => some pool
  | some e => do
    let pool ← modifyEntry pool hash fun e => some (e.UpdateFeeDelta deltas)
    updateAncestorFees nFeeDelta (CalculateMemPoolAncestors pool hash e.tx false) pool

/-! ## The ancestor totals, as specified -/

/-- The in-mempool ancestors of `tx` by the spending relation of `mapTx`. -/
def inPoolAncestors (pool : CTxMemPool) (tx : CTransaction) : List uint256 :=
  ancestorWalk (fun h => ((pool.mapTx.find? h).map fun e => spentInPool pool e.tx).getD [])
    pool.mapTx.size (spentInPool pool tx) []

/-- The four ancestor totals of an entry as the sums over itself and its
in-mempool ancestors. -/
def ancestorSums (pool : CTxMemPool) (e : CTxMemPoolEntry) : UInt64 × UInt64 × CAmount × UInt32 :=
  let ancestors := (inPoolAncestors pool e.tx).filterMap pool.mapTx.find?
  (1 + UInt64.ofNat ancestors.length, e.nTxSize + (ancestors.map CTxMemPoolEntry.nTxSize).sum,
    e.GetModifiedFee + (ancestors.map CTxMemPoolEntry.GetModifiedFee).sum,
    e.sigOpCount + (ancestors.map CTxMemPoolEntry.sigOpCount).sum)

/-- Every entry's ancestor totals are the sums over its package. -/
def ancestorStateOK (pool : CTxMemPool) : Bool :=
  pool.mapTx.entries.all fun entry => entry.2.ancestorState == ancestorSums pool entry.2

/-! ## What `PrioritiseTransaction` changes -/

section Prioritise

variable {pool pool' : CTxMemPool} {hash : uint256}

/-- A successful `modifyEntry`: the hash was not in `mapTx`, or its entry was
updated and written back. -/
theorem modifyEntry_eq_some {f : CTxMemPoolEntry → Option CTxMemPoolEntry}
    (h : modifyEntry pool hash f = some pool') :
    (pool.mapTx.find? hash = none ∧ pool' = pool) ∨
      ∃ e e', pool.mapTx.find? hash = some e ∧ f e = some e' ∧
        pool' = { pool with mapTx := pool.mapTx.insert hash e' } := by
  unfold modifyEntry at h
  cases hFind : pool.mapTx.find? hash with
  | none =>
    rw [hFind] at h
    exact .inl ⟨rfl, (Option.some.inj h).symm⟩
  | some e =>
    rw [hFind, Option.map_eq_some_iff] at h
    obtain ⟨e', hf, rfl⟩ := h
    exact .inr ⟨e, e', rfl, hf, rfl⟩

/-- A successful `modifyEntry` whose update keeps a view `P` of an entry
keeps `P` of every entry. -/
theorem find?_modifyEntry_of_frame {β : Type} {f : CTxMemPoolEntry → Option CTxMemPoolEntry}
    {P : CTxMemPoolEntry → β} (hf : ∀ e e', f e = some e' → P e' = P e)
    (h : modifyEntry pool hash f = some pool') (k : uint256) :
    (pool'.mapTx.find? k).map P = (pool.mapTx.find? k).map P := by
  rcases modifyEntry_eq_some h with ⟨-, rfl⟩ | ⟨e, e', hFind, hUpdate, rfl⟩
  · rfl
  · rw [SortedMap.find?_insert]
    split_ifs with hk
    · rw [hk, hFind, Option.map_some, Option.map_some, hf e e' hUpdate]
    · rfl

/-- One round of the ancestor loop: the first ancestor's update, then the
rest on the pool it leaves. -/
theorem updateAncestorFees_cons (nFeeDelta : CAmount) (a : uint256) (rest : List uint256)
    (pool : CTxMemPool) :
    updateAncestorFees nFeeDelta (a :: rest) pool =
      (modifyEntry pool a (·.UpdateDescendantState 0 nFeeDelta 0)).bind
        (updateAncestorFees nFeeDelta rest) := by
  simp only [updateAncestorFees, List.foldlM_cons]
  rfl

/-- The ancestor loop changes neither a transaction, nor an ancestor total,
nor a modified fee. -/
theorem find?_updateAncestorFees (nFeeDelta : CAmount) :
    ∀ {setAncestors : List uint256} {pool pool' : CTxMemPool},
      updateAncestorFees nFeeDelta setAncestors pool = some pool' → ∀ k,
      (pool'.mapTx.find? k).map (fun e => (e.tx, e.ancestorState, e.GetModifiedFee)) =
        (pool.mapTx.find? k).map fun e => (e.tx, e.ancestorState, e.GetModifiedFee)
  | [], _, _, h, _ => by cases h; rfl
  | a :: rest, pool, pool', h, k => by
    rw [updateAncestorFees_cons, Option.bind_eq_some_iff] at h
    obtain ⟨pool₁, h₁, hRest⟩ := h
    rw [find?_updateAncestorFees nFeeDelta hRest k]
    exact find?_modifyEntry_of_frame (fun _ _ => CTxMemPoolEntry.UpdateDescendantState_frame) h₁ k

/-- The entry prioritised, and every other one: transaction, ancestor totals
and modified fee after a successful `PrioritiseTransaction`. -/
theorem PrioritiseTransaction_find? {nFeeDelta : CAmount}
    (h : PrioritiseTransaction pool hash nFeeDelta = some pool') (k : uint256) :
    (pool'.mapTx.find? k).map (fun e => (e.tx, e.ancestorState, e.GetModifiedFee)) =
      if k = hash then
        (pool.mapTx.find? k).map fun e =>
          ((e.UpdateFeeDelta (pool.mapDeltas.findD hash 0 + nFeeDelta)).tx,
            (e.UpdateFeeDelta (pool.mapDeltas.findD hash 0 + nFeeDelta)).ancestorState,
            (e.UpdateFeeDelta (pool.mapDeltas.findD hash 0 + nFeeDelta)).GetModifiedFee)
      else (pool.mapTx.find? k).map fun e => (e.tx, e.ancestorState, e.GetModifiedFee) := by
  unfold PrioritiseTransaction at h
  dsimp only at h
  cases hFind : pool.mapTx.find? hash with
  | none =>
    rw [hFind] at h
    cases h
    split_ifs with hk
    · rw [hk, hFind]
      rfl
    · rfl
  | some e =>
    rw [hFind] at h
    simp only [bind, Option.bind_eq_some_iff] at h
    obtain ⟨pool₁, h₁, hRest⟩ := h
    rw [find?_updateAncestorFees nFeeDelta hRest k]
    rcases modifyEntry_eq_some h₁ with ⟨hNone, -⟩ | ⟨e₀, e', hFind₀, hUpdate, rfl⟩
    · rw [hFind] at hNone
      cases hNone
    · rw [hFind] at hFind₀
      cases hFind₀
      cases hUpdate
      rw [SortedMap.find?_insert]
      split_ifs with hk
      · rw [hk, hFind]
        rfl
      · rfl

/-- `PrioritiseTransaction` changes no transaction of the pool. -/
theorem PrioritiseTransaction_tx {nFeeDelta : CAmount}
    (h : PrioritiseTransaction pool hash nFeeDelta = some pool') (k : uint256) :
    (pool'.mapTx.find? k).map CTxMemPoolEntry.tx = (pool.mapTx.find? k).map CTxMemPoolEntry.tx := by
  have hTx := congrArg (Option.map fun r => r.1) (PrioritiseTransaction_find? h k)
  split_ifs at hTx <;> simpa [Option.map_map, Function.comp_def] using hTx

/-- `PrioritiseTransaction` leaves the ancestor totals of every other entry,
its descendants among them. -/
theorem PrioritiseTransaction_ancestorState_of_ne {nFeeDelta : CAmount} {k : uint256}
    (h : PrioritiseTransaction pool hash nFeeDelta = some pool') (hNe : k ≠ hash) :
    (pool'.mapTx.find? k).map CTxMemPoolEntry.ancestorState =
      (pool.mapTx.find? k).map CTxMemPoolEntry.ancestorState := by
  have hAll := PrioritiseTransaction_find? h k
  rw [if_neg hNe] at hAll
  have hState := congrArg (Option.map fun r => r.2.1) hAll
  simpa [Option.map_map, Function.comp_def] using hState

/-- The prioritised entry's modified fee is its fee plus the accumulated
delta. -/
theorem PrioritiseTransaction_modifiedFee {nFeeDelta : CAmount}
    (h : PrioritiseTransaction pool hash nFeeDelta = some pool') :
    (pool'.mapTx.find? hash).map CTxMemPoolEntry.GetModifiedFee =
      (pool.mapTx.find? hash).map fun e => e.nFee + (pool.mapDeltas.findD hash 0 + nFeeDelta) := by
  have hAll := PrioritiseTransaction_find? h hash
  rw [if_pos rfl] at hAll
  have hFee := congrArg (Option.map fun r => r.2.2) hAll
  have hModified : CTxMemPoolEntry.GetModifiedFee = fun e => e.nFee + e.feeDelta := rfl
  rw [hModified]
  simpa [Option.map_map, Function.comp_def, CTxMemPoolEntry.UpdateFeeDelta,
    CTxMemPoolEntry.GetModifiedFee] using hFee

/-! ### The asserts hold on a pool of positive packages -/

/-- Every entry of `mapTx` passes the asserts of `UpdateDescendantState` for
a change of nothing. -/
def CTxMemPool.descendantsPositive (pool : CTxMemPool) : Prop :=
  ∀ k e, pool.mapTx.find? k = some e → e.descendantsPositive

/-- An update that keeps an entry positive, applied by `modifyEntry` to a
positive pool, succeeds and leaves a positive pool. -/
theorem modifyEntry_positive (hash : uint256) {f : CTxMemPoolEntry → Option CTxMemPoolEntry}
    (hf : ∀ e, e.descendantsPositive → ∃ e', f e = some e' ∧ e'.descendantsPositive)
    (hp : pool.descendantsPositive) :
    ∃ pool', modifyEntry pool hash f = some pool' ∧ pool'.descendantsPositive := by
  unfold modifyEntry
  cases hFind : pool.mapTx.find? hash with
  | none => exact ⟨pool, rfl, hp⟩
  | some e =>
    obtain ⟨e', hUpdate, he'⟩ := hf e (hp hash e hFind)
    refine ⟨{ pool with mapTx := pool.mapTx.insert hash e' }, by simp only [hUpdate, Option.map_some],
      fun k e₁ hk => ?_⟩
    rw [SortedMap.find?_insert] at hk
    split_ifs at hk
    · cases hk
      exact he'
    · exact hp k e₁ hk

/-- The ancestor loop on a positive pool passes its asserts and leaves the
pool positive. -/
theorem updateAncestorFees_positive (nFeeDelta : CAmount) :
    ∀ (setAncestors : List uint256) {pool : CTxMemPool}, pool.descendantsPositive →
      ∃ pool', updateAncestorFees nFeeDelta setAncestors pool = some pool' ∧ pool'.descendantsPositive
  | [], pool, hp => ⟨pool, rfl, hp⟩
  | a :: rest, pool, hp => by
    obtain ⟨pool₁, h₁, hp₁⟩ := modifyEntry_positive a
      (fun e he => CTxMemPoolEntry.UpdateDescendantState_zero nFeeDelta he) hp
    obtain ⟨pool', hRest, hp'⟩ := updateAncestorFees_positive nFeeDelta rest hp₁
    refine ⟨pool', ?_, hp'⟩
    rw [updateAncestorFees_cons, h₁, Option.bind_some]
    exact hRest

/-- On a pool whose clean entries have a positive package size and count,
`PrioritiseTransaction` passes every assert. -/
theorem PrioritiseTransaction_isSome (nFeeDelta : CAmount) (hp : pool.descendantsPositive) :
    (PrioritiseTransaction pool hash nFeeDelta).isSome = true := by
  unfold PrioritiseTransaction
  dsimp only
  have hp₀ : CTxMemPool.descendantsPositive
      { pool with mapDeltas := pool.mapDeltas.insert hash (pool.mapDeltas.findD hash 0 + nFeeDelta) } :=
    hp
  cases hFind : pool.mapTx.find? hash with
  | none => rfl
  | some e =>
    obtain ⟨pool₁, h₁, hp₁⟩ := modifyEntry_positive hash
      (fun e he => ⟨_, rfl, CTxMemPoolEntry.descendantsPositive_UpdateFeeDelta _ he⟩) hp₀
    obtain ⟨pool', hRest, -⟩ := updateAncestorFees_positive nFeeDelta
      (CalculateMemPoolAncestors pool₁ hash e.tx false) hp₁
    refine Option.isSome_iff_exists.mpr ⟨pool', ?_⟩
    simp only [bind, Option.bind_eq_some_iff]
    exact ⟨pool₁, h₁, hRest⟩

end Prioritise

/-! ## A parent prioritised after its child arrived -/

/-- A transaction spending output `n` of `hash`, with one output. -/
def spendingTx (hash : uint256) (n : UInt32) : CTransaction :=
  ⟨1, [⟨⟨hash, n⟩, [], UInt32.ofNat (2 ^ 32 - 1)⟩], [⟨1000, []⟩], 0⟩

/-- The parent, hash 1, spending a confirmed output; fee 200. -/
def parentEntry : CTxMemPoolEntry := CTxMemPoolEntry.create (spendingTx 100 0) 200 100 1

/-- The child, hash 2, spending the parent; fee 300. -/
def childEntry : CTxMemPoolEntry := CTxMemPoolEntry.create (spendingTx 1 0) 300 150 2

/-- The pool after the parent and then the child are accepted, each with
the ancestors `CalculateMemPoolAncestors` finds for it. -/
def parentChildPool : Option CTxMemPool := do
  let pool ← addUnchecked CTxMemPool.empty 1 parentEntry
    (CalculateMemPoolAncestors CTxMemPool.empty 1 parentEntry.tx true)
  addUnchecked pool 2 childEntry (CalculateMemPoolAncestors pool 2 childEntry.tx true)

/-- `parentChildPool` after `PrioritiseTransaction(parent, 10)`. -/
def prioritisedPool : Option CTxMemPool := parentChildPool >>= (PrioritiseTransaction · 1 10)

/-- Both entries are added and the parent is prioritised without a failed
assert. The ancestor totals are right after both entries are added. Once the
parent is prioritised by 10, its modified fee is 210, but the child's
modified fee with ancestors stays 500 where its package sums to 510. -/
theorem prioritiseTransaction_stale_ancestor_fees :
    parentChildPool.map ancestorStateOK = some true ∧ prioritisedPool.map ancestorStateOK = some false ∧
      (prioritisedPool.bind (·.mapTx.find? 1)).map CTxMemPoolEntry.GetModifiedFee = some 210 ∧
      (prioritisedPool.bind (·.mapTx.find? 2)).map CTxMemPoolEntry.nModFeesWithAncestors = some 500 ∧
      prioritisedPool.bind (fun pool => (pool.mapTx.find? 2).map fun e => (ancestorSums pool e).2.2.1) =
        some 510 := by
  decide +kernel

end FairCoin.Ports.TxMemPool
