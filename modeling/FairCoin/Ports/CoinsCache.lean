import FairCoin.Ports.Coins

/-!
# The coins cache: `CCoinsViewCache` layers over the coins database

A `CCoinsViewCache` holds entries for some transaction ids and reads the
others from the view under it: another cache, or under the last one the
database (`CCoinsViewDB`). `coins_cache_simulation_test` keeps a stack of up
to four caches and modifies, reads, uncaches and flushes at random.

Each entry carries two flags, `DIRTY` (it may differ from the parent's
version) and `FRESH` (the parent has no unspent version), and
`cachedCoinsUsage` tracks the memory of the entries. On a miss a cache takes
the parent's coins (`FetchCoins`); it hands an entry to a modification
(`ModifyCoins`, `ModifyNewCoins`) and, when the modifier is destroyed,
erases it if it is FRESH and pruned; it drops an entry with no flag set
(`Uncache`); and it writes its entries into the parent (`Flush`, through the
parent's `BatchWrite` with its four cases).

Every cache keeps, for each of its entries, `EntryInv` against the coins the
caches under it show for the id, and `cachedCoinsUsage` equal to the usage
of its entries (`CacheInv`). From that, every operation leaves the unspent
coins shown through each cache as they were, except at a modified id, which
shows what the modification made.

The flags do not tell pruned coins from missing ones: a FRESH entry that a
modification prunes is erased, and `BatchWrite` drops or erases the like,
while a pruned entry that is not FRESH stays with its metadata. So the
entry a later modification is handed depends on the flags when the id has no
unspent coins, and only a modification that treats all pruned coins alike
(`PrunedAlike`) is determined by the unspent coins.

## Main results

* `FetchCoins_fst`, `visible_FetchCoins` — a read returns the coins the
  caches show and changes what any cache shows for no id.
* `CCoinsViewCache.BatchWrite_spec`, `Flush_spec` — writing a cache into
  its parent keeps the invariant and the unspent coins shown through it.
* `ModifyCoins_spec`, `ModifyNewCoins_spec` — a modification keeps the
  invariant and shows, at its id, the unspent coins it made.
* `CacheOp.apply_spec`, `CoinsStack.run_spec` — one operation, and a run,
  keep the invariant and the agreement of the unspent coins with the single
  view of `FairCoin.Ports.Coins` changed by the same modifications.
-/

namespace FairCoin.Ports.CoinsCache

open FairCoin.Verified FairCoin.Ports.Primitives
open FairCoin.Ports.Coins hiding CCoinsViewCache

/-! ## Memory usage -/

/-- `memusage::MallocUsage` on a 64-bit platform: what `malloc` takes for
`alloc` bytes. -/
def MallocUsage (alloc : Nat) : Nat := if alloc = 0 then 0 else (alloc + 31) / 16 * 16

/-- `RecursiveDynamicUsage` of a script: `prevector<28, unsigned char>` keeps
up to 28 bytes inline and allocates beyond. -/
def RecursiveDynamicUsage (script : CScript) : Nat :=
  if script.length ≤ 28 then 0 else MallocUsage script.length

/-- `CCoins::DynamicMemoryUsage`, a vector's capacity taken as its size: the
array of 40-byte `CTxOut`s and the heap bytes of their scripts. -/
def DynamicMemoryUsage (coins : CCoins) : Nat :=
  MallocUsage (coins.vout.length * 40) +
    (coins.vout.map fun out => RecursiveDynamicUsage out.scriptPubKey).sum

theorem DynamicMemoryUsage_of_vout_eq_nil {coins : CCoins} (h : coins.vout = []) :
    DynamicMemoryUsage coins = 0 := by
  simp [DynamicMemoryUsage, MallocUsage, h]

/-! ## Unspent coins -/

/-- The unspent coins an answer shows: missing coins and pruned ones are both
`none`. -/
def unspent (found : Option CCoins) : Option CCoins := found.filter fun coins => !coins.isPruned

@[simp] theorem unspent_none : unspent none = none := rfl

theorem unspent_some_of_isPruned {coins : CCoins} (h : coins.isPruned = true) :
    unspent (some coins) = none := by
  simp [unspent, h]

theorem unspent_some_of_not_isPruned {coins : CCoins} (h : coins.isPruned = false) :
    unspent (some coins) = some coins := by
  simp [unspent, h]

theorem unspent_eq_none_of_forall {found : Option CCoins}
    (h : ∀ coins, found = some coins → coins.isPruned = true) : unspent found = none := by
  cases found with
  | none => rfl
  | some coins => exact unspent_some_of_isPruned (h coins rfl)

/-! ## Caches and the database -/

/-- `CCoinsCacheEntry`: the coins, and the two bits of `flags`. -/
structure CCoinsCacheEntry where
  coins : CCoins
  /-- `DIRTY`: the entry may differ from the parent's version. -/
  dirty : Bool
  /-- `FRESH`: the parent has no unspent version of it. -/
  fresh : Bool
  deriving DecidableEq, Repr

/-- `CCoinsMap`. -/
abbrev CCoinsMap := SortedMap uint256 CCoinsCacheEntry

/-- `CCoinsViewCache`: its entries and `cachedCoinsUsage`. Which view is its
`base` is given by its place in a stack. -/
structure CCoinsViewCache where
  cacheCoins : CCoinsMap
  cachedCoinsUsage : Nat

/-- `CCoinsViewDB`: the coins on disk. -/
structure CCoinsViewDB where
  coins : SortedMap uint256 CCoins

namespace CCoinsViewDB

/-- `CCoinsViewDB::GetCoins`. -/
def GetCoins (view : CCoinsViewDB) (txid : uint256) : Option CCoins := view.coins.find? txid

/-- One pass of the loop of `CCoinsViewDB::BatchWrite`: a DIRTY entry is
erased when pruned and written otherwise. -/
def batchWriteEntry (view : CCoinsViewDB) (txid : uint256) (entry : CCoinsCacheEntry) :
    CCoinsViewDB :=
  if entry.dirty then
    if entry.coins.isPruned then ⟨view.coins.erase txid⟩ else ⟨view.coins.insert txid entry.coins⟩
  else view

/-- `CCoinsViewDB::BatchWrite`. -/
def BatchWrite (view : CCoinsViewDB) (mapCoins : CCoinsMap) : CCoinsViewDB :=
  mapCoins.entries.foldl (fun view e => view.batchWriteEntry e.1 e.2) view

end CCoinsViewDB

namespace CCoinsViewCache

/-- A cache with no entries, as it is built and as `Flush` leaves it. -/
def empty : CCoinsViewCache := ⟨SortedMap.empty, 0⟩

/-- The usage of the entries, which `cachedCoinsUsage` is to equal. -/
def entriesUsage (cache : CCoinsViewCache) : Nat :=
  cache.cacheCoins.sumBy fun entry => DynamicMemoryUsage entry.coins

/-- The usage counted for the entry of `txid`, 0 without one. -/
def usageOf (cache : CCoinsViewCache) (txid : uint256) : Nat :=
  ((cache.cacheCoins.find? txid).map fun entry => DynamicMemoryUsage entry.coins).getD 0

/-- The fill of `FetchCoins` when the parent has `coins` for `txid`: a new
entry, FRESH when the coins are pruned, with its usage counted. -/
def fetched (cache : CCoinsViewCache) (txid : uint256) (coins : CCoins) : CCoinsViewCache :=
  ⟨cache.cacheCoins.insert txid ⟨coins, false, coins.isPruned⟩,
    cache.cachedCoinsUsage + DynamicMemoryUsage coins⟩

/-- `~CCoinsModifier` for `entry` at `txid` once `modify` changed its coins:
they are cleaned up, the usage `cachedCoinUsage` recorded by `ModifyCoins`
comes off, and the entry is erased if FRESH and pruned, stored with its new
usage otherwise. -/
def modified (cache : CCoinsViewCache) (txid : uint256) (entry : CCoinsCacheEntry)
    (cachedCoinUsage : Nat) (modify : CCoins → CCoins) : CCoinsViewCache :=
  let coins := (modify entry.coins).cleanup
  let usage := cache.cachedCoinsUsage - cachedCoinUsage
  if entry.fresh && coins.isPruned then ⟨cache.cacheCoins.erase txid, usage⟩
  else ⟨cache.cacheCoins.insert txid { entry with coins }, usage + DynamicMemoryUsage coins⟩

/-- `ModifyNewCoins(txid)`, `modify` applied, and the modifier destroyed: the
entry is cleared and made FRESH and DIRTY whether it was there or not, and
no usage is recorded for it. -/
def ModifyNewCoins (cache : CCoinsViewCache) (txid : uint256) (modify : CCoins → CCoins) :
    CCoinsViewCache :=
  cache.modified txid ⟨CCoins.clear, true, true⟩ 0 modify

/-- `Uncache(hash)`: an entry with no flag set is dropped with its usage. -/
def Uncache (cache : CCoinsViewCache) (hash : uint256) : CCoinsViewCache :=
  match cache.cacheCoins.find? hash with
  | some entry =>
    if !entry.dirty && !entry.fresh then
      ⟨cache.cacheCoins.erase hash, cache.cachedCoinsUsage - DynamicMemoryUsage entry.coins⟩
    else cache
  | none => cache

/-- One pass of the loop of `CCoinsViewCache::BatchWrite`: the child's entry
`child` for `txid` written into this cache. -/
def batchWriteEntry (cache : CCoinsViewCache) (txid : uint256) (child : CCoinsCacheEntry) :
    CCoinsViewCache :=
  if child.dirty then
    match cache.cacheCoins.find? txid with
    | none =>
      -- a FRESH pruned entry has nothing to tell a parent that lacks it
      if child.fresh && child.coins.isPruned then cache
      else
        ⟨cache.cacheCoins.insert txid ⟨child.coins, true, child.fresh⟩,
          cache.cachedCoinsUsage + DynamicMemoryUsage child.coins⟩
    | some ours =>
      if ours.fresh && child.coins.isPruned then
        ⟨cache.cacheCoins.erase txid, cache.cachedCoinsUsage - DynamicMemoryUsage ours.coins⟩
      else
        ⟨cache.cacheCoins.insert txid ⟨child.coins, true, ours.fresh⟩,
          cache.cachedCoinsUsage - DynamicMemoryUsage ours.coins + DynamicMemoryUsage child.coins⟩
  else cache

/-- `CCoinsViewCache::BatchWrite`: the child's map written in entry by entry. -/
def BatchWrite (cache : CCoinsViewCache) (mapCoins : CCoinsMap) : CCoinsViewCache :=
  mapCoins.entries.foldl (fun cache e => cache.batchWriteEntry e.1 e.2) cache

end CCoinsViewCache

/-! ## A stack of caches -/

/-- The coins the caches `caches` (nearest first) show for `txid` over
`base`: the first cache with an entry answers, under the last the
database. -/
def visible (base : CCoinsViewDB) : List CCoinsViewCache → uint256 → Option CCoins
  | [], txid => base.GetCoins txid
  | cache :: lower, txid =>
    match cache.cacheCoins.find? txid with
    | some entry => some entry.coins
    | none => visible base lower txid

/-- `FetchCoins(txid)` on the first of `caches`: the coins found (what
`GetCoins` copies out and `AccessCoins` points to), and the caches once each
`FetchCoins` on the way down has filled its layer. With no cache left it is
`CCoinsViewDB::GetCoins`. -/
def FetchCoins (base : CCoinsViewDB) :
    List CCoinsViewCache → uint256 → Option CCoins × List CCoinsViewCache
  | [], txid => (base.GetCoins txid, [])
  | cache :: lower, txid =>
    match cache.cacheCoins.find? txid with
    | some entry => (some entry.coins, cache :: lower)
    | none =>
      let below := FetchCoins base lower txid
      match below.1 with
      | none => (none, cache :: below.2)
      | some coins => (some coins, cache.fetched txid coins :: below.2)

/-- `HaveCoins(txid)` on the first of `caches`: coins with outputs were
found. -/
def HaveCoins (base : CCoinsViewDB) (caches : List CCoinsViewCache) (txid : uint256) : Bool :=
  ((FetchCoins base caches txid).1.map fun coins => !coins.vout.isEmpty).getD false

/-- `ModifyCoins(txid)` on the first of `caches`, `modify` applied to the
entry it returns, and the modifier destroyed. A cache without the entry reads
it from its parent, FRESH when the parent has none or pruned coins, and
records no usage for it. -/
def ModifyCoins (base : CCoinsViewDB) :
    List CCoinsViewCache → uint256 → (CCoins → CCoins) → List CCoinsViewCache
  | [], _, _ => []
  | cache :: lower, txid, modify =>
    match cache.cacheCoins.find? txid with
    | some entry =>
      cache.modified txid { entry with dirty := true } (DynamicMemoryUsage entry.coins) modify :: lower
    | none =>
      let below := FetchCoins base lower txid
      let entry : CCoinsCacheEntry :=
        match below.1 with
        | none => ⟨CCoins.clear, true, true⟩
        | some coins => ⟨coins, true, coins.isPruned⟩
      cache.modified txid entry 0 modify :: below.2

/-- `Flush` of `cache` over the caches `lower`: its entries are written into
the next cache, or into the database under the last. The result is the
caches under it and the database; the cache itself is left empty. -/
def Flush (base : CCoinsViewDB) (cache : CCoinsViewCache) :
    List CCoinsViewCache → List CCoinsViewCache × CCoinsViewDB
  | [] => ([], base.BatchWrite cache.cacheCoins)
  | parent :: rest => (parent.BatchWrite cache.cacheCoins :: rest, base)

/-- `Flush` of the cache `depth` places down `caches`. -/
def flushAt (base : CCoinsViewDB) :
    List CCoinsViewCache → Nat → List CCoinsViewCache × CCoinsViewDB
  | [], _ => ([], base)
  | cache :: lower, 0 =>
    let flushed := Flush base cache lower
    (CCoinsViewCache.empty :: flushed.1, flushed.2)
  | cache :: lower, depth + 1 =>
    let below := flushAt base lower depth
    (cache :: below.1, below.2)

/-- `Uncache(hash)` on the cache `depth` places down `caches`. -/
def uncacheAt : List CCoinsViewCache → Nat → uint256 → List CCoinsViewCache
  | [], _, _ => []
  | cache :: lower, 0, hash => cache.Uncache hash :: lower
  | cache :: lower, depth + 1, hash => cache :: uncacheAt lower depth hash

/-- The caches of `coins_cache_simulation_test`, nearest first (the test
keeps the nearest last in `stack`), over the database. -/
structure CoinsStack where
  caches : List CCoinsViewCache
  base : CCoinsViewDB

/-- The operations of `coins_cache_simulation_test`. -/
inductive CacheOp where
  /-- `ModifyCoins(txid)` on the top cache, the entry changed by `modify`. -/
  | modifyCoins (txid : uint256) (modify : CCoins → CCoins)
  /-- `ModifyNewCoins(txid)` on the top cache. -/
  | modifyNewCoins (txid : uint256) (modify : CCoins → CCoins)
  /-- `AccessCoins`, `GetCoins` or `HaveCoins` on the top cache: each runs
  `FetchCoins` and changes the caches in no other way. -/
  | accessCoins (txid : uint256)
  /-- `Uncache(txid)` on the cache `depth` places down. -/
  | uncache (depth : Nat) (txid : uint256)
  /-- `Flush` of the cache `depth` places down. -/
  | flush (depth : Nat)
  /-- A new cache on top. -/
  | push
  /-- The top cache flushed and deleted. -/
  | pop

/-- A modification that treats all pruned coins alike: the unspent coins it
leaves depend only on the unspent coins it is given. Writing fixed coins,
clearing and spending outputs are such. -/
def PrunedAlike (modify : CCoins → CCoins) : Prop :=
  ∀ c c', unspent (some c) = unspent (some c') →
    unspent (some (modify c).cleanup) = unspent (some (modify c').cleanup)

namespace CacheOp

/-- One operation on the stack. -/
def apply (s : CoinsStack) : CacheOp → CoinsStack
  | modifyCoins txid modify => { s with caches := ModifyCoins s.base s.caches txid modify }
  | modifyNewCoins txid modify =>
    match s.caches with
    | [] => s
    | cache :: lower => { s with caches := cache.ModifyNewCoins txid modify :: lower }
  | accessCoins txid => { s with caches := (FetchCoins s.base s.caches txid).2 }
  | uncache depth txid => { s with caches := uncacheAt s.caches depth txid }
  | flush depth =>
    let flushed := flushAt s.base s.caches depth
    ⟨flushed.1, flushed.2⟩
  | push => { s with caches := CCoinsViewCache.empty :: s.caches }
  | pop =>
    match s.caches with
    | [] => s
    | cache :: lower =>
      let flushed := Flush s.base cache lower
      ⟨flushed.1, flushed.2⟩

/-- The same operation on the single view of `FairCoin.Ports.Coins`, a total
map in which an id without coins reads as `CCoins()`: the modification is
applied to the view's entry and the result cleaned up, as the modifier's
destructor does. -/
def onView (view : Coins.CCoinsViewCache) : CacheOp → Coins.CCoinsViewCache
  | modifyCoins txid modify => view.setCoins txid (modify (view.coins txid)).cleanup
  | modifyNewCoins txid modify => view.setCoins txid (modify CCoins.clear).cleanup
  | _ => view

/-- `ModifyNewCoins`'s precondition: no cache and not the database holds
unspent coins for `txid`. -/
def noUnspent (s : CoinsStack) (txid : uint256) : Bool :=
  s.caches.all (fun cache => (cache.cacheCoins.find? txid).all fun entry => entry.coins.isPruned) &&
    (s.base.GetCoins txid).all CCoins.isPruned

/-- What an operation needs of the stack: a cache to modify, and for
`ModifyNewCoins` no unspent coins anywhere. -/
def allowed (s : CoinsStack) : CacheOp → Bool
  | modifyCoins _ _ => !s.caches.isEmpty
  | modifyNewCoins txid _ => !s.caches.isEmpty && noUnspent s txid
  | _ => true

/-- The modification of a `ModifyCoins` treats pruned coins alike. -/
def ModifiesPrunedAlike : CacheOp → Prop
  | modifyCoins _ modify => PrunedAlike modify
  | _ => True

end CacheOp

namespace CoinsStack

/-- `n` empty caches over the database. -/
def start (base : CCoinsViewDB) (n : Nat) : CoinsStack :=
  ⟨List.replicate n CCoinsViewCache.empty, base⟩

/-- The stack after `ops`. -/
def run (s : CoinsStack) (ops : List CacheOp) : CoinsStack := ops.foldl CacheOp.apply s

/-- Every operation of `ops` is allowed on the stack it meets. -/
def admissible : CoinsStack → List CacheOp → Bool
  | _, [] => true
  | s, op :: ops => op.allowed s && admissible (op.apply s) ops

end CoinsStack

/-- The single view after `ops`. -/
def runView (view : Coins.CCoinsViewCache) (ops : List CacheOp) : Coins.CCoinsViewCache :=
  ops.foldl CacheOp.onView view

/-- The database as the single view of `FairCoin.Ports.Coins`. -/
def baseView (base : CCoinsViewDB) : Coins.CCoinsViewCache :=
  ⟨fun txid => (base.GetCoins txid).getD CCoins.clear, 0⟩

/-! ## The invariant -/

/-- What an entry keeps true of the coins `parent` the caches under it show
for its id: a FRESH entry's parent shows no unspent coins, an entry that is
not DIRTY shows the parent's unspent coins, and its coins are cleaned up. -/
structure EntryInv (parent : Option CCoins) (entry : CCoinsCacheEntry) : Prop where
  fresh : entry.fresh = true → unspent parent = none
  notDirty : entry.dirty = false → unspent (some entry.coins) = unspent parent
  cleanedUp : entry.coins.cleanup = entry.coins

/-- The invariant of a cache over the view `parent` of the caches under it:
every entry keeps `EntryInv`, and `cachedCoinsUsage` is the usage of the
entries. -/
structure CacheInv (cache : CCoinsViewCache) (parent : uint256 → Option CCoins) : Prop where
  entries : ∀ txid entry, cache.cacheCoins.find? txid = some entry → EntryInv (parent txid) entry
  usage : cache.cachedCoinsUsage = cache.entriesUsage

/-- The database holds cleaned-up coins, as `CCoinsViewDB` reads them back. -/
def DBInv (base : CCoinsViewDB) : Prop := ∀ e ∈ base.coins.entries, e.2.cleanup = e.2

instance instDecidablePredDBInv : DecidablePred DBInv := fun base =>
  inferInstanceAs (Decidable (∀ e ∈ base.coins.entries, e.2.cleanup = e.2))

/-- Every cache keeps `CacheInv` over the caches under it, and the database
`DBInv`. -/
def LayersInv (base : CCoinsViewDB) : List CCoinsViewCache → Prop
  | [] => DBInv base
  | cache :: lower => CacheInv cache (visible base lower) ∧ LayersInv base lower

/-- The stack shows, for every id, the unspent coins of the view. -/
def Agrees (s : CoinsStack) (view : Coins.CCoinsViewCache) : Prop :=
  ∀ txid, unspent (visible s.base s.caches txid) = unspent (some (view.coins txid))

/-! ### Reading through the stack -/

section Visible

variable {base base' : CCoinsViewDB} {cache cache' : CCoinsViewCache}
  {lower lower' : List CCoinsViewCache} {txid : uint256}

theorem visible_cons_of_find? {entry : CCoinsCacheEntry}
    (h : cache.cacheCoins.find? txid = some entry) :
    visible base (cache :: lower) txid = some entry.coins := by
  simp [visible, h]

theorem visible_cons_of_find?_none (h : cache.cacheCoins.find? txid = none) :
    visible base (cache :: lower) txid = visible base lower txid := by
  simp [visible, h]

/-- A cache that holds the same entry for `txid` as another shows the same
coins there. -/
theorem visible_cons_congr (h : cache'.cacheCoins.find? txid = cache.cacheCoins.find? txid) :
    visible base (cache' :: lower) txid = visible base (cache :: lower) txid := by
  simp [visible, h]

@[simp] theorem visible_empty_cons :
    visible base (CCoinsViewCache.empty :: lower) txid = visible base lower txid := rfl

/-- What the caches under a cache show reaches through it where it has no
entry: any reading `g` on which the views under it agree agrees through
it. -/
theorem visible_cons_lower {β : Type} (g : Option CCoins → β)
    (h : ∀ k, g (visible base' lower' k) = g (visible base lower k)) (k : uint256) :
    g (visible base' (cache :: lower') k) = g (visible base (cache :: lower) k) := by
  cases hFind : cache.cacheCoins.find? k with
  | some entry => rw [visible_cons_of_find? hFind, visible_cons_of_find? hFind]
  | none => rw [visible_cons_of_find?_none hFind, visible_cons_of_find?_none hFind, h]

/-- `FetchCoins` returns the coins the caches show. -/
theorem FetchCoins_fst (base : CCoinsViewDB) (caches : List CCoinsViewCache) (txid : uint256) :
    (FetchCoins base caches txid).1 = visible base caches txid := by
  induction caches with
  | nil => rfl
  | cons cache lower ih =>
    cases hFind : cache.cacheCoins.find? txid with
    | some entry => simp [FetchCoins, visible, hFind]
    | none =>
      rw [visible_cons_of_find?_none hFind, ← ih]
      cases hBelow : (FetchCoins base lower txid).1 <;> simp [FetchCoins, hFind, hBelow]

/-- The fill of `FetchCoins` copies the coins the parent shows, so what the
caches show changes for no id. -/
theorem visible_FetchCoins (base : CCoinsViewDB) (caches : List CCoinsViewCache)
    (txid k : uint256) : visible base (FetchCoins base caches txid).2 k = visible base caches k := by
  induction caches generalizing k with
  | nil => rfl
  | cons cache lower ih =>
    cases hFind : cache.cacheCoins.find? txid with
    | some entry => simp [FetchCoins, hFind]
    | none =>
      cases hBelow : (FetchCoins base lower txid).1 with
      | none =>
        simp only [FetchCoins, hFind, hBelow]
        exact visible_cons_lower id ih k
      | some coins =>
        simp only [FetchCoins, hFind, hBelow]
        by_cases hk : k = txid
        · -- the new entry holds what the caches under it show
          subst hk
          rw [FetchCoins_fst] at hBelow
          rw [visible_cons_of_find?_none hFind, hBelow]
          simp [visible, CCoinsViewCache.fetched]
        · have hSame : (cache.fetched txid coins).cacheCoins.find? k = cache.cacheCoins.find? k :=
            SortedMap.find?_insert_of_ne _ _ hk
          rw [visible_cons_congr hSame]
          exact visible_cons_lower id ih k

end Visible

/-! ### The invariant of one cache -/

section CacheInvariant

variable {cache : CCoinsViewCache} {parent parent' : uint256 → Option CCoins} {txid : uint256}

theorem EntryInv.congr {p p' : Option CCoins} {entry : CCoinsCacheEntry} (h : EntryInv p entry)
    (hSame : unspent p' = unspent p) : EntryInv p' entry :=
  ⟨fun hFresh => hSame.trans (h.fresh hFresh), fun hDirty => (h.notDirty hDirty).trans hSame.symm,
    h.cleanedUp⟩

/-- A clean copy of coins the parent shows, as `FetchCoins` makes it. -/
theorem EntryInv.of_fetched {coins : CCoins} (hClean : coins.cleanup = coins) :
    EntryInv (some coins) ⟨coins, false, coins.isPruned⟩ :=
  ⟨fun hPruned => unspent_some_of_isPruned hPruned, fun _ => rfl, hClean⟩

/-- The invariant reads the parent through its unspent coins only. -/
theorem CacheInv.congr (h : CacheInv cache parent)
    (hSame : ∀ txid, unspent (parent' txid) = unspent (parent txid)) : CacheInv cache parent' :=
  ⟨fun txid entry hFind => (h.entries txid entry hFind).congr (hSame txid), h.usage⟩

theorem CacheInv.empty (parent : uint256 → Option CCoins) :
    CacheInv CCoinsViewCache.empty parent :=
  ⟨fun txid entry hFind => by simp [CCoinsViewCache.empty] at hFind, rfl⟩

theorem CacheInv.usageOf_le (h : CacheInv cache parent) (txid : uint256) :
    cache.usageOf txid ≤ cache.cachedCoinsUsage := by
  cases hFind : cache.cacheCoins.find? txid with
  | none => simp [CCoinsViewCache.usageOf, hFind]
  | some entry =>
    simp only [CCoinsViewCache.usageOf, hFind, Option.map_some, Option.getD_some]
    rw [h.usage]
    exact SortedMap.le_sumBy_of_find? hFind fun entry => DynamicMemoryUsage entry.coins

/-- Storing an entry that keeps `EntryInv` keeps the invariant when the
counter moves by the change in usage. -/
theorem CacheInv.insert (h : CacheInv cache parent) {entry : CCoinsCacheEntry} {usage : Nat}
    (hEntry : EntryInv (parent txid) entry)
    (hUsage : usage + cache.usageOf txid = cache.cachedCoinsUsage + DynamicMemoryUsage entry.coins) :
    CacheInv ⟨cache.cacheCoins.insert txid entry, usage⟩ parent := by
  constructor
  · intro k e hFind
    rw [SortedMap.find?_insert] at hFind
    split_ifs at hFind with hk
    · cases hFind
      subst hk
      exact hEntry
    · exact h.entries k e hFind
  · have hSum := cache.cacheCoins.sumBy_insert txid entry fun entry => DynamicMemoryUsage entry.coins
    have hOld := h.usage
    simp only [CCoinsViewCache.entriesUsage, CCoinsViewCache.usageOf] at hSum hOld hUsage ⊢
    omega

/-- Erasing an entry keeps the invariant when the counter drops by its
usage. -/
theorem CacheInv.erase (h : CacheInv cache parent) {usage : Nat}
    (hUsage : usage + cache.usageOf txid = cache.cachedCoinsUsage) :
    CacheInv ⟨cache.cacheCoins.erase txid, usage⟩ parent := by
  constructor
  · intro k e hFind
    rw [SortedMap.find?_erase] at hFind
    split_ifs at hFind
    exact h.entries k e hFind
  · have hSum := cache.cacheCoins.sumBy_erase txid fun entry => DynamicMemoryUsage entry.coins
    have hOld := h.usage
    simp only [CCoinsViewCache.entriesUsage, CCoinsViewCache.usageOf] at hSum hOld hUsage ⊢
    omega

end CacheInvariant

/-! ### The invariant of a stack -/

section Layers

variable {base base' : CCoinsViewDB} {cache : CCoinsViewCache}
  {lower lower' : List CCoinsViewCache}

theorem LayersInv.cleanedUp {caches : List CCoinsViewCache} (h : LayersInv base caches)
    {txid : uint256} {coins : CCoins} (hVis : visible base caches txid = some coins) :
    coins.cleanup = coins := by
  induction caches with
  | nil => exact h (txid, coins) ((base.coins.find?_eq_some_iff txid coins).mp hVis)
  | cons cache lower ih =>
    cases hFind : cache.cacheCoins.find? txid with
    | some entry =>
      rw [visible_cons_of_find? hFind, Option.some.injEq] at hVis
      exact hVis ▸ (h.1.entries txid entry hFind).cleanedUp
    | none =>
      rw [visible_cons_of_find?_none hFind] at hVis
      exact ih h.2 hVis

/-- Every cache's counter is the usage of its entries. -/
theorem LayersInv.usage {caches : List CCoinsViewCache} (h : LayersInv base caches) :
    ∀ cache ∈ caches, cache.cachedCoinsUsage = cache.entriesUsage := by
  induction caches with
  | nil => simp
  | cons cache lower ih =>
    intro c hc
    rcases List.mem_cons.mp hc with rfl | hc
    · exact h.1.usage
    · exact ih h.2 c hc

/-- A change under a cache that keeps the unspent coins shown keeps the
cache's invariant and what it shows. -/
theorem LayersInv.cons_lower (h : CacheInv cache (visible base lower))
    (hLower : LayersInv base' lower')
    (hSame : ∀ k, unspent (visible base' lower' k) = unspent (visible base lower k)) :
    LayersInv base' (cache :: lower') ∧
      ∀ k, unspent (visible base' (cache :: lower') k) = unspent (visible base (cache :: lower) k) :=
  ⟨⟨h.congr hSame, hLower⟩, visible_cons_lower unspent hSame⟩

theorem LayersInv.FetchCoins_snd {caches : List CCoinsViewCache} (h : LayersInv base caches)
    (txid : uint256) : LayersInv base (FetchCoins base caches txid).2 := by
  induction caches with
  | nil => exact h
  | cons cache lower ih =>
    have hSame : ∀ k, unspent (visible base (FetchCoins base lower txid).2 k) =
        unspent (visible base lower k) := fun k => by rw [visible_FetchCoins]
    cases hFind : cache.cacheCoins.find? txid with
    | some entry => simpa [FetchCoins, hFind] using h
    | none =>
      cases hBelow : (FetchCoins base lower txid).1 with
      | none =>
        simp only [FetchCoins, hFind, hBelow]
        exact ⟨h.1.congr hSame, ih h.2⟩
      | some coins =>
        simp only [FetchCoins, hFind, hBelow]
        rw [FetchCoins_fst] at hBelow
        have hEntry : EntryInv (visible base lower txid) ⟨coins, false, coins.isPruned⟩ :=
          hBelow ▸ EntryInv.of_fetched (h.2.cleanedUp hBelow)
        have hUsage : cache.usageOf txid = 0 := by simp [CCoinsViewCache.usageOf, hFind]
        exact ⟨(h.1.insert hEntry (by dsimp only; omega)).congr hSame, ih h.2⟩

theorem LayersInv.replicate_empty (h : DBInv base) (n : Nat) :
    LayersInv base (List.replicate n CCoinsViewCache.empty) := by
  induction n with
  | zero => exact h
  | succ n ih => exact ⟨CacheInv.empty _, ih⟩

/-- `HaveCoins` answers whether the caches show unspent coins: a cleaned-up
entry has outputs exactly when it is not pruned. -/
theorem HaveCoins_eq {caches : List CCoinsViewCache} (h : LayersInv base caches) (txid : uint256) :
    HaveCoins base caches txid = (unspent (visible base caches txid)).isSome := by
  unfold HaveCoins
  rw [FetchCoins_fst]
  cases hVis : visible base caches txid with
  | none => rfl
  | some coins =>
    have hClean := h.cleanedUp hVis
    cases hPruned : coins.isPruned
    · have hOut : coins.vout ≠ [] := fun hNil => by
        rw [isPruned_of_vout_eq_nil hNil] at hPruned
        cases hPruned
      simp [unspent_some_of_not_isPruned hPruned, hOut]
    · simp [unspent_some_of_isPruned hPruned, vout_eq_nil_of_cleanup_eq hClean hPruned]

end Layers

/-! ### Writing a cache into its parent -/

section BatchWrite

variable {base : CCoinsViewDB} {parent : CCoinsViewCache} {rest : List CCoinsViewCache}
  {txid : uint256} {child : CCoinsCacheEntry}

theorem CCoinsViewCache.find?_batchWriteEntry_of_ne {k : uint256} (hk : k ≠ txid) :
    (parent.batchWriteEntry txid child).cacheCoins.find? k = parent.cacheCoins.find? k := by
  unfold CCoinsViewCache.batchWriteEntry
  split
  · split
    · split <;> simp [SortedMap.find?_insert_of_ne _ _ hk]
    · split <;> simp [SortedMap.find?_erase, SortedMap.find?_insert_of_ne _ _ hk, hk]
  · rfl

/-- One entry of the child written into the parent, in each of the four
cases of `BatchWrite`: the parent keeps its invariant and shows the child's
unspent coins. -/
theorem CCoinsViewCache.batchWriteEntry_spec (h : CacheInv parent (visible base rest))
    (hChild : EntryInv (visible base (parent :: rest) txid) child) :
    CacheInv (parent.batchWriteEntry txid child) (visible base rest) ∧
      unspent (visible base (parent.batchWriteEntry txid child :: rest) txid) =
        unspent (some child.coins) := by
  have hLe := h.usageOf_le txid
  unfold CCoinsViewCache.batchWriteEntry
  cases hDirty : child.dirty
  · -- not DIRTY: the parent already shows the child's coins
    exact ⟨h, (hChild.notDirty hDirty).symm⟩
  · simp only [if_true]
    cases hOurs : parent.cacheCoins.find? txid with
    | none =>
      have hUsage : parent.usageOf txid = 0 := by simp [CCoinsViewCache.usageOf, hOurs]
      rw [visible_cons_of_find?_none hOurs] at hChild
      simp only
      split_ifs with hDrop
      · -- FRESH and pruned: the parent shows no unspent coins either
        simp only [Bool.and_eq_true] at hDrop
        rw [unspent_some_of_isPruned hDrop.2, visible_cons_of_find?_none hOurs]
        exact ⟨h, hChild.fresh hDrop.1⟩
      · refine ⟨h.insert ⟨hChild.fresh, fun hD => (by cases hD), hChild.cleanedUp⟩
          (by dsimp only; omega), ?_⟩
        rw [visible_cons_of_find? (SortedMap.find?_insert_self _ _ _)]
    | some ours =>
      have hUsage : parent.usageOf txid = DynamicMemoryUsage ours.coins := by
        simp [CCoinsViewCache.usageOf, hOurs]
      have hOursInv := h.entries txid ours hOurs
      simp only
      split_ifs with hErase
      · -- the parent's FRESH entry is pruned by the child: the grandparent shows none
        simp only [Bool.and_eq_true] at hErase
        refine ⟨h.erase (by omega), ?_⟩
        rw [visible_cons_of_find?_none (by simp [SortedMap.find?_erase]),
          unspent_some_of_isPruned hErase.2]
        exact hOursInv.fresh hErase.1
      · refine ⟨h.insert ⟨hOursInv.fresh, fun hD => (by cases hD), hChild.cleanedUp⟩
          (by dsimp only; omega), ?_⟩
        rw [visible_cons_of_find? (SortedMap.find?_insert_self _ _ _)]

theorem CCoinsViewDB.GetCoins_batchWriteEntry_of_ne {k : uint256} (hk : k ≠ txid) :
    (base.batchWriteEntry txid child).GetCoins k = base.GetCoins k := by
  unfold CCoinsViewDB.batchWriteEntry CCoinsViewDB.GetCoins
  split
  · split <;> simp [SortedMap.find?_erase, SortedMap.find?_insert_of_ne _ _ hk, hk]
  · rfl

/-- One entry written into the database: it stays cleaned up and shows the
entry's unspent coins. -/
theorem CCoinsViewDB.batchWriteEntry_spec (h : DBInv base)
    (hChild : EntryInv (base.GetCoins txid) child) :
    DBInv (base.batchWriteEntry txid child) ∧
      unspent ((base.batchWriteEntry txid child).GetCoins txid) = unspent (some child.coins) := by
  unfold CCoinsViewDB.batchWriteEntry
  cases hDirty : child.dirty
  · exact ⟨h, (hChild.notDirty hDirty).symm⟩
  · simp only [if_true]
    split_ifs with hPruned
    · refine ⟨fun e he => h e (List.mem_filter.mp he).1, ?_⟩
      simp [CCoinsViewDB.GetCoins, SortedMap.find?_erase, unspent_some_of_isPruned hPruned]
    · refine ⟨fun e he => ?_, by simp [CCoinsViewDB.GetCoins]⟩
      rcases SortedMap.mem_insertList he with rfl | he
      · exact hChild.cleanedUp
      · exact h e he

/-- `BatchWrite` of a child cache into its parent keeps the parent's
invariant, and the parent then shows the unspent coins the child showed. -/
theorem CCoinsViewCache.BatchWrite_spec {cache : CCoinsViewCache}
    (hParent : CacheInv parent (visible base rest))
    (hChild : CacheInv cache (visible base (parent :: rest))) :
    CacheInv (parent.BatchWrite cache.cacheCoins) (visible base rest) ∧
      ∀ k, unspent (visible base (parent.BatchWrite cache.cacheCoins :: rest) k) =
        unspent (visible base (cache :: parent :: rest) k) := by
  obtain ⟨hInv, hKeys⟩ := SortedMap.foldl_write (fun s k => visible base (s :: rest) k)
    (fun s k v => s.batchWriteEntry k v) (fun s => CacheInv s (visible base rest)) EntryInv
    (fun r v => unspent r = unspent (some v.coins))
    (fun s k v k' hk => visible_cons_congr (CCoinsViewCache.find?_batchWriteEntry_of_ne hk))
    (fun s k v hs hv => CCoinsViewCache.batchWriteEntry_spec hs hv)
    cache.cacheCoins parent hParent hChild.entries
  refine ⟨hInv, fun k => ?_⟩
  cases hFind : cache.cacheCoins.find? k with
  | some entry =>
    rw [visible_cons_of_find? hFind]
    exact (hKeys k).1 entry hFind
  | none =>
    rw [visible_cons_of_find?_none hFind]
    exact congrArg unspent ((hKeys k).2 hFind)

/-- `CCoinsViewDB::BatchWrite` of the last cache: the database stays cleaned
up and then shows the unspent coins the cache showed. -/
theorem CCoinsViewDB.BatchWrite_spec {cache : CCoinsViewCache} (hBase : DBInv base)
    (hChild : CacheInv cache (visible base [])) :
    DBInv (base.BatchWrite cache.cacheCoins) ∧
      ∀ k, unspent ((base.BatchWrite cache.cacheCoins).GetCoins k) =
        unspent (visible base [cache] k) := by
  obtain ⟨hInv, hKeys⟩ := SortedMap.foldl_write (fun s k => s.GetCoins k)
    (fun s k v => s.batchWriteEntry k v) DBInv EntryInv
    (fun r v => unspent r = unspent (some v.coins))
    (fun s k v k' hk => CCoinsViewDB.GetCoins_batchWriteEntry_of_ne hk)
    (fun s k v hs hv => CCoinsViewDB.batchWriteEntry_spec hs hv)
    cache.cacheCoins base hBase hChild.entries
  refine ⟨hInv, fun k => ?_⟩
  cases hFind : cache.cacheCoins.find? k with
  | some entry =>
    rw [visible_cons_of_find? hFind]
    exact (hKeys k).1 entry hFind
  | none =>
    rw [visible_cons_of_find?_none hFind]
    exact congrArg unspent ((hKeys k).2 hFind)

/-- `Flush` keeps the invariant of the caches under the flushed one and the
unspent coins shown through it. -/
theorem Flush_spec {cache : CCoinsViewCache} {lower : List CCoinsViewCache}
    (h : LayersInv base (cache :: lower)) :
    LayersInv (Flush base cache lower).2 (Flush base cache lower).1 ∧
      ∀ k, unspent (visible (Flush base cache lower).2 (Flush base cache lower).1 k) =
        unspent (visible base (cache :: lower) k) := by
  cases lower with
  | nil => exact CCoinsViewDB.BatchWrite_spec h.2 h.1
  | cons parent rest =>
    obtain ⟨hParent, hSame⟩ := CCoinsViewCache.BatchWrite_spec h.2.1 h.1
    exact ⟨⟨hParent, h.2.2⟩, hSame⟩

theorem flushAt_spec {caches : List CCoinsViewCache} (h : LayersInv base caches) (depth : Nat) :
    LayersInv (flushAt base caches depth).2 (flushAt base caches depth).1 ∧
      ∀ k, unspent (visible (flushAt base caches depth).2 (flushAt base caches depth).1 k) =
        unspent (visible base caches k) := by
  induction caches generalizing depth with
  | nil => exact ⟨h, fun _ => rfl⟩
  | cons cache lower ih =>
    cases depth with
    | zero =>
      obtain ⟨hInv, hSame⟩ := Flush_spec h
      exact ⟨⟨CacheInv.empty _, hInv⟩, hSame⟩
    | succ depth =>
      obtain ⟨hInv, hSame⟩ := ih h.2 depth
      exact LayersInv.cons_lower h.1 hInv hSame

end BatchWrite

/-! ### Uncaching -/

section Uncache

variable {base : CCoinsViewDB} {cache : CCoinsViewCache} {lower : List CCoinsViewCache}

/-- `Uncache` drops only an entry that shows the parent's unspent coins. -/
theorem Uncache_spec (h : CacheInv cache (visible base lower)) (hash : uint256) :
    CacheInv (cache.Uncache hash) (visible base lower) ∧
      ∀ k, unspent (visible base (cache.Uncache hash :: lower) k) =
        unspent (visible base (cache :: lower) k) := by
  unfold CCoinsViewCache.Uncache
  cases hFind : cache.cacheCoins.find? hash with
  | none => exact ⟨h, fun _ => rfl⟩
  | some entry =>
    simp only
    split_ifs with hFlags
    · have hUsage : cache.usageOf hash = DynamicMemoryUsage entry.coins := by
        simp [CCoinsViewCache.usageOf, hFind]
      have hLe := h.usageOf_le hash
      simp only [Bool.and_eq_true, Bool.not_eq_eq_eq_not, Bool.not_true] at hFlags
      refine ⟨h.erase (by omega), fun k => ?_⟩
      by_cases hk : k = hash
      · subst hk
        rw [visible_cons_of_find?_none (by simp [SortedMap.find?_erase]),
          visible_cons_of_find? hFind]
        exact ((h.entries k entry hFind).notDirty hFlags.1).symm
      · rw [visible_cons_congr (by simp [SortedMap.find?_erase, hk] :
          (⟨cache.cacheCoins.erase hash, cache.cachedCoinsUsage - DynamicMemoryUsage entry.coins⟩ :
            CCoinsViewCache).cacheCoins.find? k = cache.cacheCoins.find? k)]
    · exact ⟨h, fun _ => rfl⟩

theorem uncacheAt_spec {caches : List CCoinsViewCache} (h : LayersInv base caches) (depth : Nat)
    (hash : uint256) :
    LayersInv base (uncacheAt caches depth hash) ∧
      ∀ k, unspent (visible base (uncacheAt caches depth hash) k) = unspent (visible base caches k) := by
  induction caches generalizing depth with
  | nil => exact ⟨h, fun _ => rfl⟩
  | cons cache lower ih =>
    cases depth with
    | zero =>
      obtain ⟨hInv, hSame⟩ := Uncache_spec h.1 hash
      exact ⟨⟨hInv, h.2⟩, hSame⟩
    | succ depth =>
      obtain ⟨hInv, hSame⟩ := ih h.2 depth
      exact LayersInv.cons_lower h.1 hInv hSame

end Uncache

/-! ### Modifying an entry -/

section Modify

variable {base : CCoinsViewDB} {cache : CCoinsViewCache} {lower : List CCoinsViewCache}
  {txid : uint256} {entry : CCoinsCacheEntry} {modify : CCoins → CCoins}

theorem CCoinsViewCache.find?_modified_of_ne {used : Nat} {k : uint256} (hk : k ≠ txid) :
    (cache.modified txid entry used modify).cacheCoins.find? k = cache.cacheCoins.find? k := by
  unfold CCoinsViewCache.modified
  dsimp only
  split_ifs <;> simp [SortedMap.find?_erase, SortedMap.find?_insert_of_ne _ _ hk, hk]

/-- The modifier's destructor, for an entry handed out DIRTY, FRESH only
over a parent without unspent coins, with the usage the cache counts for
the id recorded: the invariant holds after it, and the cache shows at
`txid` the unspent coins the modification made. -/
theorem modified_spec (h : CacheInv cache (visible base lower)) (hDirty : entry.dirty = true)
    (hFresh : entry.fresh = true → unspent (visible base lower txid) = none)
    (modify : CCoins → CCoins) :
    CacheInv (cache.modified txid entry (cache.usageOf txid) modify) (visible base lower) ∧
      unspent (visible base (cache.modified txid entry (cache.usageOf txid) modify :: lower) txid) =
        unspent (some (modify entry.coins).cleanup) := by
  have hLe := h.usageOf_le txid
  unfold CCoinsViewCache.modified
  dsimp only
  split_ifs with hErase
  · -- FRESH and now pruned: erased, and the parent shows no unspent coins
    simp only [Bool.and_eq_true] at hErase
    refine ⟨h.erase (by omega), ?_⟩
    rw [visible_cons_of_find?_none (by simp [SortedMap.find?_erase]),
      unspent_some_of_isPruned hErase.2]
    exact hFresh hErase.1
  · have hEntry : EntryInv (visible base lower txid) { entry with coins := (modify entry.coins).cleanup } :=
      ⟨hFresh, fun hD => absurd hD (by simp [hDirty]), cleanup_cleanup _⟩
    refine ⟨h.insert hEntry (by dsimp only; omega), ?_⟩
    rw [visible_cons_of_find? (SortedMap.find?_insert_self _ _ _)]

/-- What `ModifyCoins` does on a cache over `lower`: it hands the
modification an entry whose unspent coins are those the cache shows, DIRTY,
FRESH only over a parent without unspent coins, with the usage the cache
counts for the id, over caches `lower'` that show what `lower` showed. -/
theorem ModifyCoins_cons (h : LayersInv base (cache :: lower)) (txid : uint256)
    (modify : CCoins → CCoins) :
    ∃ entry lower', ModifyCoins base (cache :: lower) txid modify =
        cache.modified txid entry (cache.usageOf txid) modify :: lower' ∧
      entry.dirty = true ∧ (entry.fresh = true → unspent (visible base lower txid) = none) ∧
      unspent (some entry.coins) = unspent (visible base (cache :: lower) txid) ∧
      (∀ k, visible base lower' k = visible base lower k) ∧ LayersInv base lower' := by
  cases hFind : cache.cacheCoins.find? txid with
  | some entry =>
    have hUsage : cache.usageOf txid = DynamicMemoryUsage entry.coins := by
      simp [CCoinsViewCache.usageOf, hFind]
    refine ⟨{ entry with dirty := true }, lower, ?_, rfl, (h.1.entries txid entry hFind).fresh, ?_,
      fun _ => rfl, h.2⟩
    · simp [ModifyCoins, hFind, hUsage]
    · rw [visible_cons_of_find? hFind]
  | none =>
    have hUsage : cache.usageOf txid = 0 := by simp [CCoinsViewCache.usageOf, hFind]
    have hBelow := FetchCoins_fst base lower txid
    rw [visible_cons_of_find?_none hFind]
    cases hFound : (FetchCoins base lower txid).1 with
    | none =>
      refine ⟨⟨CCoins.clear, true, true⟩, (FetchCoins base lower txid).2, ?_, rfl, ?_, ?_,
        visible_FetchCoins base lower txid, h.2.FetchCoins_snd txid⟩
      · simp [ModifyCoins, hFind, hFound, hUsage]
      · intro _
        rw [← hBelow, hFound]
        rfl
      · rw [← hBelow, hFound]
        rfl
    | some coins =>
      refine ⟨⟨coins, true, coins.isPruned⟩, (FetchCoins base lower txid).2, ?_, rfl, ?_, ?_,
        visible_FetchCoins base lower txid, h.2.FetchCoins_snd txid⟩
      · simp [ModifyCoins, hFind, hFound, hUsage]
      · intro hPruned
        rw [← hBelow, hFound]
        exact unspent_some_of_isPruned hPruned
      · rw [← hBelow, hFound]

/-- `ModifyCoins` keeps the invariant, shows at `txid` the unspent coins the
modification made of coins that show what the cache showed, and shows at
every other id what it showed. -/
theorem ModifyCoins_spec (h : LayersInv base (cache :: lower)) (txid : uint256)
    (modify : CCoins → CCoins) :
    ∃ coins, unspent (some coins) = unspent (visible base (cache :: lower) txid) ∧
      LayersInv base (ModifyCoins base (cache :: lower) txid modify) ∧
      unspent (visible base (ModifyCoins base (cache :: lower) txid modify) txid) =
        unspent (some (modify coins).cleanup) ∧
      ∀ k, k ≠ txid → visible base (ModifyCoins base (cache :: lower) txid modify) k =
        visible base (cache :: lower) k := by
  obtain ⟨entry, lower', hEq, hDirty, hFresh, hCoins, hLowerSame, hLowerInv⟩ :=
    ModifyCoins_cons h txid modify
  have hSame : ∀ k, unspent (visible base lower' k) = unspent (visible base lower k) :=
    fun k => by rw [hLowerSame]
  have hFresh' : entry.fresh = true → unspent (visible base lower' txid) = none :=
    fun hF => (hSame txid).trans (hFresh hF)
  obtain ⟨hInv, hVis⟩ := modified_spec (h.1.congr hSame) hDirty hFresh' modify
  refine ⟨entry.coins, hCoins, ?_, ?_, fun k hk => ?_⟩
  · rw [hEq]
    exact ⟨hInv, hLowerInv⟩
  · rw [hEq]
    exact hVis
  · rw [hEq, visible_cons_congr (CCoinsViewCache.find?_modified_of_ne hk)]
    exact visible_cons_lower id hLowerSame k

/-- Under `ModifyNewCoins`'s precondition the cache's own entry, if any, is
pruned and the caches under it show no unspent coins. -/
theorem noUnspent_cons (h : CacheOp.noUnspent ⟨cache :: lower, base⟩ txid = true) :
    (∀ entry, cache.cacheCoins.find? txid = some entry → entry.coins.isPruned = true) ∧
      unspent (visible base lower txid) = none := by
  simp only [CacheOp.noUnspent, List.all_cons, Bool.and_eq_true] at h
  obtain ⟨⟨hTop, hLower⟩, hBase⟩ := h
  refine ⟨fun entry hFind => by simpa [hFind] using hTop, ?_⟩
  induction lower with
  | nil =>
    apply unspent_eq_none_of_forall
    intro coins hCoins
    have hGet : base.GetCoins txid = some coins := hCoins
    simpa [hGet] using hBase
  | cons below rest ih =>
    simp only [List.all_cons, Bool.and_eq_true] at hLower
    cases hFind : below.cacheCoins.find? txid with
    | some entry =>
      rw [visible_cons_of_find? hFind]
      exact unspent_some_of_isPruned (by simpa [hFind] using hLower.1)
    | none =>
      rw [visible_cons_of_find?_none hFind]
      exact ih hLower.2

/-- `ModifyNewCoins` under its precondition keeps the invariant: the entry
it overwrites is pruned and cleaned up, so it has no usage to forget. -/
theorem ModifyNewCoins_spec (h : LayersInv base (cache :: lower))
    (hNo : CacheOp.noUnspent ⟨cache :: lower, base⟩ txid = true) (modify : CCoins → CCoins) :
    LayersInv base (cache.ModifyNewCoins txid modify :: lower) ∧
      unspent (visible base (cache.ModifyNewCoins txid modify :: lower) txid) =
        unspent (some (modify CCoins.clear).cleanup) ∧
      ∀ k, k ≠ txid → visible base (cache.ModifyNewCoins txid modify :: lower) k =
        visible base (cache :: lower) k := by
  obtain ⟨hTop, hLower⟩ := noUnspent_cons hNo
  have hUsage : cache.usageOf txid = 0 := by
    cases hFind : cache.cacheCoins.find? txid with
    | none => simp [CCoinsViewCache.usageOf, hFind]
    | some entry =>
      have hNil := vout_eq_nil_of_cleanup_eq (h.1.entries txid entry hFind).cleanedUp
        (hTop entry hFind)
      simp [CCoinsViewCache.usageOf, hFind, DynamicMemoryUsage_of_vout_eq_nil hNil]
  have hSpec := modified_spec h.1 (show (⟨CCoins.clear, true, true⟩ : CCoinsCacheEntry).dirty = true
    from rfl) (fun _ => hLower) modify
  rw [hUsage] at hSpec
  exact ⟨⟨hSpec.1, h.2⟩, hSpec.2, fun k hk => visible_cons_congr
    (CCoinsViewCache.find?_modified_of_ne hk)⟩

end Modify

/-! ### Runs -/

section Runs

variable {s : CoinsStack} {view : Coins.CCoinsViewCache}

/-- The single view after a modification shows, at another id, what it
showed. -/
theorem Agrees.update {s' : CoinsStack} (hAgree : Agrees s view) {txid : uint256} {coins : CCoins}
    (hAt : unspent (visible s'.base s'.caches txid) = unspent (some coins))
    (hOther : ∀ k, k ≠ txid → visible s'.base s'.caches k = visible s.base s.caches k) :
    Agrees s' (view.setCoins txid coins) := by
  intro k
  by_cases hk : k = txid
  · subst hk
    simp [hAt]
  · rw [hOther k hk, hAgree k]
    simp [hk]

/-- An operation that changes no id's unspent coins keeps the agreement. -/
theorem Agrees.of_same {s' : CoinsStack} (hAgree : Agrees s view)
    (hSame : ∀ k, unspent (visible s'.base s'.caches k) = unspent (visible s.base s.caches k)) :
    Agrees s' view :=
  fun k => (hSame k).trans (hAgree k)

/-- One allowed operation keeps the invariant and the agreement with the
single view changed by the same operation. -/
theorem CacheOp.apply_spec (op : CacheOp) (hInv : LayersInv s.base s.caches) (hAgree : Agrees s view)
    (hAlike : op.ModifiesPrunedAlike) (hAllowed : op.allowed s = true) :
    LayersInv (op.apply s).base (op.apply s).caches ∧ Agrees (op.apply s) (op.onView view) := by
  obtain ⟨caches, base⟩ := s
  cases op with
  | modifyCoins txid modify =>
    cases caches with
    | nil => simp [CacheOp.allowed] at hAllowed
    | cons cache lower =>
      obtain ⟨coins, hCoins, hInv', hAt, hOther⟩ := ModifyCoins_spec hInv txid modify
      refine ⟨hInv', hAgree.update ?_ hOther⟩
      exact hAt.trans (hAlike coins (view.coins txid) (hCoins.trans (hAgree txid)))
  | modifyNewCoins txid modify =>
    cases caches with
    | nil => simp [CacheOp.allowed] at hAllowed
    | cons cache lower =>
      simp only [CacheOp.allowed, List.isEmpty_cons, Bool.not_false, Bool.true_and] at hAllowed
      obtain ⟨hInv', hAt, hOther⟩ := ModifyNewCoins_spec hInv hAllowed modify
      exact ⟨hInv', hAgree.update hAt hOther⟩
  | accessCoins txid =>
    refine ⟨hInv.FetchCoins_snd txid, fun k => ?_⟩
    simpa [CacheOp.apply, CacheOp.onView, visible_FetchCoins] using hAgree k
  | uncache depth txid =>
    obtain ⟨hInv', hSame⟩ := uncacheAt_spec hInv depth txid
    exact ⟨hInv', hAgree.of_same hSame⟩
  | flush depth =>
    obtain ⟨hInv', hSame⟩ := flushAt_spec hInv depth
    exact ⟨hInv', hAgree.of_same hSame⟩
  | push => exact ⟨⟨CacheInv.empty _, hInv⟩, hAgree⟩
  | pop =>
    cases caches with
    | nil => exact ⟨hInv, hAgree⟩
    | cons cache lower =>
      obtain ⟨hInv', hSame⟩ := Flush_spec hInv
      exact ⟨hInv', hAgree.of_same hSame⟩

/-- A run of allowed operations keeps the invariant and the agreement with
the single view changed by the same operations. -/
theorem CoinsStack.run_spec (ops : List CacheOp) (hInv : LayersInv s.base s.caches)
    (hAgree : Agrees s view) (hAlike : ∀ op ∈ ops, op.ModifiesPrunedAlike)
    (hAllowed : s.admissible ops = true) :
    LayersInv (s.run ops).base (s.run ops).caches ∧ Agrees (s.run ops) (runView view ops) := by
  induction ops generalizing s view with
  | nil => exact ⟨hInv, hAgree⟩
  | cons op ops ih =>
    simp only [CoinsStack.admissible, Bool.and_eq_true] at hAllowed
    obtain ⟨hInv₁, hAgree₁⟩ := op.apply_spec hInv hAgree (hAlike op List.mem_cons_self) hAllowed.1
    exact ih hInv₁ hAgree₁ (fun op' hop' => hAlike op' (List.mem_cons_of_mem op hop')) hAllowed.2

end Runs

/-! ## Runs from empty caches -/

/-- Empty caches over the database show its coins, which are those of its
single view. -/
theorem Agrees.start (base : CCoinsViewDB) (n : Nat) :
    Agrees (CoinsStack.start base n) (baseView base) := by
  intro txid
  have hVis : visible base (List.replicate n CCoinsViewCache.empty) txid = base.GetCoins txid := by
    induction n with
    | zero => rfl
    | succ n ih => exact ih
  simp only [CoinsStack.start, hVis, baseView]
  cases base.GetCoins txid <;> rfl

/-- From `n` empty caches over a database of cleaned-up coins, after any run
of allowed operations whose `ModifyCoins` treat pruned coins alike,
`AccessCoins` through the top cache shows for every id the unspent coins of
the single view changed by the same operations, `HaveCoins` answers whether
it has any, and every cache's `cachedCoinsUsage` is the usage of its
entries. -/
theorem coinsCache_agrees_view (base : CCoinsViewDB) (n : Nat) (ops : List CacheOp)
    (hBase : DBInv base) (hAlike : ∀ op ∈ ops, op.ModifiesPrunedAlike)
    (hAllowed : (CoinsStack.start base n).admissible ops = true) :
    (∀ txid, unspent (FetchCoins ((CoinsStack.start base n).run ops).base
        ((CoinsStack.start base n).run ops).caches txid).1 =
      unspent (some ((runView (baseView base) ops).coins txid))) ∧
    (∀ txid, HaveCoins ((CoinsStack.start base n).run ops).base
        ((CoinsStack.start base n).run ops).caches txid =
      (unspent (some ((runView (baseView base) ops).coins txid))).isSome) ∧
    ∀ cache ∈ ((CoinsStack.start base n).run ops).caches,
      cache.cachedCoinsUsage = cache.entriesUsage := by
  obtain ⟨hInv, hAgree⟩ := CoinsStack.run_spec ops (LayersInv.replicate_empty hBase n)
    (Agrees.start base n) hAlike hAllowed
  refine ⟨fun txid => ?_, fun txid => ?_, hInv.usage⟩
  · rw [FetchCoins_fst]
    exact hAgree txid
  · rw [HaveCoins_eq hInv, hAgree txid]

/-- Coins with one unspent output of 50, version 1 at height 1. -/
def versionOneCoins : CCoins := ⟨false, [⟨50, []⟩], 1, 1⟩

/-- A database holding `versionOneCoins` for the id 1. -/
def versionOneBase : CCoinsViewDB := ⟨SortedMap.empty.insert 1 versionOneCoins⟩

/-- Every output spent and the metadata kept, as spending each output of a
transaction leaves its coins. -/
def spendAll (coins : CCoins) : CCoins :=
  { coins with vout := coins.vout.map fun _ => CTxOut.null }

theorem PrunedAlike_const (coins : CCoins) : PrunedAlike fun _ => coins := fun _ _ _ => rfl

theorem PrunedAlike_spendAll : PrunedAlike spendAll := by
  have hPruned : ∀ coins, (spendAll coins).cleanup.isPruned = true := fun coins => by
    rw [isPruned_cleanup]
    simp [spendAll, CCoins.isPruned, CTxOut.null, CTxOut.isNull]
  intro c c' _
  rw [unspent_some_of_isPruned (hPruned c), unspent_some_of_isPruned (hPruned c')]

/-- A run of the simulation's kind on one cache over `versionOneBase`: coins
written for id 2, a second cache pushed, id 1 spent there, a read, the
second cache flushed, an uncache of a DIRTY entry (which stays), the second
cache popped, coins created fresh for id 3, which no view holds, and a
flush into the database. -/
def simulationOps : List CacheOp :=
  [.modifyCoins 2 fun _ => versionOneCoins, .push, .modifyCoins 1 spendAll, .accessCoins 2,
    .flush 0, .uncache 1 2, .pop, .modifyNewCoins 3 fun _ => versionOneCoins, .flush 0]

theorem coinsCache_agrees_view_simulation :
    DBInv versionOneBase ∧ (∀ op ∈ simulationOps, op.ModifiesPrunedAlike) ∧
      (CoinsStack.start versionOneBase 1).admissible simulationOps = true ∧
      (∀ txid, unspent (FetchCoins ((CoinsStack.start versionOneBase 1).run simulationOps).base
          ((CoinsStack.start versionOneBase 1).run simulationOps).caches txid).1 =
        unspent (some ((runView (baseView versionOneBase) simulationOps).coins txid))) ∧
      (∀ txid, HaveCoins ((CoinsStack.start versionOneBase 1).run simulationOps).base
          ((CoinsStack.start versionOneBase 1).run simulationOps).caches txid =
        (unspent (some ((runView (baseView versionOneBase) simulationOps).coins txid))).isSome) ∧
      ∀ cache ∈ ((CoinsStack.start versionOneBase 1).run simulationOps).caches,
        cache.cachedCoinsUsage = cache.entriesUsage := by
  have hBase : DBInv versionOneBase := by decide +kernel
  have hAlike : ∀ op ∈ simulationOps, op.ModifiesPrunedAlike := by
    intro op hop
    simp only [simulationOps, List.mem_cons, List.not_mem_nil, or_false] at hop
    rcases hop with rfl | rfl | rfl | rfl | rfl | rfl | rfl | rfl | rfl
    · exact PrunedAlike_const versionOneCoins
    · trivial
    · exact PrunedAlike_spendAll
    all_goals trivial
  have hAllowed : (CoinsStack.start versionOneBase 1).admissible simulationOps = true := by
    decide +kernel
  exact ⟨hBase, hAlike, hAllowed,
    coinsCache_agrees_view versionOneBase 1 simulationOps hBase hAlike hAllowed⟩

/-! ## Modifications that read pruned coins -/

/-- The same operation on a map of unspent coins only, in which pruned coins
and missing ones are both `none`: a modification starts from `CCoins()`
where the map has none. -/
def CacheOp.onUnspent (ref : uint256 → Option CCoins) : CacheOp → uint256 → Option CCoins
  | modifyCoins txid modify =>
    Function.update ref txid (unspent (some (modify ((ref txid).getD CCoins.clear)).cleanup))
  | modifyNewCoins txid modify =>
    Function.update ref txid (unspent (some (modify CCoins.clear).cleanup))
  | _ => ref

/-- The map of unspent coins after `ops`. -/
def runUnspent (ref : uint256 → Option CCoins) (ops : List CacheOp) : uint256 → Option CCoins :=
  ops.foldl CacheOp.onUnspent ref

/-- Give coins of version `nVersion` an unspent output, as `ApplyTxInUndo`
writes an output back into coins whose metadata the undo data does not
restore. -/
def reviveIfVersion (nVersion : Int32) (coins : CCoins) : CCoins :=
  if coins.nVersion = nVersion then { coins with vout := [⟨50, []⟩] } else coins

/-- Pruned coins of version 7, whatever the entry held. -/
def prunedVersionSeven (_ : CCoins) : CCoins := ⟨false, [], 0, 7⟩

/-- Two ids each modified twice, the second time by a modification that
reads the version of pruned coins: id 1 spent and then revived when of
version 1, id 2 set to pruned coins of version 7 and then revived when of
version 7. -/
def prunedMetadataOps : List CacheOp :=
  [.modifyCoins 1 spendAll, .modifyCoins 1 (reviveIfVersion 1),
    .modifyCoins 2 prunedVersionSeven, .modifyCoins 2 (reviveIfVersion 7)]

/-- On one cache over `versionOneBase` the run is allowed. The spent coins
of id 1 stay in the cache, not FRESH, with version 1, and are revived; a map
of unspent coins records id 1 as spent and hands the second modification
`CCoins()`, which it does not revive. The pruned coins of id 2 are FRESH and
erased, so the second modification gets `CCoins()` and id 2 shows nothing;
the single view keeps them with version 7 and revives them. -/
theorem prunedMetadata_diverges :
    (CoinsStack.start versionOneBase 1).admissible prunedMetadataOps = true ∧
      unspent (FetchCoins ((CoinsStack.start versionOneBase 1).run prunedMetadataOps).base
          ((CoinsStack.start versionOneBase 1).run prunedMetadataOps).caches 1).1 =
        some ⟨false, [⟨50, []⟩], 1, 1⟩ ∧
      runUnspent (fun txid => unspent (versionOneBase.GetCoins txid)) prunedMetadataOps 1 = none ∧
      unspent (FetchCoins ((CoinsStack.start versionOneBase 1).run prunedMetadataOps).base
          ((CoinsStack.start versionOneBase 1).run prunedMetadataOps).caches 2).1 = none ∧
      unspent (some ((runView (baseView versionOneBase) prunedMetadataOps).coins 2)) =
        some ⟨false, [⟨50, []⟩], 0, 7⟩ := by
  decide +kernel

end FairCoin.Ports.CoinsCache
