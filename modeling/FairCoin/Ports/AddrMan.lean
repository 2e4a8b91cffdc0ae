import Mathlib
import FairCoin.Verified.SortedMap
import FairCoin.Verified.DenseIndex
import FairCoin.Verified.CellCount

/-!
# The stochastic address manager `CAddrMan`

`CAddrMan` (addrman.h, addrman.cpp) keeps the addresses a node has heard of
in two tables of buckets: `ADDRMAN_NEW_BUCKET_COUNT` "new" buckets for
addresses not yet connected to, and `ADDRMAN_TRIED_BUCKET_COUNT` "tried"
buckets for addresses that were. Each entry, a `CAddrInfo`, is kept in
`mapInfo` under an id, is found from its network address through `mapAddr`,
and is listed in `vRandom` at the position `nRandomPos` it records. A new
entry sits in up to `ADDRMAN_NEW_BUCKETS_PER_ADDRESS` new cells, counted by
`nRefCount`; a tried entry sits in one tried cell.

The bucket and the position of an address are keyed SHA-256 hashes
(`GetTriedBucket`, `GetNewBucket`, `GetBucketPosition`). The model takes them
as a `BucketHash`: any three functions into the right ranges, so that every
result holds for every key `nKey` and every hash. Network addresses are any
type `N` with the order `std::map` uses. The random draws (`GetRandInt`,
`insecure_rand`) and the adjusted time are arguments, so that a result
proved for all of them holds for every outcome. An `assert` that fails is
`none`.

Each function keeps the order of the source's writes, and a write through a
reference `CAddrInfo&` into `mapInfo` reads the entry as it is at that point
(`modifyInfo`), since a `Delete` in between may have moved its
`nRandomPos`.
-/

namespace FairCoin.Ports.AddrMan

open FairCoin.Verified FairCoin.Verified.CellCount Function

/-- total number of buckets for tried addresses -/
def ADDRMAN_TRIED_BUCKET_COUNT : Nat := 256

/-- total number of buckets for new addresses -/
def ADDRMAN_NEW_BUCKET_COUNT : Nat := 1024

/-- maximum allowed number of entries in buckets for new and tried addresses -/
def ADDRMAN_BUCKET_SIZE : Nat := 64

/-- in how many buckets for entries with new addresses a single address may occur -/
def ADDRMAN_NEW_BUCKETS_PER_ADDRESS : Int := 8

/-- how old addresses can maximally be -/
def ADDRMAN_HORIZON_DAYS : Int64 := 30

/-- after how many failed attempts we give up on a new node -/
def ADDRMAN_RETRIES : Int32 := 3

/-- how many successive failures are allowed ... -/
def ADDRMAN_MAX_FAILURES : Int32 := 10

/-- ... in at least this many days -/
def ADDRMAN_MIN_FAIL_DAYS : Int64 := 7

/-- the maximum percentage of nodes to return in a getaddr call -/
def ADDRMAN_GETADDR_MAX_PCT : Nat := 23

/-- the maximum number of nodes to return in a getaddr call -/
def ADDRMAN_GETADDR_MAX : Nat := 2500

/-- A cell `vvNew[nUBucket][nUBucketPos]`. -/
abbrev NewCell := Fin ADDRMAN_NEW_BUCKET_COUNT × Fin ADDRMAN_BUCKET_SIZE

/-- A cell `vvTried[nKBucket][nKBucketPos]`. -/
abbrev TriedCell := Fin ADDRMAN_TRIED_BUCKET_COUNT × Fin ADDRMAN_BUCKET_SIZE

/-- `CService`: a network address and a port; `operator==` compares both. -/
structure CService (N : Type) where
  ip : N
  port : UInt16
  deriving DecidableEq

/-- `CAddress`: a service, the services it offers and when it was last seen. -/
structure CAddress (N : Type) extends CService N where
  nServices : UInt64
  nTime : UInt32
  deriving DecidableEq

/-- `CAddrInfo`: an address with the statistics the manager keeps on it. -/
structure CAddrInfo (N : Type) extends CAddress N where
  nLastTry : Int64
  source : N
  nLastSuccess : Int64
  nAttempts : Int32
  nRefCount : Int
  fInTried : Bool
  nRandomPos : Nat
  deriving DecidableEq

/-- The keyed hashes of `CAddrInfo` with `nKey` fixed. `GetTriedBucket` reads
the address with its port (`GetKey`) and its group; `GetNewBucket` the groups
of the address and of the source; `GetBucketPosition` the address with its
port, the table (`fNew`) and the bucket. The reductions `% ..._COUNT` and
`% ADDRMAN_BUCKET_SIZE` are the ranges. -/
structure BucketHash (N : Type) where
  GetTriedBucket : CService N → Fin ADDRMAN_TRIED_BUCKET_COUNT
  GetNewBucket : N → N → Fin ADDRMAN_NEW_BUCKET_COUNT
  GetBucketPosition : CService N → Bool → Nat → Fin ADDRMAN_BUCKET_SIZE

/-- The state of `CAddrMan`; `nKey` is the `BucketHash`. -/
structure CAddrMan (N : Type) [LinearOrder N] where
  nIdCount : Nat
  mapInfo : SortedMap Nat (CAddrInfo N)
  mapAddr : SortedMap N Nat
  vRandom : List Nat
  nTried : Int
  vvTried : TriedCell → Option Nat
  nNew : Int
  vvNew : NewCell → Option Nat

variable {N : Type}

/-- `(int64_t)` of an `unsigned int`. -/
def toInt64 (x : UInt32) : Int64 := x.toUInt64.toInt64

/-- `(unsigned int)` of an `int64_t`, modulo `2 ^ 32`. -/
def toUInt32 (x : Int64) : UInt32 := x.toUInt64.toUInt32

/-- `CAddrInfo(addrIn, addrSource)` after `Init()`, with `nRandomPos` as
`Create` sets it. -/
def CAddrInfo.init (addr : CAddress N) (source : N) (nRandomPos : Nat) : CAddrInfo N :=
  { addr with nLastTry := 0, source, nLastSuccess := 0, nAttempts := 0, nRefCount := 0,
              fInTried := false, nRandomPos }

/-- `CAddrInfo::IsTerrible(nNow)`. -/
def CAddrInfo.IsTerrible (info : CAddrInfo N) (nNow : Int64) : Bool :=
  -- never remove things tried in the last minute
  if info.nLastTry ≠ 0 ∧ info.nLastTry ≥ nNow - 60 then false
  -- came in a flying DeLorean
  else if toInt64 info.nTime > nNow + 10 * 60 then true
  -- not seen in recent history
  else if info.nTime = 0 ∨ nNow - toInt64 info.nTime > ADDRMAN_HORIZON_DAYS * 24 * 60 * 60 then true
  -- tried N times and never a success
  else if info.nLastSuccess = 0 ∧ info.nAttempts ≥ ADDRMAN_RETRIES then true
  -- N successive failures in the last week
  else if nNow - info.nLastSuccess > ADDRMAN_MIN_FAIL_DAYS * 24 * 60 * 60 ∧
      info.nAttempts ≥ ADDRMAN_MAX_FAILURES then true
  else false

/-- `CAddrInfo::GetChance(nNow)`, in double precision. `nSinceLastSeen` is
computed and clamped in the source but never read. -/
def CAddrInfo.GetChance (info : CAddrInfo N) (nNow : Int64) : Float :=
  let nSinceLastTry := nNow - info.nLastTry
  let nSinceLastTry := if nSinceLastTry < 0 then 0 else nSinceLastTry
  let fChance : Float := 1.0
  -- deprioritize very recent attempts away
  let fChance := if nSinceLastTry < 60 * 10 then fChance * 0.01 else fChance
  fChance * Float.pow 0.66 (min info.nAttempts 8).toFloat

/-- A write `mapInfo[nId].field = ...` through a reference: the entry as it is
now, changed by `f`. -/
def modifyInfo (mapInfo : SortedMap Nat (CAddrInfo N)) (nId : Nat)
    (f : CAddrInfo N → CAddrInfo N) : SortedMap Nat (CAddrInfo N) :=
  match mapInfo.find? nId with
  | some info => mapInfo.insert nId (f info)
  | none => mapInfo

theorem find?_modifyInfo (mapInfo : SortedMap Nat (CAddrInfo N)) (nId : Nat)
    (f : CAddrInfo N → CAddrInfo N) (n : Nat) :
    (modifyInfo mapInfo nId f).find? n =
      if n = nId then (mapInfo.find? nId).map f else mapInfo.find? n := by
  unfold modifyInfo
  cases hFind : mapInfo.find? nId with
  | none =>
    split_ifs with hn
    · rw [hn, hFind]
      rfl
    · rfl
  | some info =>
    rw [SortedMap.find?_insert]
    rfl

variable [LinearOrder N]

namespace CAddrMan

/-- `Clear()`, which the constructor calls: empty tables and no ids. -/
def Clear : CAddrMan N :=
  ⟨0, SortedMap.empty, SortedMap.empty, [], 0, fun _ => none, 0, fun _ => none⟩

/-- `size()`. -/
def size (s : CAddrMan N) : Nat := s.vRandom.length

/-- `Find(addr, &nId)`: the id `mapAddr` gives the address, and its entry. -/
def Find (s : CAddrMan N) (addr : N) : Option (Nat × CAddrInfo N) :=
  match s.mapAddr.find? addr with
  | none => none
  | some nId => (s.mapInfo.find? nId).map fun info => (nId, info)

/-- `Create(addr, addrSource, &nId)`: a fresh id, listed last in `vRandom`. -/
def Create (s : CAddrMan N) (addr : CAddress N) (addrSource : N) : CAddrMan N × Nat :=
  let nId := s.nIdCount
  ({ s with nIdCount := nId + 1
            mapInfo := s.mapInfo.insert nId (CAddrInfo.init addr addrSource s.vRandom.length)
            mapAddr := s.mapAddr.insert addr.ip nId
            vRandom := s.vRandom ++ [nId] }, nId)

/-- `SwapRandom(nRndPos1, nRndPos2)`: exchange two slots of `vRandom` and the
positions their entries record. -/
def SwapRandom (s : CAddrMan N) (nRndPos1 nRndPos2 : Nat) : Option (CAddrMan N) :=
  if nRndPos1 = nRndPos2 then some s else
  match s.vRandom[nRndPos1]?, s.vRandom[nRndPos2]? with
  | some nId1, some nId2 =>
    if s.mapInfo.contains nId1 ∧ s.mapInfo.contains nId2 then
      let mapInfo := modifyInfo s.mapInfo nId1 fun info => { info with nRandomPos := nRndPos2 }
      some { s with
        mapInfo := modifyInfo mapInfo nId2 fun info => { info with nRandomPos := nRndPos1 }
        vRandom := (s.vRandom.set nRndPos1 nId2).set nRndPos2 nId1 }
    else none
  | _, _ => none

/-- `Delete(nId)`: a new entry that no cell holds leaves `vRandom` (swapped to
the end and popped) and both maps. -/
def Delete (s : CAddrMan N) (nId : Nat) : Option (CAddrMan N) :=
  match s.mapInfo.find? nId with
  | none => none
  | some info =>
    if info.fInTried ∨ info.nRefCount ≠ 0 then none else
    match s.SwapRandom info.nRandomPos (s.vRandom.length - 1) with
    | none => none
    | some s =>
      -- `pop_back` on an empty vector
      if s.vRandom = [] then none else
      some { s with vRandom := s.vRandom.dropLast, mapAddr := s.mapAddr.erase info.ip,
                    mapInfo := s.mapInfo.erase nId, nNew := s.nNew - 1 }

/-- `ClearNew(nUBucket, nUBucketPos)`: empty a new cell; its entry loses a
reference and is deleted at none. An id that `mapInfo` lacks would be read
through `operator[]` as a default entry with `nRefCount` 0, which fails the
assert. -/
def ClearNew (s : CAddrMan N) (nUBucket : Fin ADDRMAN_NEW_BUCKET_COUNT)
    (nUBucketPos : Fin ADDRMAN_BUCKET_SIZE) : Option (CAddrMan N) :=
  match s.vvNew (nUBucket, nUBucketPos) with
  | none => some s
  | some nIdDelete =>
    match s.mapInfo.find? nIdDelete with
    | none => none
    | some infoDelete =>
      if infoDelete.nRefCount ≤ 0 then none else
      let s := { s with
        mapInfo := s.mapInfo.insert nIdDelete { infoDelete with nRefCount := infoDelete.nRefCount - 1 }
        vvNew := update s.vvNew (nUBucket, nUBucketPos) none }
      if infoDelete.nRefCount - 1 = 0 then s.Delete nIdDelete else some s

/-- The eviction block of `MakeTried`: the entry in tried cell
`(nKBucket, nKBucketPos)` leaves the tried table and takes the new cell its own
address and source hash to, over whatever `ClearNew` finds there. -/
def evictTried (h : BucketHash N) (s : CAddrMan N) (nKBucket : Fin ADDRMAN_TRIED_BUCKET_COUNT)
    (nKBucketPos : Fin ADDRMAN_BUCKET_SIZE) : Option (CAddrMan N) :=
  match s.vvTried (nKBucket, nKBucketPos) with
  | none => some s
  | some nIdEvict =>
    match s.mapInfo.find? nIdEvict with
    | none => none
    | some infoOld =>
      -- Remove the to-be-evicted item from the tried set.
      let s := { s with
        mapInfo := s.mapInfo.insert nIdEvict { infoOld with fInTried := false }
        vvTried := update s.vvTried (nKBucket, nKBucketPos) none
        nTried := s.nTried - 1 }
      -- find which new bucket it belongs to
      let nUBucket := h.GetNewBucket infoOld.ip infoOld.source
      let nUBucketPos := h.GetBucketPosition infoOld.toCService true nUBucket
      match s.ClearNew nUBucket nUBucketPos with
      | none => none
      | some s =>
        if s.vvNew (nUBucket, nUBucketPos) ≠ none then none else
        -- Enter it into the new set again.
        some { s with
          mapInfo := modifyInfo s.mapInfo nIdEvict fun info => { info with nRefCount := 1 }
          vvNew := update s.vvNew (nUBucket, nUBucketPos) (some nIdEvict)
          nNew := s.nNew + 1 }

/-- `MakeTried(info, nId)`: move a new entry to its tried cell. The loop over
the new buckets touches only `vvNew` and `info.nRefCount`, so the count is
carried through the loop and written back after it. -/
def MakeTried (h : BucketHash N) (s : CAddrMan N) (info : CAddrInfo N) (nId : Nat) :
    Option (CAddrMan N) :=
  -- remove the entry from all new buckets
  let cleared := (List.finRange ADDRMAN_NEW_BUCKET_COUNT).foldl
    (clearStep (fun bucket : Fin ADDRMAN_NEW_BUCKET_COUNT =>
      h.GetBucketPosition info.toCService true bucket) nId)
    (s.vvNew, info.nRefCount)
  let s := { s with
    vvNew := cleared.1
    mapInfo := modifyInfo s.mapInfo nId fun info => { info with nRefCount := cleared.2 }
    nNew := s.nNew - 1 }
  if cleared.2 ≠ 0 then none else
  -- which tried bucket to move the entry to
  let nKBucket := h.GetTriedBucket info.toCService
  let nKBucketPos := h.GetBucketPosition info.toCService false nKBucket
  match s.evictTried h nKBucket nKBucketPos with
  | none => none
  | some s =>
    if s.vvTried (nKBucket, nKBucketPos) ≠ none then none else
    some { s with
      vvTried := update s.vvTried (nKBucket, nKBucketPos) (some nId)
      nTried := s.nTried + 1
      mapInfo := modifyInfo s.mapInfo nId fun info => { info with fInTried := true } }

/-- The search of `Good_` for a new bucket that holds `nId`, from bucket `nRnd`
on, wrapping around. -/
def inSomeNewBucket (h : BucketHash N) (s : CAddrMan N) (info : CAddrInfo N) (nId : Nat)
    (nRnd : Fin ADDRMAN_NEW_BUCKET_COUNT) : Bool :=
  (List.finRange ADDRMAN_NEW_BUCKET_COUNT).any fun n =>
    let nB : Fin ADDRMAN_NEW_BUCKET_COUNT := n + nRnd
    s.vvNew (nB, h.GetBucketPosition info.toCService true nB) = some nId

/-- `Good_(addr, nTime)`, with `nRnd = GetRandInt(ADDRMAN_NEW_BUCKET_COUNT)`:
record a successful connection and move the entry to the tried table. -/
def Good_ (h : BucketHash N) (s : CAddrMan N) (addr : CService N) (nTime : Int64)
    (nRnd : Fin ADDRMAN_NEW_BUCKET_COUNT) : Option (CAddrMan N) :=
  match s.Find addr.ip with
  | none => some s
  | some (nId, info) =>
    -- check whether we are talking about the exact same CService (including same port)
    if info.toCService ≠ addr then some s else
    let info := { info with nLastSuccess := nTime, nLastTry := nTime, nAttempts := 0 }
    let s := { s with mapInfo := s.mapInfo.insert nId info }
    if info.fInTried then some s else
    if s.inSomeNewBucket h info nId nRnd then s.MakeTried h info nId else some s

/-- The end of `Add_`: enter `nId` into the new cell that its address and
`source` hash to, unless the cell's entry is worth keeping; an entry left in no
cell is deleted. -/
def addToNew (h : BucketHash N) (s : CAddrMan N) (pinfo : CAddrInfo N) (nId : Nat) (source : N)
    (nNow : Int64) : Option (CAddrMan N) :=
  let nUBucket := h.GetNewBucket pinfo.ip source
  let nUBucketPos := h.GetBucketPosition pinfo.toCService true nUBucket
  if s.vvNew (nUBucket, nUBucketPos) = some nId then some s else
  let fInsert : Option Bool :=
    match s.vvNew (nUBucket, nUBucketPos) with
    | none => some true
    | some nIdExisting =>
      (s.mapInfo.find? nIdExisting).map fun infoExisting =>
        -- Overwrite the existing new table entry.
        infoExisting.IsTerrible nNow || (infoExisting.nRefCount > 1 && pinfo.nRefCount = 0)
  match fInsert with
  | none => none
  | some true =>
    match s.ClearNew nUBucket nUBucketPos with
    | none => none
    | some s =>
      some { s with
        mapInfo := modifyInfo s.mapInfo nId fun info => { info with nRefCount := info.nRefCount + 1 }
        vvNew := update s.vvNew (nUBucket, nUBucketPos) (some nId) }
  | some false => if pinfo.nRefCount = 0 then s.Delete nId else some s

/-- `Add_(addr, source, nTimePenalty)`, with the adjusted time `nNow` and
`nRand` the draw of `GetRandInt(nFactor)`; it returns whether a new entry was
created. -/
def Add_ (h : BucketHash N) (IsRoutable : N → Bool) (s : CAddrMan N) (addr : CAddress N) (source : N)
    (nTimePenalty nNow : Int64) (nRand : Nat) : Option (CAddrMan N × Bool) :=
  if !IsRoutable addr.ip then some (s, false) else
  match s.Find addr.ip with
  | some (nId, pinfo) =>
    -- periodically update nTime
    let fCurrentlyOnline := nNow - toInt64 addr.nTime < 24 * 60 * 60
    let nUpdateInterval : Int64 := if fCurrentlyOnline then 60 * 60 else 24 * 60 * 60
    let pinfo :=
      if addr.nTime ≠ 0 ∧ (pinfo.nTime = 0 ∨
          toInt64 pinfo.nTime < toInt64 addr.nTime - nUpdateInterval - nTimePenalty) then
        { pinfo with nTime := toUInt32 (max 0 (toInt64 addr.nTime - nTimePenalty)) }
      else pinfo
    -- add services
    let pinfo := { pinfo with nServices := pinfo.nServices ||| addr.nServices }
    let s := { s with mapInfo := s.mapInfo.insert nId pinfo }
    -- do not update if no new information is present
    if addr.nTime = 0 ∨ (pinfo.nTime ≠ 0 ∧ addr.nTime ≤ pinfo.nTime) then some (s, false)
    -- do not update if the entry was already in the "tried" table
    else if pinfo.fInTried then some (s, false)
    -- do not update if the max reference count is reached
    else if pinfo.nRefCount = ADDRMAN_NEW_BUCKETS_PER_ADDRESS then some (s, false)
    else
      -- stochastic test: previous nRefCount == N: 2^N times harder to increase it
      let nFactor : Nat := 2 ^ pinfo.nRefCount.toNat
      if nFactor > 1 ∧ nRand % nFactor ≠ 0 then some (s, false)
      else (s.addToNew h pinfo nId source nNow).map fun s => (s, false)
  | none =>
    -- the entry `Create` stores, at the end of `vRandom`, with `nTime` penalised
    let pinfo := { CAddrInfo.init addr source s.vRandom.length with
      nTime := toUInt32 (max 0 (toInt64 addr.nTime - nTimePenalty)) }
    let (s, nId) := s.Create addr source
    let s := { s with mapInfo := s.mapInfo.insert nId pinfo, nNew := s.nNew + 1 }
    (s.addToNew h pinfo nId source nNow).map fun s => (s, true)

/-- `Attempt_(addr, nTime)`: record a connection attempt. -/
def Attempt_ (s : CAddrMan N) (addr : CService N) (nTime : Int64) : CAddrMan N :=
  match s.Find addr.ip with
  | none => s
  | some (nId, info) =>
    if info.toCService ≠ addr then s else
    let info := { info with nLastTry := nTime, nAttempts := info.nAttempts + 1 }
    { s with mapInfo := s.mapInfo.insert nId info }

/-- `Connected_(addr, nTime)`: refresh `nTime` at most every twenty minutes. -/
def Connected_ (s : CAddrMan N) (addr : CService N) (nTime : Int64) : CAddrMan N :=
  match s.Find addr.ip with
  | none => s
  | some (nId, info) =>
    if info.toCService ≠ addr then s else
    let nUpdateInterval : Int64 := 20 * 60
    if nTime - toInt64 info.nTime > nUpdateInterval then
      { s with mapInfo := s.mapInfo.insert nId { info with nTime := toUInt32 nTime } }
    else s

/-- The loop of `GetAddr_` from slot `n`, with `rnd n` the draw of
`GetRandInt(vRandom.size() - n)`: a partial Fisher–Yates shuffle of `vRandom`
that returns the entries it meets that are not terrible, until `nNodes`. -/
def getAddrLoop (s : CAddrMan N) (nNodes : Nat) (nNow : Int64) (rnd : Nat → Nat)
    (vAddr : List (CAddress N)) (n : Nat) : Nat → Option (CAddrMan N × List (CAddress N))
  | 0 => some (s, vAddr)
  | k + 1 =>
    if vAddr.length ≥ nNodes then some (s, vAddr) else
    let nRndPos := rnd n % (s.vRandom.length - n) + n
    match s.SwapRandom n nRndPos with
    | none => none
    | some s =>
      match s.vRandom[n]? with
      | none => none
      | some nId =>
        match s.mapInfo.find? nId with
        | none => none
        | some ai =>
          let vAddr := if ai.IsTerrible nNow then vAddr else vAddr ++ [ai.toCAddress]
          getAddrLoop s nNodes nNow rnd vAddr (n + 1) k

/-- `nNodes` of `GetAddr_`: `ADDRMAN_GETADDR_MAX_PCT` percent of the entries, at
most `ADDRMAN_GETADDR_MAX`. -/
def getAddrCount (size : Nat) : Nat :=
  min (ADDRMAN_GETADDR_MAX_PCT * size / 100) ADDRMAN_GETADDR_MAX

/-- `GetAddr_(vAddr)`. -/
def GetAddr_ (s : CAddrMan N) (nNow : Int64) (rnd : Nat → Nat) :
    Option (CAddrMan N × List (CAddress N)) :=
  s.getAddrLoop (getAddrCount s.vRandom.length) nNow rnd [] 0 s.vRandom.length

end CAddrMan

/-- What `Select_` returns: the default `CAddrInfo()`, an entry, or nothing yet
because its loops were still running when the fuel ran out. -/
inductive Selected (N : Type) where
  | empty
  | entry (info : CAddrInfo N)
  | running

/-- A step `(x + insecure_rand()) % M` of the scan of `Select_`. The unsigned
sum wraps at `2 ^ 32`, a multiple of every bucket count, so the wrap does not
change the result; `r` is any draw. -/
def stepIndex {M : Nat} (x : Fin M) (r : Nat) : Fin M :=
  ⟨(x.val + r) % M, Nat.mod_lt _ (Fin.pos x)⟩

/-- `while (vv[b][p] == -1)` in `Select_`: step both indices until a cell holds
an id, one pass per unit of fuel, drawing from `rnd` at `i` on. -/
def scanTable {B S : Nat} (vv : Fin B × Fin S → Option Nat) (rnd : Nat → Nat) :
    Nat → Nat → Fin B → Fin S → Option (Nat × Nat)
  | 0, _, _, _ => none
  | fuel + 1, i, b, p =>
    match vv (b, p) with
    | some nId => some (nId, i)
    | none => scanTable vv rnd fuel (i + 2) (stepIndex b (rnd i)) (stepIndex p (rnd (i + 1)))

/-- The `while (1)` of `Select_` over one table: draw a cell, scan to one that
holds an id, and return its entry if `GetRandInt(1 << 30)` falls below
`fChanceFactor * GetChance() * (1 << 30)`, else raise `fChanceFactor` by `1.2`. -/
def selectLoop {B S : Nat} [NeZero B] [NeZero S] (vv : Fin B × Fin S → Option Nat)
    (mapInfo : SortedMap Nat (CAddrInfo N)) (nNow : Int64) (rnd : Nat → Nat) :
    Nat → Nat → Float → Option (Selected N)
  | 0, _, _ => some .running
  | fuel + 1, i, fChanceFactor =>
    match scanTable vv rnd fuel (i + 2) (Fin.ofNat B (rnd i)) (Fin.ofNat S (rnd (i + 1))) with
    | none => some .running
    | some (nId, j) =>
      match mapInfo.find? nId with
      | none => none
      | some info =>
        if Float.ofNat (rnd j % 2 ^ 30) < fChanceFactor * info.GetChance nNow * Float.ofNat (2 ^ 30)
        then some (.entry info)
        else selectLoop vv mapInfo nNow rnd fuel (j + 1) (fChanceFactor * 1.2)

instance : NeZero ADDRMAN_TRIED_BUCKET_COUNT := ⟨by decide⟩
instance : NeZero ADDRMAN_NEW_BUCKET_COUNT := ⟨by decide⟩
instance : NeZero ADDRMAN_BUCKET_SIZE := ⟨by decide⟩

/-- `Select_(newOnly)`, with `rnd` the random draws (`rnd 0` is
`GetRandInt(2)`) and `fuel` a bound on the passes of its loops. -/
def CAddrMan.Select_ (s : CAddrMan N) (newOnly : Bool) (nNow : Int64) (rnd : Nat → Nat)
    (fuel : Nat) : Option (Selected N) :=
  if s.size = 0 then some .empty
  else if newOnly ∧ s.nNew = 0 then some .empty
  -- Use a 50% chance for choosing between tried and new table entries.
  else if !newOnly ∧ s.nTried > 0 ∧ (s.nNew = 0 ∨ rnd 0 % 2 = 0) then
    selectLoop s.vvTried s.mapInfo nNow rnd fuel 1 1.0
  else selectLoop s.vvNew s.mapInfo nNow rnd fuel 1 1.0

end FairCoin.Ports.AddrMan
