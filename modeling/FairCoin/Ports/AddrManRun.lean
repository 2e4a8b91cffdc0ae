import Mathlib
import FairCoin.Ports.AddrManTables

/-!
# The address manager keeps its tables consistent

This module connects the operations of `CAddrMan` to `Tables`. A state is
consistent, `Wf`, when `vRandom` is a dense index of the entries (their
`nRandomPos` pointing back into it), the tables agree with the slots of the
entries (`Tables`), every new entry has between one and
`ADDRMAN_NEW_BUCKETS_PER_ADDRESS` references, and `nTried`, `nNew` count the
tried and the new entries: what `Check_` tests, without its checks on times.

Between the edits of one operation only `Core` (the dense index and `Tables`)
holds; the counts and bounds are restored by the end of each operation. Each
helper of addrman.cpp gets one lemma that says what it does to a `Core` state
(`swapRandom_spec`, `delete_spec`, `clearNew_spec`, ...), and the operations'
proofs are assembled from those.

## Main results

* `add_spec`, `good_spec`, `attempt_wf`, `connected_wf` — from a consistent
  state each operation fails no assert and leaves a consistent state; `Add_`
  reports a new entry exactly for a routable address that had none and removes
  no entry that is not terrible, and `Good_` moves the entry into its tried cell.
* `add_fresh_kept_iff` — the new entry that `Add_` reports is kept exactly when
  the new cell it hashes to is free, or holds an entry that is terrible or held
  by more than one cell.
-/

namespace FairCoin.Ports.AddrMan

open FairCoin.Verified FairCoin.Verified.DenseIndex FairCoin.Verified.CellCount Function

variable {N : Type}

/-- An entry without its position in `vRandom`. -/
def CAddrInfo.unplaced (info : CAddrInfo N) : CAddrInfo N := { info with nRandomPos := 0 }

/-- A tried entry counts one towards `nTried`. -/
def triedOne (e : Slots N) : Nat := if e.2.1 then 1 else 0

/-- A new entry counts one towards `nNew`. -/
def newOne (e : Slots N) : Nat := if e.2.1 then 0 else 1

@[simp] theorem slots_unplaced (info : CAddrInfo N) : info.unplaced.slots = info.slots := rfl

@[simp] theorem isTerrible_unplaced (info : CAddrInfo N) (nNow : Int64) :
    info.unplaced.IsTerrible nNow = info.IsTerrible nNow := rfl

@[simp] theorem toCAddress_unplaced (info : CAddrInfo N) :
    info.unplaced.toCAddress = info.toCAddress := rfl

/-- The entries of `mapInfo`, without their positions. -/
def entryOf (mapInfo : SortedMap Nat (CAddrInfo N)) (n : Nat) : Option (CAddrInfo N) :=
  (mapInfo.find? n).map CAddrInfo.unplaced

/-- The slots of the entries of `mapInfo`. -/
def slotsOf (mapInfo : SortedMap Nat (CAddrInfo N)) (n : Nat) : Option (Slots N) :=
  (mapInfo.find? n).map CAddrInfo.slots

/-- The positions in `vRandom` that the entries record. -/
def randomPos (mapInfo : SortedMap Nat (CAddrInfo N)) (n : Nat) : Option Nat :=
  (mapInfo.find? n).map CAddrInfo.nRandomPos

section Views

variable (m : SortedMap Nat (CAddrInfo N)) (k : Nat) (v : CAddrInfo N)

theorem slotsOf_insert : slotsOf (m.insert k v) = update (slotsOf m) k (some v.slots) := by
  funext n
  simp only [slotsOf, SortedMap.find?_insert, update_apply]
  split_ifs <;> rfl

theorem randomPos_insert :
    randomPos (m.insert k v) = update (randomPos m) k (some v.nRandomPos) := by
  funext n
  simp only [randomPos, SortedMap.find?_insert, update_apply]
  split_ifs <;> rfl

theorem entryOf_insert : entryOf (m.insert k v) = update (entryOf m) k (some v.unplaced) := by
  funext n
  simp only [entryOf, SortedMap.find?_insert, update_apply]
  split_ifs <;> rfl

theorem slotsOf_erase : slotsOf (m.erase k) = update (slotsOf m) k none := by
  funext n
  simp only [slotsOf, SortedMap.find?_erase, update_apply]
  split_ifs <;> rfl

theorem randomPos_erase : randomPos (m.erase k) = update (randomPos m) k none := by
  funext n
  simp only [randomPos, SortedMap.find?_erase, update_apply]
  split_ifs <;> rfl

theorem entryOf_erase : entryOf (m.erase k) = update (entryOf m) k none := by
  funext n
  simp only [entryOf, SortedMap.find?_erase, update_apply]
  split_ifs <;> rfl

theorem slotsOf_eq_of_entryOf {m' : SortedMap Nat (CAddrInfo N)} (hE : entryOf m' = entryOf m) :
    slotsOf m' = slotsOf m := by
  funext n
  have hComp : CAddrInfo.slots ∘ CAddrInfo.unplaced = (CAddrInfo.slots : CAddrInfo N → Slots N) :=
    rfl
  have hn := congrArg (Option.map CAddrInfo.slots) (congrFun hE n)
  simpa only [entryOf, slotsOf, Option.map_map, hComp] using hn

theorem slotsOf_eq_map_entryOf (n : Nat) : slotsOf m n = (entryOf m n).map CAddrInfo.slots := by
  simp only [slotsOf, entryOf, Option.map_map]
  rfl

theorem modifyInfo_of_find? {f : CAddrInfo N → CAddrInfo N} (hk : m.find? k = some v) :
    modifyInfo m k f = m.insert k (f v) := by
  simp only [modifyInfo, hk]

/-- A write replaces the old slots' share of a sum over the slots by the new one's. -/
theorem sumBy_insert_slots (f : Slots N → Nat) (v' : CAddrInfo N) (hk : m.find? k = some v) :
    (m.insert k v').sumBy (fun i => f i.slots) + f v.slots =
      m.sumBy (fun i => f i.slots) + f v'.slots := by
  have := m.sumBy_insert k v' fun i => f i.slots
  rw [hk] at this
  simpa using this

theorem sumBy_erase_slots (f : Slots N → Nat) (hk : m.find? k = some v) :
    (m.erase k).sumBy (fun i => f i.slots) + f v.slots = m.sumBy (fun i => f i.slots) := by
  have := m.sumBy_erase k fun i => f i.slots
  rw [hk] at this
  simpa using this

theorem sumBy_insert_fresh_slots (f : Slots N → Nat) (hk : m.find? k = none) :
    (m.insert k v).sumBy (fun i => f i.slots) = m.sumBy (fun i => f i.slots) + f v.slots := by
  have := m.sumBy_insert k v fun i => f i.slots
  rw [hk] at this
  simpa using this

end Views

theorem find?_of_slotsOf {m : SortedMap Nat (CAddrInfo N)} {n : Nat} {e : Slots N}
    (h : slotsOf m n = some e) : ∃ info, m.find? n = some info ∧ info.slots = e := by
  simpa [slotsOf] using h

/-- The slots of a new entry: its address, the new table and its references. -/
theorem slotsOf_of_new {m : SortedMap Nat (CAddrInfo N)} {n : Nat} {info : CAddrInfo N}
    (hFind : m.find? n = some info) (hNew : info.fInTried = false) :
    slotsOf m n = some (info.toCService, false, info.nRefCount) := by
  simp [slotsOf, hFind, CAddrInfo.slots, hNew]

/-- A write to an entry that keeps its `nRandomPos` keeps every position. -/
theorem randomPos_insert_of_find? {m : SortedMap Nat (CAddrInfo N)} {k : Nat}
    {v v' : CAddrInfo N} (hk : m.find? k = some v) (hPos : v'.nRandomPos = v.nRandomPos) :
    randomPos (m.insert k v') = randomPos m := by
  rw [randomPos_insert, hPos]
  exact update_eq_self_iff.mpr (by simp [randomPos, hk])

/-- An entry is found again under the same key after a write that keeps its
unplaced part. -/
theorem find?_of_entryOf {m m' : SortedMap Nat (CAddrInfo N)} {n : Nat} {info : CAddrInfo N}
    (hE : entryOf m' n = entryOf m n) (hFind : m.find? n = some info) :
    ∃ info', m'.find? n = some info' ∧ info'.unplaced = info.unplaced := by
  simp only [entryOf, hFind, Option.map_some, Option.map_eq_some_iff] at hE
  exact hE

/-- The slots and the unplaced entry of an id that a step leaves alone. -/
theorem find?_of_entryOf_eq {m m' : SortedMap Nat (CAddrInfo N)} {n : Nat} {info : CAddrInfo N}
    (hE : entryOf m' n = entryOf m n) (hFind : m.find? n = some info) :
    ∃ info', m'.find? n = some info' ∧ info'.slots = info.slots ∧ info'.unplaced = info.unplaced := by
  obtain ⟨info', hFind', hU⟩ := find?_of_entryOf hE hFind
  exact ⟨info', hFind', by rw [← slots_unplaced, hU, slots_unplaced], hU⟩

/-- Every entry of `m'` is an entry of `m` with the same address: no entry
appears and none changes its address. -/
def KeepsAddrs (m m' : SortedMap Nat (CAddrInfo N)) : Prop :=
  ∀ n e, slotsOf m' n = some e → ∃ e₀, slotsOf m n = some e₀ ∧ e₀.1 = e.1

theorem keepsAddrs_refl (m : SortedMap Nat (CAddrInfo N)) : KeepsAddrs m m :=
  fun _ e hn => ⟨e, hn, rfl⟩

theorem KeepsAddrs.trans {m₁ m₂ m₃ : SortedMap Nat (CAddrInfo N)} (h₁ : KeepsAddrs m₁ m₂)
    (h₂ : KeepsAddrs m₂ m₃) : KeepsAddrs m₁ m₃ := by
  intro n e hn
  obtain ⟨e₂, hn₂, he₂⟩ := h₂ n e hn
  obtain ⟨e₁, hn₁, he₁⟩ := h₁ n e₂ hn₂
  exact ⟨e₁, hn₁, he₁.trans he₂⟩

/-- A write to an entry that keeps its address. -/
theorem keepsAddrs_insert {m : SortedMap Nat (CAddrInfo N)} {k : Nat} {v v' : CAddrInfo N}
    (hk : m.find? k = some v) (hv : v'.toCService = v.toCService) : KeepsAddrs m (m.insert k v') := by
  intro n e hn
  rw [slotsOf_insert] at hn
  by_cases hnk : n = k
  · subst hnk
    rw [update_self, Option.some.injEq] at hn
    exact ⟨v.slots, by simp [slotsOf, hk], by rw [← hn]; exact hv.symm⟩
  · rw [update_of_ne hnk] at hn
    exact ⟨e, hn, rfl⟩

/-- Entries kept as they were or removed. -/
theorem keepsAddrs_of_entryOf {m m' : SortedMap Nat (CAddrInfo N)}
    (hE : ∀ n, entryOf m' n = entryOf m n ∨ entryOf m' n = none) : KeepsAddrs m m' := by
  intro n e hn
  rw [slotsOf_eq_map_entryOf] at hn
  rcases hE n with hn' | hn'
  · rw [hn'] at hn
    exact ⟨e, by rw [slotsOf_eq_map_entryOf]; exact hn, rfl⟩
  · rw [hn'] at hn
    cases hn

theorem keepsAddrs_of_entryOf_update {m m' : SortedMap Nat (CAddrInfo N)} {k : Nat}
    (hE : entryOf m' = update (entryOf m) k none) : KeepsAddrs m m' := by
  apply keepsAddrs_of_entryOf
  intro n
  rw [hE]
  by_cases hnk : n = k
  · simp [hnk]
  · simp [hnk]

variable [LinearOrder N] {h : BucketHash N}

theorem mapAddr_find?_erase (mapAddr : SortedMap N Nat) (x : N) :
    (mapAddr.erase x).find? = update mapAddr.find? x none := by
  funext y
  simp only [SortedMap.find?_erase, update_apply]

theorem mapAddr_find?_insert (mapAddr : SortedMap N Nat) (x : N) (n : Nat) :
    (mapAddr.insert x n).find? = update mapAddr.find? x (some n) := by
  funext y
  simp only [SortedMap.find?_insert, update_apply]

/-- The dense index and the agreement of the tables: what holds between any
two edits of an operation. -/
structure Core (h : BucketHash N) (s : CAddrMan N) : Prop where
  dense : Dense s.vRandom (randomPos s.mapInfo)
  tables : Tables h (slotsOf s.mapInfo) s.mapAddr.find? s.nIdCount s.vvTried s.vvNew

/-- The consistency `Check_` tests, without its checks on times: `Core`, the
bounds on the counts of new entries, and the counters. -/
structure Wf (h : BucketHash N) (s : CAddrMan N) : Prop extends Core h s where
  bounded : ∀ n, BoundedAt (slotsOf s.mapInfo) n
  nTried : s.nTried = s.mapInfo.sumBy fun info => triedOne info.slots
  nNew : s.nNew = s.mapInfo.sumBy fun info => newOne info.slots

namespace CAddrMan

/-- The list `SwapRandom` leaves: slots `i` and `j` exchanged. -/
def swapped (v : List Nat) (i j : Nat) : List Nat :=
  match v[i]?, v[j]? with
  | some a, some b => (v.set i b).set j a
  | _, _ => v

section Swapped

variable {v : List Nat} {i j : Nat} (hi : i < v.length) (hj : j < v.length)
include hi hj

theorem swapped_eq : swapped v i j = (v.set i v[j]).set j v[i] := by
  simp [swapped, List.getElem?_eq_getElem hi, List.getElem?_eq_getElem hj]

omit hi hj in
@[simp] theorem length_swapped (v : List Nat) (i j : Nat) : (swapped v i j).length = v.length := by
  unfold swapped
  split <;> simp

theorem getElem?_swapped_right : (swapped v i j)[j]? = v[i]? := by
  rw [swapped_eq hi hj, List.getElem?_set_self (by simpa using hj), List.getElem?_eq_getElem hi]

/-- The slots before both swapped ones are left alone. -/
theorem take_swapped {n : Nat} (hn : n ≤ i) (hn' : n ≤ j) : (swapped v i j).take n = v.take n := by
  rw [swapped_eq hi hj]
  exact take_set_set hn hn' _ _ v

end Swapped

/-- `SwapRandom` on a dense index exchanges two slots and the positions their
entries record; every entry keeps everything else. -/
theorem swapRandom_spec {s : CAddrMan N} (hd : Dense s.vRandom (randomPos s.mapInfo)) {i j : Nat}
    (hi : i < s.vRandom.length) (hj : j < s.vRandom.length) :
    ∃ mapInfo, s.SwapRandom i j = some { s with mapInfo, vRandom := swapped s.vRandom i j } ∧
      Dense (swapped s.vRandom i j) (randomPos mapInfo) ∧ entryOf mapInfo = entryOf s.mapInfo ∧
      ∀ f : Slots N → Nat,
        mapInfo.sumBy (fun info => f info.slots) = s.mapInfo.sumBy fun info => f info.slots := by
  obtain ⟨a, ha⟩ : ∃ a, s.vRandom[i]? = some a := ⟨_, List.getElem?_eq_getElem hi⟩
  obtain ⟨b, hb⟩ : ∃ b, s.vRandom[j]? = some b := ⟨_, List.getElem?_eq_getElem hj⟩
  have hSwapped : swapped s.vRandom i j = (s.vRandom.set i b).set j a := by
    simp only [swapped, ha, hb]
  by_cases hij : i = j
  · -- `SwapRandom` returns at once; setting a slot to its own key changes nothing
    subst hij
    have hGet : s.vRandom[i] = a := by simpa [List.getElem?_eq_getElem hi] using ha
    have hSame : (s.vRandom.set i b).set i a = s.vRandom := by
      rw [List.set_set, ← hGet, List.set_getElem_self]
    refine ⟨s.mapInfo, ?_, ?_, rfl, fun _ => rfl⟩
    · simp [SwapRandom, hSwapped, hSame]
    · rwa [hSwapped, hSame]
  have hPa : randomPos s.mapInfo a = some i := hd.pos_eq ha
  have hPb : randomPos s.mapInfo b = some j := hd.pos_eq hb
  simp only [randomPos, Option.map_eq_some_iff] at hPa hPb
  obtain ⟨ia, hia, -⟩ := hPa
  obtain ⟨ib, hib, -⟩ := hPb
  have hab : a ≠ b := fun hEq => hij (hd.slot_inj ha (hEq ▸ hb))
  set m₁ := s.mapInfo.insert a { ia with nRandomPos := j } with hm₁
  have hm₁b : m₁.find? b = some ib := by
    rw [hm₁, SortedMap.find?_insert_of_ne _ _ (Ne.symm hab)]
    exact hib
  refine ⟨m₁.insert b { ib with nRandomPos := i }, ?_, ?_, ?_, ?_⟩
  · have hContains : s.mapInfo.contains a = true ∧ s.mapInfo.contains b = true := by
      simp [SortedMap.contains_iff_find?_isSome, hia, hib]
    simp only [SwapRandom, hij, if_false, ha, hb, hContains, and_self, if_true,
      modifyInfo_of_find? _ _ _ hia, ← hm₁, modifyInfo_of_find? _ _ _ hm₁b, hSwapped]
  · rw [hSwapped, randomPos_insert, hm₁, randomPos_insert]
    exact hd.swap ha hb
  · have hEa : entryOf s.mapInfo a = some ia.unplaced := by simp [entryOf, hia]
    have hEb : entryOf s.mapInfo b = some ib.unplaced := by simp [entryOf, hib]
    rw [entryOf_insert, hm₁, entryOf_insert]
    simp only [CAddrInfo.unplaced] at hEa hEb ⊢
    rw [← hEa, update_eq_self, ← hEb, update_eq_self]
  · intro f
    have h₁ := sumBy_insert_slots s.mapInfo a ia f { ia with nRandomPos := j } hia
    have h₂ := sumBy_insert_slots m₁ b ib f { ib with nRandomPos := i } hm₁b
    have e₁ : ({ ia with nRandomPos := j } : CAddrInfo N).slots = ia.slots := rfl
    have e₂ : ({ ib with nRandomPos := i } : CAddrInfo N).slots = ib.slots := rfl
    rw [e₁, ← hm₁] at h₁
    rw [e₂] at h₂
    omega

/-- `Delete` of a new entry with no reference: it leaves `vRandom`,
`mapInfo` and `mapAddr`, and `nNew` goes down by one. -/
theorem delete_spec {s : CAddrMan N} (hc : Core h s) {nId : Nat} {info : CAddrInfo N}
    (hFind : s.mapInfo.find? nId = some info) (hNew : info.fInTried = false)
    (hRef : info.nRefCount = 0) :
    ∃ mapInfo vRandom,
      s.Delete nId = some { s with mapInfo, vRandom, mapAddr := s.mapAddr.erase info.ip,
                                   nNew := s.nNew - 1 } ∧
      Core h { s with mapInfo, vRandom, mapAddr := s.mapAddr.erase info.ip, nNew := s.nNew - 1 } ∧
      entryOf mapInfo = update (entryOf s.mapInfo) nId none ∧
      ∀ f : Slots N → Nat,
        mapInfo.sumBy (fun i => f i.slots) + f info.slots = s.mapInfo.sumBy fun i => f i.slots := by
  have hPos : randomPos s.mapInfo nId = some info.nRandomPos := by simp [randomPos, hFind]
  have hLt := hc.dense.pos_lt hPos
  have hLast : s.vRandom.length - 1 < s.vRandom.length := by omega
  obtain ⟨m₁, hSwap, hDense₁, hEntry₁, hSum₁⟩ := swapRandom_spec hc.dense hLt hLast
  set v₁ := swapped s.vRandom info.nRandomPos (s.vRandom.length - 1) with hv₁
  have hGetLast : v₁.getLast? = some nId := by
    rw [List.getLast?_eq_getElem?, hv₁, length_swapped, getElem?_swapped_right hLt hLast]
    exact hc.dense.getElem?_eq hPos
  have hNonempty : v₁ ≠ [] := by
    intro hNil
    rw [hNil] at hGetLast
    cases hGetLast
  obtain ⟨info₁, hFind₁, hUnplaced₁⟩ := find?_of_entryOf (congrFun hEntry₁ nId) hFind
  have hSlots₁ : info₁.slots = info.slots := by
    rw [← slots_unplaced, hUnplaced₁, slots_unplaced]
  refine ⟨m₁.erase nId, v₁.dropLast, ?_, ⟨?_, ?_⟩, ?_, ?_⟩
  · simp only [Delete, hFind, hNew, hRef, Bool.false_eq_true, ne_eq, not_true_eq_false,
      or_self, if_false, hSwap, hNonempty]
  · rw [randomPos_erase]
    exact hDense₁.pop hGetLast
  · have hSlots : slotsOf s.mapInfo nId = some (info.toCService, false, 0) := by
      simp [slotsOf, hFind, CAddrInfo.slots, hNew, hRef]
    rw [slotsOf_erase, slotsOf_eq_of_entryOf _ hEntry₁, mapAddr_find?_erase]
    exact hc.tables.delete hSlots
  · rw [entryOf_erase, hEntry₁]
  · intro f
    have := sumBy_erase_slots m₁ nId info₁ f hFind₁
    rw [hSlots₁] at this
    rw [← hSum₁ f]
    exact this

/-- What `ClearNew` on cell `c` does to a state whose tables agree: the cell
is emptied; the entry it held loses one reference, and is deleted if that was
its last; no other entry, cell or counter changes. -/
structure ClearedNew (h : BucketHash N) (s s' : CAddrMan N) (c : NewCell) : Prop where
  core : Core h s'
  vvNew : s'.vvNew = update s.vvNew c none
  vvTried : s'.vvTried = s.vvTried
  nIdCount : s'.nIdCount = s.nIdCount
  nTried : s'.nTried = s.nTried
  entries : ∀ n, s.vvNew c ≠ some n → entryOf s'.mapInfo n = entryOf s.mapInfo n
  lastRef : ∀ n, s.vvNew c = some n → entryOf s'.mapInfo n = none →
    ∃ a, slotsOf s.mapInfo n = some (a, false, 1)
  bounded : ∀ n, BoundedAt (slotsOf s.mapInfo) n → BoundedAt (slotsOf s'.mapInfo) n
  countTried : s'.mapInfo.sumBy (fun i => triedOne i.slots) =
    s.mapInfo.sumBy fun i => triedOne i.slots
  countNew : s'.nNew - (s'.mapInfo.sumBy fun i => newOne i.slots : Nat) =
    s.nNew - (s.mapInfo.sumBy fun i => newOne i.slots : Nat)
  addrs : KeepsAddrs s.mapInfo s'.mapInfo

theorem clearedNew_refl {s : CAddrMan N} (hc : Core h s) {c : NewCell} (hc' : s.vvNew c = none) :
    ClearedNew h s s c where
  core := hc
  vvNew := by rw [← hc', update_eq_self]
  vvTried := rfl
  nIdCount := rfl
  nTried := rfl
  entries _ _ := rfl
  lastRef n hn := by rw [hc'] at hn; cases hn
  bounded _ hb := hb
  countTried := rfl
  countNew := rfl
  addrs := keepsAddrs_refl _

theorem clearNew_spec {s : CAddrMan N} (hc : Core h s) (c : NewCell) :
    ∃ s', s.ClearNew c.1 c.2 = some s' ∧ ClearedNew h s s' c := by
  cases hCell : s.vvNew c with
  | none =>
    refine ⟨s, ?_, clearedNew_refl hc hCell⟩
    simp [ClearNew, hCell]
  | some x =>
    obtain ⟨a, r, hSlots, -⟩ := hc.tables.newCells c x hCell
    obtain ⟨info, hFind, hInfo⟩ := find?_of_slotsOf hSlots
    simp only [CAddrInfo.slots, Prod.mk.injEq] at hInfo
    obtain ⟨rfl, hNewX, rfl⟩ := hInfo
    have hPos : 0 < cellCount s.vvNew x := by
      rw [Nat.pos_iff_ne_zero, Ne, cellCount_eq_zero_iff]
      exact fun hNone => hNone c hCell
    have hRefEq := hc.tables.refNew x _ _ hSlots
    have hGuard : ¬ info.nRefCount ≤ 0 := by omega
    obtain ⟨s₁, hs₁⟩ : ∃ s₁ : CAddrMan N, s₁ = { s with
        mapInfo := s.mapInfo.insert x { info with nRefCount := info.nRefCount - 1 }
        vvNew := update s.vvNew c none } := ⟨_, rfl⟩
    have hStep : s.ClearNew c.1 c.2 = if info.nRefCount - 1 = 0 then s₁.Delete x else some s₁ := by
      simp only [ClearNew, hCell, hFind, hGuard, if_false, hs₁]
    have hFind₁ : s₁.mapInfo.find? x = some { info with nRefCount := info.nRefCount - 1 } := by
      simp [hs₁]
    have hEntry₁ : ∀ n, n ≠ x → entryOf s₁.mapInfo n = entryOf s.mapInfo n := by
      intro n hn
      rw [hs₁, entryOf_insert, update_of_ne hn]
    have hSlots₁ : slotsOf s₁.mapInfo =
        update (slotsOf s.mapInfo) x (some (info.toCService, false, info.nRefCount - 1)) := by
      rw [hs₁, slotsOf_insert]
      simp [CAddrInfo.slots, hNewX]
    have hCore₁ : Core h s₁ := by
      refine ⟨?_, ?_⟩
      · simpa only [hs₁, randomPos_insert_of_find? hFind] using hc.dense
      · rw [hSlots₁, hs₁]
        exact hc.tables.clearCell hCell hSlots
    have hSum₁ : ∀ f : Slots N → Nat,
        f (info.toCService, false, info.nRefCount - 1) = f (info.toCService, false, info.nRefCount) →
        s₁.mapInfo.sumBy (fun i => f i.slots) = s.mapInfo.sumBy fun i => f i.slots := by
      intro f hf
      have := sumBy_insert_slots s.mapInfo x info f
        { info with nRefCount := info.nRefCount - 1 } hFind
      have e₁ : ({ info with nRefCount := info.nRefCount - 1 } : CAddrInfo N).slots =
          (info.toCService, false, info.nRefCount - 1) := by
        simp [CAddrInfo.slots, hNewX]
      have e₀ : info.slots = (info.toCService, false, info.nRefCount) := by
        simp [CAddrInfo.slots, hNewX]
      rw [e₁, e₀, hf] at this
      rw [hs₁]
      dsimp only
      omega
    have hKeep₁ : KeepsAddrs s.mapInfo s₁.mapInfo := by
      rw [hs₁]
      exact keepsAddrs_insert hFind rfl
    by_cases hLast : info.nRefCount - 1 = 0
    · -- the last reference: `Delete`
      obtain ⟨m₂, v₂, hDel, hCore₂, hEntry₂, hSum₂⟩ := delete_spec hCore₁ hFind₁ hNewX hLast
      rw [hStep, if_pos hLast, hDel]
      refine ⟨_, rfl, hCore₂, by rw [hs₁], by rw [hs₁], by rw [hs₁], by rw [hs₁], ?_, ?_, ?_, ?_, ?_,
        hKeep₁.trans (keepsAddrs_of_entryOf_update hEntry₂)⟩
      · intro n hn
        have hnx : n ≠ x := by
          rintro rfl
          exact hn hCell
        show entryOf m₂ n = _
        rw [hEntry₂, update_of_ne hnx, hEntry₁ n hnx]
      · intro n hn _
        obtain rfl : x = n := Option.some.inj (hCell.symm.trans hn)
        refine ⟨info.toCService, ?_⟩
        rw [hSlots]
        simp only [Option.some.injEq, Prod.mk.injEq, true_and]
        omega
      · intro n hb a' r' hn
        change slotsOf m₂ n = _ at hn
        rw [slotsOf_eq_map_entryOf, hEntry₂] at hn
        by_cases hnx : n = x
        · simp [hnx] at hn
        · rw [update_of_ne hnx, ← slotsOf_eq_map_entryOf, hSlots₁, update_of_ne hnx] at hn
          exact hb a' r' hn
      · have h₂ := hSum₂ triedOne
        have h₁ := hSum₁ triedOne rfl
        have hZero : triedOne ({ info with nRefCount := info.nRefCount - 1 } : CAddrInfo N).slots = 0 := by
          simp [triedOne, CAddrInfo.slots, hNewX]
        show m₂.sumBy _ = _
        omega
      · have h₂ := hSum₂ newOne
        have h₁ := hSum₁ newOne rfl
        have hOne : newOne ({ info with nRefCount := info.nRefCount - 1 } : CAddrInfo N).slots = 1 := by
          simp [newOne, CAddrInfo.slots, hNewX]
        show s₁.nNew - 1 - ((m₂.sumBy _ : Nat) : Int) = _
        rw [hs₁]
        dsimp only
        omega
    · -- references remain: the entry stays, with one fewer
      rw [hStep, if_neg hLast]
      refine ⟨s₁, rfl, hCore₁, by rw [hs₁], by rw [hs₁], by rw [hs₁], by rw [hs₁], ?_, ?_, ?_,
        hSum₁ _ rfl, ?_, hKeep₁⟩
      · intro n hn
        apply hEntry₁ n
        rintro rfl
        exact hn hCell
      · intro n hn hNone
        obtain rfl : x = n := Option.some.inj (hCell.symm.trans hn)
        simp [entryOf, hFind₁] at hNone
      · intro n hb a' r' hn
        rw [hSlots₁] at hn
        by_cases hnx : n = x
        · subst hnx
          simp only [update_self, Option.some.injEq, Prod.mk.injEq] at hn
          obtain ⟨-, -, rfl⟩ := hn
          have := hb _ _ hSlots
          omega
        · rw [update_of_ne hnx] at hn
          exact hb a' r' hn
      · rw [hSum₁ _ rfl, hs₁]

/-- A write to an entry that keeps its slots and its position keeps `Wf`:
the statistics `Good_`, `Attempt_`, `Connected_` and `Add_` update. -/
theorem wf_insert_stats {s : CAddrMan N} (hw : Wf h s) {n : Nat} {info info' : CAddrInfo N}
    (hFind : s.mapInfo.find? n = some info) (hSlots : info'.slots = info.slots)
    (hPos : info'.nRandomPos = info.nRandomPos) :
    Wf h { s with mapInfo := s.mapInfo.insert n info' } := by
  have hS : slotsOf (s.mapInfo.insert n info') = slotsOf s.mapInfo := by
    rw [slotsOf_insert, hSlots]
    exact update_eq_self_iff.mpr (by simp [slotsOf, hFind])
  have hR : randomPos (s.mapInfo.insert n info') = randomPos s.mapInfo :=
    randomPos_insert_of_find? hFind hPos
  have hT := sumBy_insert_slots s.mapInfo n info triedOne info' hFind
  have hN := sumBy_insert_slots s.mapInfo n info newOne info' hFind
  rw [hSlots] at hT hN
  refine ⟨⟨?_, ?_⟩, ?_, ?_, ?_⟩
  · simpa only [hR] using hw.dense
  · simpa only [hS] using hw.tables
  · simpa only [hS] using hw.bounded
  · simp only [hw.nTried]
    omega
  · simp only [hw.nNew]
    omega

/-- An empty new cell at a new entry's position filled with it, its count
raised by one. -/
theorem core_fill {s : CAddrMan N} (hc : Core h s) {c : NewCell} {m : Nat} {info : CAddrInfo N}
    (hCell : s.vvNew c = none) (hFind : s.mapInfo.find? m = some info) (hNew : info.fInTried = false)
    (hPos : c.2 = newPos h info.toCService c.1) {r' : Int} (hr' : r' = info.nRefCount + 1) :
    Core h { s with mapInfo := s.mapInfo.insert m { info with nRefCount := r' }
                    vvNew := update s.vvNew c (some m) } := by
  refine ⟨?_, ?_⟩
  · simpa only [randomPos_insert_of_find? hFind] using hc.dense
  · have hS : slotsOf (s.mapInfo.insert m { info with nRefCount := r' }) =
        update (slotsOf s.mapInfo) m (some (info.toCService, false, info.nRefCount + 1)) := by
      rw [slotsOf_insert, hr']
      simp [CAddrInfo.slots, hNew]
    simpa only [hS] using hc.tables.fillCell hCell (slotsOf_of_new hFind hNew) hPos

/-- What the eviction block of `MakeTried` does to tried cell `k` of a state
whose tables agree: the cell is emptied, its entry goes back to the new table
with one reference, the counters stay balanced, and a new entry with no
reference (the one being moved) is left alone. -/
structure Evicted (h : BucketHash N) (s s' : CAddrMan N) (k : TriedCell) : Prop where
  core : Core h s'
  cell : s'.vvTried k = none
  nIdCount : s'.nIdCount = s.nIdCount
  idle : ∀ n a, slotsOf s.mapInfo n = some (a, false, 0) →
    entryOf s'.mapInfo n = entryOf s.mapInfo n
  bounded : ∀ n, BoundedAt (slotsOf s.mapInfo) n → BoundedAt (slotsOf s'.mapInfo) n
  countTried : s'.nTried - (s'.mapInfo.sumBy fun i => triedOne i.slots : Nat) =
    s.nTried - (s.mapInfo.sumBy fun i => triedOne i.slots : Nat)
  countNew : s'.nNew - (s'.mapInfo.sumBy fun i => newOne i.slots : Nat) =
    s.nNew - (s.mapInfo.sumBy fun i => newOne i.slots : Nat)
  evicted : ∀ e, s.vvTried k = some e → ∃ a, slotsOf s'.mapInfo e = some (a, false, 1)

theorem evictTried_spec {s : CAddrMan N} (hc : Core h s) (k : TriedCell) :
    ∃ s', s.evictTried h k.1 k.2 = some s' ∧ Evicted h s s' k := by
  cases hCell : s.vvTried k with
  | none =>
    refine ⟨s, by simp [evictTried, hCell], hc, hCell, rfl, fun _ _ _ => rfl, fun _ hb => hb,
      rfl, rfl, ?_⟩
    intro e he
    rw [hCell] at he
    cases he
  | some e =>
    obtain ⟨a, r, hSlots, hk⟩ := hc.tables.triedCells k e hCell
    have hr : r = 0 := (hc.tables.tried e a r hSlots).1
    subst hr
    obtain ⟨infoOld, hFind, hInfo⟩ := find?_of_slotsOf hSlots
    simp only [CAddrInfo.slots, Prod.mk.injEq] at hInfo
    obtain ⟨rfl, hTriedOld, hRefOld⟩ := hInfo
    obtain ⟨s₁, hs₁⟩ : ∃ s₁ : CAddrMan N, s₁ = { s with
        mapInfo := s.mapInfo.insert e { infoOld with fInTried := false }
        vvTried := update s.vvTried k none
        nTried := s.nTried - 1 } := ⟨_, rfl⟩
    have hSlots₁ : slotsOf s₁.mapInfo = update (slotsOf s.mapInfo) e
        (some (infoOld.toCService, false, 0)) := by
      rw [hs₁, slotsOf_insert]
      simp [CAddrInfo.slots, hRefOld]
    have hCore₁ : Core h s₁ := by
      refine ⟨?_, ?_⟩
      · simpa only [hs₁, randomPos_insert_of_find? hFind] using hc.dense
      · rw [hSlots₁, hs₁]
        dsimp only
        rw [hk]
        exact hc.tables.untry hSlots
    have hEntry₁ : ∀ n, n ≠ e → entryOf s₁.mapInfo n = entryOf s.mapInfo n := by
      intro n hn
      rw [hs₁, entryOf_insert, update_of_ne hn]
    have hIdle₁ : slotsOf s₁.mapInfo e = some (infoOld.toCService, false, 0) := by
      rw [hSlots₁, update_self]
    set c : NewCell := (h.GetNewBucket infoOld.ip infoOld.source,
      h.GetBucketPosition infoOld.toCService true (h.GetNewBucket infoOld.ip infoOld.source)) with hc'
    obtain ⟨s₂, hClear, hCleared⟩ := clearNew_spec hCore₁ c
    have hNotE : s₁.vvNew c ≠ some e :=
      hCore₁.tables.not_mem_new hIdle₁ c
    obtain ⟨infoOld₂, hFind₂, hSlots₂, hU₂⟩ :=
      find?_of_entryOf_eq (hCleared.entries e hNotE)
        (show s₁.mapInfo.find? e = some { infoOld with fInTried := false } by simp [hs₁])
    have hSlotsOld₂ : infoOld₂.slots = (infoOld.toCService, false, 0) := by
      rw [hSlots₂]
      show ((infoOld.toCService, false, infoOld.nRefCount) : Slots N) = _
      rw [hRefOld]
    simp only [CAddrInfo.slots, Prod.mk.injEq] at hSlotsOld₂
    obtain ⟨hAddr₂, hTried₂, hRef₂⟩ := hSlotsOld₂
    have hEmpty₂ : s₂.vvNew c = none := by rw [hCleared.vvNew, update_self]
    have hCore₃ := core_fill hCleared.core hEmpty₂ hFind₂ hTried₂
      (by rw [hAddr₂]; rfl) (show (1 : Int) = infoOld₂.nRefCount + 1 by omega)
    have hClear' : s₁.ClearNew (h.GetNewBucket infoOld.ip infoOld.source)
        (h.GetBucketPosition infoOld.toCService true (h.GetNewBucket infoOld.ip infoOld.source)) =
        some s₂ := hClear
    have hEvict : s.evictTried h k.1 k.2 = some { s₂ with
        mapInfo := s₂.mapInfo.insert e { infoOld₂ with nRefCount := 1 }
        vvNew := update s₂.vvNew c (some e)
        nNew := s₂.nNew + 1 } := by
      simp only [evictTried, hCell, hFind, ← hs₁, hClear', ← hc', hEmpty₂, ne_eq,
        not_true_eq_false, if_false, modifyInfo_of_find? _ _ _ hFind₂]
    have hSlots₃ : slotsOf (s₂.mapInfo.insert e { infoOld₂ with nRefCount := 1 }) =
        update (slotsOf s₂.mapInfo) e (some (infoOld.toCService, false, 1)) := by
      rw [slotsOf_insert]
      simp [CAddrInfo.slots, hAddr₂, hTried₂]
    have hT₃ := sumBy_insert_slots s₂.mapInfo e infoOld₂ triedOne
      { infoOld₂ with nRefCount := 1 } hFind₂
    have hN₃ := sumBy_insert_slots s₂.mapInfo e infoOld₂ newOne
      { infoOld₂ with nRefCount := 1 } hFind₂
    have hT₁ := sumBy_insert_slots s.mapInfo e infoOld triedOne
      { infoOld with fInTried := false } hFind
    have hN₁ := sumBy_insert_slots s.mapInfo e infoOld newOne
      { infoOld with fInTried := false } hFind
    have vT₀ : triedOne infoOld.slots = 1 := by simp [triedOne, CAddrInfo.slots, hTriedOld]
    have vN₀ : newOne infoOld.slots = 0 := by simp [newOne, CAddrInfo.slots, hTriedOld]
    have vT₁ : triedOne ({ infoOld with fInTried := false } : CAddrInfo N).slots = 0 := by
      simp [triedOne, CAddrInfo.slots]
    have vN₁ : newOne ({ infoOld with fInTried := false } : CAddrInfo N).slots = 1 := by
      simp [newOne, CAddrInfo.slots]
    have vT₂ : triedOne ({ infoOld₂ with nRefCount := 1 } : CAddrInfo N).slots =
        triedOne infoOld₂.slots := rfl
    have vN₂ : newOne ({ infoOld₂ with nRefCount := 1 } : CAddrInfo N).slots =
        newOne infoOld₂.slots := rfl
    rw [vT₀, vT₁] at hT₁
    rw [vN₀, vN₁] at hN₁
    rw [vT₂] at hT₃
    rw [vN₂] at hN₃
    have hm₁ : s₁.mapInfo = s.mapInfo.insert e { infoOld with fInTried := false } := by rw [hs₁]
    have hnT₁ : s₁.nTried = s.nTried - 1 := by rw [hs₁]
    have hnN₁ : s₁.nNew = s.nNew := by rw [hs₁]
    refine ⟨_, hEvict, ?_, ?_, ?_, ?_, ?_, ?_, ?_, ?_⟩
    · exact ⟨hCore₃.dense, hCore₃.tables⟩
    · show s₂.vvTried k = none
      simp [hCleared.vvTried, hs₁]
    · show s₂.nIdCount = s.nIdCount
      rw [hCleared.nIdCount, hs₁]
    · intro n a' hn
      have hne : n ≠ e := by
        rintro rfl
        rw [hSlots] at hn
        cases hn
      have hn₁ : slotsOf s₁.mapInfo n = some (a', false, 0) := by
        rw [hSlots₁, update_of_ne hne, hn]
      have hNotN : s₁.vvNew c ≠ some n :=
        hCore₁.tables.not_mem_new hn₁ c
      show entryOf (s₂.mapInfo.insert e _) n = _
      rw [entryOf_insert, update_of_ne hne, hCleared.entries n hNotN, hEntry₁ n hne]
    · intro n hb a' r' hn
      change slotsOf (s₂.mapInfo.insert e _) n = _ at hn
      rw [hSlots₃] at hn
      by_cases hne : n = e
      · subst hne
        simp only [update_self, Option.some.injEq, Prod.mk.injEq] at hn
        obtain ⟨-, -, rfl⟩ := hn
        exact ⟨le_refl 1, by decide⟩
      · rw [update_of_ne hne] at hn
        refine hCleared.bounded n ?_ a' r' hn
        intro a'' r'' hn₁
        rw [hSlots₁, update_of_ne hne] at hn₁
        exact hb a'' r'' hn₁
    · show s₂.nTried - ((s₂.mapInfo.insert e _).sumBy _ : Nat) = _
      have hC := hCleared.countTried
      have hN := hCleared.nTried
      rw [hm₁] at hC
      omega
    · show s₂.nNew + 1 - ((s₂.mapInfo.insert e _).sumBy _ : Nat) = _
      have hC := hCleared.countNew
      rw [hm₁, hnN₁] at hC
      omega
    · intro e' he'
      rw [hCell] at he'
      obtain rfl := Option.some.inj he'
      refine ⟨infoOld.toCService, ?_⟩
      show slotsOf (s₂.mapInfo.insert e _) e = _
      rw [hSlots₃, update_self]

/-- The loop of `MakeTried` over the new buckets clears every new cell of the
entry and leaves its count at zero. -/
theorem makeTried_loop {s : CAddrMan N} (hc : Core h s) {nId : Nat} {info : CAddrInfo N}
    (hFind : s.mapInfo.find? nId = some info) (hNew : info.fInTried = false) :
    (List.finRange ADDRMAN_NEW_BUCKET_COUNT).foldl
      (clearStep (fun bucket : Fin ADDRMAN_NEW_BUCKET_COUNT =>
        h.GetBucketPosition info.toCService true bucket) nId) (s.vvNew, info.nRefCount) =
      (purge s.vvNew nId, 0) := by
  have hSlots : slotsOf s.mapInfo nId = some (info.toCService, false, info.nRefCount) :=
    slotsOf_of_new hFind hNew
  have hPos : ∀ c : NewCell, s.vvNew c = some nId → c.2 = h.GetBucketPosition info.toCService true c.1 := by
    intro c hc'
    obtain ⟨a, r, hSlots', hPos⟩ := hc.tables.newCells c nId hc'
    rw [hSlots] at hSlots'
    simp only [Option.some.injEq, Prod.mk.injEq] at hSlots'
    rw [hPos, ← hSlots'.1]
    rfl
  rw [foldl_clearStep _ nId _ (List.nodup_finRange _) (List.mem_finRange) _ hPos,
    ← hc.tables.refNew nId _ _ hSlots, sub_self]

/-- `MakeTried` moves a new entry of a consistent state to its tried cell: the
result is consistent, the entry is tried there with no reference, and the entry
it displaces goes back to the new table with one reference. -/
theorem makeTried_spec {s : CAddrMan N} (hw : Wf h s) {nId : Nat} {info : CAddrInfo N}
    (hFind : s.mapInfo.find? nId = some info) (hNew : info.fInTried = false) :
    ∃ s', s.MakeTried h info nId = some s' ∧ Wf h s' ∧
      entryOf s'.mapInfo nId = some { info with nRefCount := 0, fInTried := true }.unplaced ∧
      s'.vvTried (triedCell h info.toCService) = some nId ∧
      ∀ e, s.vvTried (triedCell h info.toCService) = some e →
        ∃ a, slotsOf s'.mapInfo e = some (a, false, 1) := by
  have hLoop := makeTried_loop hw.toCore hFind hNew
  have hSlots : slotsOf s.mapInfo nId = some (info.toCService, false, info.nRefCount) :=
    slotsOf_of_new hFind hNew
  obtain ⟨s₁, hs₁⟩ : ∃ s₁ : CAddrMan N, s₁ = { s with
      vvNew := purge s.vvNew nId
      mapInfo := s.mapInfo.insert nId { info with nRefCount := 0 }
      nNew := s.nNew - 1 } := ⟨_, rfl⟩
  have hSlots₁ : slotsOf s₁.mapInfo = update (slotsOf s.mapInfo) nId
      (some (info.toCService, false, 0)) := by
    rw [hs₁, slotsOf_insert]
    simp [CAddrInfo.slots, hNew]
  have hCore₁ : Core h s₁ := by
    refine ⟨?_, ?_⟩
    · simpa only [hs₁, randomPos_insert_of_find? hFind] using hw.dense
    · rw [hSlots₁, hs₁]
      exact hw.tables.purge hSlots
  have hIdle₁ : slotsOf s₁.mapInfo nId = some (info.toCService, false, 0) := by
    rw [hSlots₁, update_self]
  obtain ⟨s₂, hEvict, hEv⟩ := evictTried_spec hCore₁ (triedCell h info.toCService)
  have hEntry₂ := hEv.idle nId _ hIdle₁
  obtain ⟨info₂, hFind₂, hSlotsInfo₂, hU₂⟩ := find?_of_entryOf_eq hEntry₂
    (show s₁.mapInfo.find? nId = some { info with nRefCount := 0 } by simp [hs₁])
  have hSl₂ : info₂.slots = (info.toCService, false, 0) := by
    rw [hSlotsInfo₂]
    simp [CAddrInfo.slots, hNew]
  have hSlots₂ : slotsOf s₂.mapInfo nId = some (info.toCService, false, 0) := by
    simp [slotsOf, hFind₂, hSl₂]
  have hTried₂ : info₂.fInTried = false := congrArg (fun e : Slots N => e.2.1) hSl₂
  have hEvict' : s₁.evictTried h (h.GetTriedBucket info.toCService)
      (h.GetBucketPosition info.toCService false (h.GetTriedBucket info.toCService)) = some s₂ :=
    hEvict
  have hCell₂ : s₂.vvTried (h.GetTriedBucket info.toCService,
      h.GetBucketPosition info.toCService false (h.GetTriedBucket info.toCService)) = none :=
    hEv.cell
  have hMake : s.MakeTried h info nId = some { s₂ with
      vvTried := update s₂.vvTried (triedCell h info.toCService) (some nId)
      nTried := s₂.nTried + 1
      mapInfo := s₂.mapInfo.insert nId { info₂ with fInTried := true } } := by
    simp only [MakeTried, hLoop, modifyInfo_of_find? _ _ _ hFind, ne_eq, not_true_eq_false,
      if_false, ← hs₁, hEvict', hCell₂, modifyInfo_of_find? _ _ _ hFind₂]
    rfl
  refine ⟨_, hMake, ⟨⟨?_, ?_⟩, ?_, ?_, ?_⟩, ?_, by simp, ?_⟩
  · simpa only [randomPos_insert_of_find? hFind₂] using hEv.core.dense
  · have hS : slotsOf (s₂.mapInfo.insert nId { info₂ with fInTried := true }) =
        update (slotsOf s₂.mapInfo) nId (some (info.toCService, true, 0)) := by
      rw [slotsOf_insert]
      have : ({ info₂ with fInTried := true } : CAddrInfo N).slots = (info.toCService, true, 0) := by
        have h₁ := congrArg Prod.fst hSl₂
        have h₃ := congrArg (fun e : Slots N => e.2.2) hSl₂
        simp only [CAddrInfo.slots] at h₁ h₃ ⊢
        rw [h₁, h₃]
      rw [this]
    simpa only [hS] using hEv.core.tables.promote hSlots₂ hEv.cell
  · intro n a r hn
    change slotsOf (s₂.mapInfo.insert nId _) n = _ at hn
    rw [slotsOf_insert] at hn
    by_cases hnId : n = nId
    · subst hnId
      simp [CAddrInfo.slots] at hn
    · rw [update_of_ne hnId] at hn
      refine hEv.bounded n ?_ a r hn
      intro a' r' hn₁
      rw [hSlots₁, update_of_ne hnId] at hn₁
      exact hw.bounded n a' r' hn₁
  · -- the entry now counts as tried
    have hT := sumBy_insert_slots s₂.mapInfo nId info₂ triedOne { info₂ with fInTried := true } hFind₂
    have hT₁ := sumBy_insert_slots s.mapInfo nId info triedOne { info with nRefCount := 0 } hFind
    have v₁ : triedOne info₂.slots = 0 := by simp [triedOne, CAddrInfo.slots, hTried₂]
    have v₂ : triedOne ({ info₂ with fInTried := true } : CAddrInfo N).slots = 1 := by
      simp [triedOne, CAddrInfo.slots]
    have v₃ : triedOne ({ info with nRefCount := 0 } : CAddrInfo N).slots = triedOne info.slots := rfl
    rw [v₁, v₂] at hT
    rw [v₃] at hT₁
    have hC := hEv.countTried
    have hm₁ : s₁.mapInfo = s.mapInfo.insert nId { info with nRefCount := 0 } := by rw [hs₁]
    have hn₁ : s₁.nTried = s.nTried := by rw [hs₁]
    rw [hm₁, hn₁, hw.nTried] at hC
    show s₂.nTried + 1 = ((s₂.mapInfo.insert nId _).sumBy _ : Nat)
    omega
  · -- and no longer as new
    have hN := sumBy_insert_slots s₂.mapInfo nId info₂ newOne { info₂ with fInTried := true } hFind₂
    have hN₁ := sumBy_insert_slots s.mapInfo nId info newOne { info with nRefCount := 0 } hFind
    have v₁ : newOne info₂.slots = 1 := by simp [newOne, CAddrInfo.slots, hTried₂]
    have v₂ : newOne ({ info₂ with fInTried := true } : CAddrInfo N).slots = 0 := by
      simp [newOne, CAddrInfo.slots]
    have v₃ : newOne ({ info with nRefCount := 0 } : CAddrInfo N).slots = newOne info.slots := rfl
    rw [v₁, v₂] at hN
    rw [v₃] at hN₁
    have hC := hEv.countNew
    have hm₁ : s₁.mapInfo = s.mapInfo.insert nId { info with nRefCount := 0 } := by rw [hs₁]
    have hn₁ : s₁.nNew = s.nNew - 1 := by rw [hs₁]
    rw [hm₁, hn₁, hw.nNew] at hC
    show s₂.nNew = ((s₂.mapInfo.insert nId _).sumBy _ : Nat)
    omega
  · show entryOf (s₂.mapInfo.insert nId _) nId = _
    rw [entryOf_insert, update_self]
    have e₁ : ({ info₂ with fInTried := true } : CAddrInfo N).unplaced =
        { info₂.unplaced with fInTried := true } := rfl
    rw [e₁, hU₂]
    rfl
  · intro e he
    have hne : e ≠ nId := by
      rintro rfl
      obtain ⟨a, r, hSl, -⟩ := hw.tables.triedCells _ e he
      rw [hSlots] at hSl
      cases hSl
    have he₁ : s₁.vvTried (triedCell h info.toCService) = some e := by rw [hs₁]; exact he
    obtain ⟨a, ha⟩ := hEv.evicted e he₁
    refine ⟨a, ?_⟩
    show slotsOf (s₂.mapInfo.insert nId _) e = _
    rw [slotsOf_insert, update_of_ne hne, ha]

theorem find_eq_some_iff {s : CAddrMan N} {x : N} {nId : Nat} {info : CAddrInfo N} :
    s.Find x = some (nId, info) ↔ s.mapAddr.find? x = some nId ∧ s.mapInfo.find? nId = some info := by
  unfold Find
  cases hx : s.mapAddr.find? x with
  | none => simp
  | some n =>
    simp only [Option.map_eq_some_iff, Prod.mk.injEq, Option.some.injEq]
    constructor
    · rintro ⟨i, hi, rfl, rfl⟩
      exact ⟨rfl, hi⟩
    · rintro ⟨rfl, hi⟩
      exact ⟨info, hi, rfl, rfl⟩

/-- The search of `Good_` finds a bucket holding a new entry of a consistent
state, from whichever bucket it starts. -/
theorem inSomeNewBucket_of_new {s : CAddrMan N} (hw : Wf h s) {nId : Nat} {info : CAddrInfo N}
    (hFind : s.mapInfo.find? nId = some info) (hNew : info.fInTried = false)
    (nRnd : Fin ADDRMAN_NEW_BUCKET_COUNT) : s.inSomeNewBucket h info nId nRnd = true := by
  have hSlots : slotsOf s.mapInfo nId = some (info.toCService, false, info.nRefCount) :=
    slotsOf_of_new hFind hNew
  have hOne := (hw.bounded nId _ _ hSlots).1
  have hCount := hw.tables.refNew nId _ _ hSlots
  obtain ⟨c, hc⟩ := exists_of_cellCount_pos (show 0 < cellCount s.vvNew nId by omega)
  obtain ⟨a, r, hSlots', hPos⟩ := hw.tables.newCells c nId hc
  rw [hSlots] at hSlots'
  simp only [Option.some.injEq, Prod.mk.injEq] at hSlots'
  unfold inSomeNewBucket
  rw [List.any_eq_true]
  refine ⟨c.1 - nRnd, List.mem_finRange _, ?_⟩
  have hCell : (c.1, h.GetBucketPosition info.toCService true c.1) = c := by
    rw [hSlots'.1]
    exact Prod.ext rfl hPos.symm
  simp only [sub_add_cancel, hCell, hc, decide_true]

/-- `Good_` on a consistent state succeeds and keeps it consistent. When the
stored entry of the address is the same service, that entry ends in the
tried table, at its tried cell, with the connection recorded, and the entry
that held the cell before goes back to the new table with one reference. -/
theorem good_spec {s : CAddrMan N} (hw : Wf h s) (addr : CService N) (nTime : Int64)
    (nRnd : Fin ADDRMAN_NEW_BUCKET_COUNT) :
    ∃ s', s.Good_ h addr nTime nRnd = some s' ∧ Wf h s' ∧
      ∀ nId info, s.Find addr.ip = some (nId, info) → info.toCService = addr →
        entryOf s'.mapInfo nId = some ({ info with
          nLastSuccess := nTime
          nLastTry := nTime
          nAttempts := 0
          nRefCount := 0
          fInTried := true } : CAddrInfo N).unplaced ∧
        s'.vvTried (triedCell h addr) = some nId ∧
        ∀ e, e ≠ nId → s.vvTried (triedCell h addr) = some e →
          ∃ a, slotsOf s'.mapInfo e = some (a, false, 1) := by
  rcases hF : s.Find addr.ip with _ | ⟨nId, info⟩
  · refine ⟨s, by simp [Good_, hF], hw, ?_⟩
    intro nId info hF'
    cases hF'
  obtain ⟨-, hFind⟩ := find_eq_some_iff.mp hF
  by_cases hEq : info.toCService = addr
  swap
  · refine ⟨s, by simp [Good_, hF, hEq], hw, ?_⟩
    intro nId' info' hF' hEq'
    obtain ⟨rfl, rfl⟩ := Prod.mk.inj (Option.some.inj hF')
    exact absurd hEq' hEq
  subst hEq
  obtain ⟨info', hInfo'⟩ : ∃ i : CAddrInfo N,
      i = { info with nLastSuccess := nTime, nLastTry := nTime, nAttempts := 0 } := ⟨_, rfl⟩
  obtain ⟨s₁, hs₁⟩ : ∃ s₁ : CAddrMan N, s₁ = { s with mapInfo := s.mapInfo.insert nId info' } :=
    ⟨_, rfl⟩
  have hGood : s.Good_ h info.toCService nTime nRnd =
      if info.fInTried then some s₁
      else if s₁.inSomeNewBucket h info' nId nRnd then s₁.MakeTried h info' nId else some s₁ := by
    subst hInfo' hs₁
    simp only [Good_, hF, ne_eq, not_true_eq_false, if_false]
  have hw₁ : Wf h s₁ := hs₁ ▸ wf_insert_stats hw hFind (hInfo' ▸ rfl) (hInfo' ▸ rfl)
  have hFind₁ : s₁.mapInfo.find? nId = some info' := by simp [hs₁]
  have hTried' : info'.fInTried = info.fInTried := by rw [hInfo']
  have hSlots : slotsOf s.mapInfo nId = some (info.toCService, info.fInTried, info.nRefCount) := by
    simp [slotsOf, hFind, CAddrInfo.slots]
  have hOnly : ∀ nId' info'', some (nId, info) = some (nId', info'') → nId = nId' ∧ info = info'' :=
    fun _ _ hF' => Prod.mk.inj (Option.some.inj hF')
  cases hTried : info.fInTried with
  | true =>
    -- already tried: only the statistics change
    obtain ⟨hRef, hCell⟩ := hw.tables.tried nId _ _ (hTried ▸ hSlots)
    refine ⟨s₁, by rw [hGood, hTried, if_pos rfl], hw₁, ?_⟩
    intro nId' info'' hF' _
    obtain ⟨rfl, rfl⟩ := hOnly _ _ hF'
    refine ⟨?_, by rw [hs₁]; exact hCell, ?_⟩
    · rw [hs₁, entryOf_insert, update_self, hInfo', ← hRef, ← hTried]
    · intro e he hCell'
      rw [hCell] at hCell'
      exact absurd (Option.some.inj hCell').symm he
  | false =>
    have hSearch := inSomeNewBucket_of_new hw₁ hFind₁ (hTried' ▸ hTried) nRnd
    obtain ⟨s', hMake, hw', hEntry, hCell, hEvicted⟩ :=
      makeTried_spec hw₁ hFind₁ (hTried' ▸ hTried)
    refine ⟨s', ?_, hw', ?_⟩
    · rw [hGood, hTried, if_neg Bool.false_ne_true, hSearch, if_pos rfl, hMake]
    · intro nId' info'' hF' _
      obtain ⟨rfl, rfl⟩ := hOnly _ _ hF'
      have hAddr : info'.toCService = info.toCService := by rw [hInfo']
      rw [hAddr] at hCell hEvicted
      refine ⟨by rw [hEntry, hInfo'], hCell, fun e _ he => hEvicted e ?_⟩
      rw [hs₁]
      exact he

/-- What the end of `Add_` does for entry `nId` of a state whose tables agree:
the tables stay in agreement and the counters balanced, entry `nId` ends in
bounds or deleted, the other entries keep their bounds, and an entry other than
`nId` that is not terrible is kept. -/
structure AddedToNew (h : BucketHash N) (s s' : CAddrMan N) (nId : Nat) (nNow : Int64) : Prop where
  core : Core h s'
  nIdCount : s'.nIdCount = s.nIdCount
  nTried : s'.nTried = s.nTried
  countTried : s'.mapInfo.sumBy (fun i => triedOne i.slots) =
    s.mapInfo.sumBy fun i => triedOne i.slots
  countNew : s'.nNew - (s'.mapInfo.sumBy fun i => newOne i.slots : Nat) =
    s.nNew - (s.mapInfo.sumBy fun i => newOne i.slots : Nat)
  bounded : ∀ n, n ≠ nId → BoundedAt (slotsOf s.mapInfo) n → BoundedAt (slotsOf s'.mapInfo) n
  boundedSelf : BoundedAt (slotsOf s'.mapInfo) nId
  kept : ∀ n info, s.mapInfo.find? n = some info → n ≠ nId → info.IsTerrible nNow = false →
    (s'.mapInfo.find? n).isSome
  keptSelf : ∀ info, s.mapInfo.find? nId = some info → info.nRefCount ≠ 0 →
    (s'.mapInfo.find? nId).isSome
  addrs : KeepsAddrs s.mapInfo s'.mapInfo

theorem addedToNew_refl {s : CAddrMan N} (hc : Core h s) {nId : Nat} {nNow : Int64}
    (hSelf : BoundedAt (slotsOf s.mapInfo) nId) : AddedToNew h s s nId nNow where
  core := hc
  nIdCount := rfl
  nTried := rfl
  countTried := rfl
  countNew := rfl
  bounded _ _ hb := hb
  boundedSelf := hSelf
  kept _ _ hFind _ _ := by simp [hFind]
  keptSelf _ hFind _ := by simp [hFind]
  addrs := keepsAddrs_refl _

/-- The insertion branch of `addToNew`: after `ClearNew` on the cell the entry
takes it, with one more reference. -/
theorem addedToNew_insert {s s₂ : CAddrMan N} (hc : Core h s) {c : NewCell} (hCl : ClearedNew h s s₂ c)
    {nId : Nat} {pinfo : CAddrInfo N} {nNow : Int64} (hFind : s.mapInfo.find? nId = some pinfo)
    (hNew : pinfo.fInTried = false) (hRef : pinfo.nRefCount < ADDRMAN_NEW_BUCKETS_PER_ADDRESS)
    (hNotMine : s.vvNew c ≠ some nId) (hPos : c.2 = newPos h pinfo.toCService c.1)
    (hVictim : ∀ x info, s.vvNew c = some x → s.mapInfo.find? x = some info →
      info.IsTerrible nNow = false → 1 < info.nRefCount) :
    AddedToNew h s { s₂ with
      mapInfo := modifyInfo s₂.mapInfo nId fun info => { info with nRefCount := info.nRefCount + 1 }
      vvNew := update s₂.vvNew c (some nId) } nId nNow := by
  have hSlots : slotsOf s.mapInfo nId = some (pinfo.toCService, false, pinfo.nRefCount) :=
    slotsOf_of_new hFind hNew
  have hNonneg : 0 ≤ pinfo.nRefCount := by
    rw [hc.tables.refNew nId _ _ hSlots]
    omega
  obtain ⟨p₂, hFind₂, hSl₂, -⟩ := find?_of_entryOf_eq (hCl.entries nId hNotMine) hFind
  have hSl₂' : p₂.slots = (pinfo.toCService, false, pinfo.nRefCount) := by
    rw [hSl₂]
    simp [CAddrInfo.slots, hNew]
  simp only [CAddrInfo.slots, Prod.mk.injEq] at hSl₂'
  obtain ⟨hAddr₂, hNew₂, hRef₂⟩ := hSl₂'
  have hEmpty : s₂.vvNew c = none := by rw [hCl.vvNew, update_self]
  have hCore := core_fill hCl.core hEmpty hFind₂ hNew₂ (by rw [hAddr₂]; exact hPos) rfl
  have hS₃ : slotsOf (s₂.mapInfo.insert nId { p₂ with nRefCount := p₂.nRefCount + 1 }) =
      update (slotsOf s₂.mapInfo) nId (some (pinfo.toCService, false, pinfo.nRefCount + 1)) := by
    rw [slotsOf_insert]
    simp [CAddrInfo.slots, hAddr₂, hNew₂, hRef₂]
  have hT := sumBy_insert_slots s₂.mapInfo nId p₂ triedOne
    { p₂ with nRefCount := p₂.nRefCount + 1 } hFind₂
  have hN := sumBy_insert_slots s₂.mapInfo nId p₂ newOne
    { p₂ with nRefCount := p₂.nRefCount + 1 } hFind₂
  have vT : triedOne ({ p₂ with nRefCount := p₂.nRefCount + 1 } : CAddrInfo N).slots =
      triedOne p₂.slots := rfl
  have vN : newOne ({ p₂ with nRefCount := p₂.nRefCount + 1 } : CAddrInfo N).slots =
      newOne p₂.slots := rfl
  rw [vT] at hT
  rw [vN] at hN
  rw [modifyInfo_of_find? _ _ _ hFind₂]
  refine ⟨hCore, hCl.nIdCount, hCl.nTried, ?_, ?_, ?_, ?_, ?_, fun _ _ _ => by simp,
    hCl.addrs.trans (keepsAddrs_insert hFind₂ rfl)⟩
  · show (s₂.mapInfo.insert nId _).sumBy _ = _
    rw [← hCl.countTried]
    omega
  · show s₂.nNew - ((s₂.mapInfo.insert nId _).sumBy _ : Nat) = _
    rw [← hCl.countNew]
    omega
  · intro n hn hb a r hSl
    change slotsOf (s₂.mapInfo.insert nId _) n = _ at hSl
    rw [hS₃, update_of_ne hn] at hSl
    exact hCl.bounded n hb a r hSl
  · intro a r hSl
    change slotsOf (s₂.mapInfo.insert nId _) nId = _ at hSl
    rw [hS₃, update_self] at hSl
    simp only [Option.some.injEq, Prod.mk.injEq] at hSl
    obtain ⟨-, -, rfl⟩ := hSl
    unfold ADDRMAN_NEW_BUCKETS_PER_ADDRESS at hRef ⊢
    omega
  · intro n info hFindN hn hTerr
    show ((s₂.mapInfo.insert nId _).find? n).isSome
    rw [SortedMap.find?_insert_of_ne _ _ hn]
    by_cases hx : s.vvNew c = some n
    · -- the entry in the cell keeps a reference unless it was terrible
      have hMany := hVictim n info hx hFindN hTerr
      by_contra hGone
      have hGone' : entryOf s₂.mapInfo n = none := by
        simpa [entryOf] using hGone
      obtain ⟨a, ha⟩ := hCl.lastRef n hx hGone'
      have : info.nRefCount = 1 := by
        simp only [slotsOf, hFindN, Option.map_some, Option.some.injEq, CAddrInfo.slots,
          Prod.mk.injEq] at ha
        exact ha.2.2
      omega
    · obtain ⟨i', hi', -⟩ := find?_of_entryOf (hCl.entries n hx) hFindN
      simp [hi']

/-- When `addToNew` keeps an entry that has no reference: the entry in the new
cell it hashes to, if any, is terrible or held by more than one cell. -/
def CellYields (h : BucketHash N) (s : CAddrMan N) (pinfo : CAddrInfo N) (source : N)
    (nNow : Int64) : Prop :=
  ∀ x info, s.vvNew (h.GetNewBucket pinfo.ip source,
      h.GetBucketPosition pinfo.toCService true (h.GetNewBucket pinfo.ip source)) = some x →
    s.mapInfo.find? x = some info → info.IsTerrible nNow = false → 1 < info.nRefCount

/-- The end of `Add_` for an entry with fewer than
`ADDRMAN_NEW_BUCKETS_PER_ADDRESS` references; the entry survives exactly when it
has a reference or its cell yields. -/
theorem addToNew_spec {s : CAddrMan N} (hc : Core h s) {nId : Nat} {pinfo : CAddrInfo N}
    (hFind : s.mapInfo.find? nId = some pinfo) (hNew : pinfo.fInTried = false)
    (hRef : pinfo.nRefCount < ADDRMAN_NEW_BUCKETS_PER_ADDRESS) (source : N) (nNow : Int64) :
    ∃ s', s.addToNew h pinfo nId source nNow = some s' ∧ AddedToNew h s s' nId nNow ∧
      ((s'.mapInfo.find? nId).isSome = true ↔
        pinfo.nRefCount ≠ 0 ∨ CellYields h s pinfo source nNow) := by
  have hSlots : slotsOf s.mapInfo nId = some (pinfo.toCService, false, pinfo.nRefCount) :=
    slotsOf_of_new hFind hNew
  have hCount := hc.tables.refNew nId _ _ hSlots
  have hSame : pinfo.nRefCount ≠ 0 → s.addToNew h pinfo nId source nNow = some s →
      ∃ s', s.addToNew h pinfo nId source nNow = some s' ∧ AddedToNew h s s' nId nNow ∧
        ((s'.mapInfo.find? nId).isSome = true ↔
          pinfo.nRefCount ≠ 0 ∨ CellYields h s pinfo source nNow) := by
    intro hNZ hAdd
    refine ⟨s, hAdd, addedToNew_refl hc ?_, by simp [hFind, hNZ]⟩
    intro a r hSl
    rw [hSlots] at hSl
    simp only [Option.some.injEq, Prod.mk.injEq] at hSl
    obtain ⟨-, -, rfl⟩ := hSl
    unfold ADDRMAN_NEW_BUCKETS_PER_ADDRESS at hRef ⊢
    omega
  set c : NewCell := (h.GetNewBucket pinfo.ip source,
    h.GetBucketPosition pinfo.toCService true (h.GetNewBucket pinfo.ip source)) with hc'
  have hPos : c.2 = newPos h pinfo.toCService c.1 := rfl
  by_cases hMine : s.vvNew c = some nId
  · -- already in that cell, which is a reference
    have hPosCount : 0 < cellCount s.vvNew nId := by
      rw [Nat.pos_iff_ne_zero, Ne, cellCount_eq_zero_iff]
      exact fun hNone => hNone c hMine
    exact hSame (by omega) (by simp only [addToNew, ← hc', hMine, if_true])
  have hInsert : ∀ s₂, ClearedNew h s s₂ c → CellYields h s pinfo source nNow →
      s.addToNew h pinfo nId source nNow = some { s₂ with
        mapInfo := modifyInfo s₂.mapInfo nId fun info => { info with nRefCount := info.nRefCount + 1 }
        vvNew := update s₂.vvNew c (some nId) } →
      ∃ s', s.addToNew h pinfo nId source nNow = some s' ∧ AddedToNew h s s' nId nNow ∧
        ((s'.mapInfo.find? nId).isSome = true ↔
          pinfo.nRefCount ≠ 0 ∨ CellYields h s pinfo source nNow) := by
    intro s₂ hCl hYields hAdd
    obtain ⟨p₂, hFind₂, -⟩ := find?_of_entryOf (hCl.entries nId hMine) hFind
    refine ⟨_, hAdd, addedToNew_insert hc hCl hFind hNew hRef hMine hPos hYields,
      iff_of_true ?_ (Or.inr hYields)⟩
    simp [find?_modifyInfo, hFind₂]
  obtain ⟨s₂, hClear, hCl⟩ := clearNew_spec hc c
  have hClear' : s.ClearNew (h.GetNewBucket pinfo.ip source)
      (h.GetBucketPosition pinfo.toCService true (h.GetNewBucket pinfo.ip source)) = some s₂ :=
    hClear
  cases hCell : s.vvNew c with
  | none =>
    refine hInsert s₂ hCl (fun x _ hx => by rw [← hc', hCell] at hx; cases hx) ?_
    simp only [addToNew, ← hc', hCell, reduceCtorEq, if_false, hClear']
  | some x =>
    obtain ⟨a, r, hSlX, -⟩ := hc.tables.newCells c x hCell
    obtain ⟨ix, hFindX, -⟩ := find?_of_slotsOf hSlX
    have hx : x ≠ nId := fun hEq => hMine (hEq ▸ hCell)
    cases hOver : (ix.IsTerrible nNow || (decide (ix.nRefCount > 1) && decide (pinfo.nRefCount = 0))) with
    | true =>
      refine hInsert s₂ hCl ?_ ?_
      · intro x' info hx' hFind' hTerr
        obtain rfl : x = x' := Option.some.inj (hCell.symm.trans hx')
        rw [hFindX] at hFind'
        obtain rfl := Option.some.inj hFind'
        simp only [hTerr, Bool.false_or, Bool.and_eq_true, decide_eq_true_eq] at hOver
        exact hOver.1
      · simp only [addToNew, ← hc', hCell, Option.some.injEq, hx, if_false, hFindX,
          Option.map_some, hOver, hClear']
    | false =>
      have hAdd : s.addToNew h pinfo nId source nNow =
          if pinfo.nRefCount = 0 then s.Delete nId else some s := by
        simp only [addToNew, ← hc', hCell, Option.some.injEq, hx, if_false, hFindX,
          Option.map_some, hOver]
      by_cases hZero : pinfo.nRefCount = 0
      · -- the new entry finds no cell: `Delete`
        obtain ⟨m₂, v₂, hDel, hCore₂, hEntry₂, hSum₂⟩ := delete_spec hc hFind hNew hZero
        have hGone : (m₂.find? nId).isSome = false := by
          have := congrFun hEntry₂ nId
          simpa [entryOf] using this
        have hStays : ¬ CellYields h s pinfo source nNow := by
          intro hYields
          simp only [hZero, decide_true, Bool.and_true, Bool.or_eq_false_iff,
            decide_eq_false_iff_not] at hOver
          exact hOver.2 (hYields x ix hCell hFindX hOver.1)
        rw [hAdd, if_pos hZero, hDel]
        refine ⟨_, rfl, ⟨hCore₂, rfl, rfl, ?_, ?_, ?_, ?_, ?_, ?_,
          keepsAddrs_of_entryOf_update hEntry₂⟩, ?_⟩
        · have vT : triedOne pinfo.slots = 0 := by simp [triedOne, CAddrInfo.slots, hNew]
          have := hSum₂ triedOne
          rw [vT, add_zero] at this
          exact this
        · have vN : newOne pinfo.slots = 1 := by simp [newOne, CAddrInfo.slots, hNew]
          have := hSum₂ newOne
          rw [vN] at this
          show s.nNew - 1 - ((m₂.sumBy _ : Nat) : Int) = _
          omega
        · intro n hn hb a' r' hSl
          change slotsOf m₂ n = _ at hSl
          rw [slotsOf_eq_map_entryOf, hEntry₂, update_of_ne hn, ← slotsOf_eq_map_entryOf] at hSl
          exact hb a' r' hSl
        · intro a' r' hSl
          change slotsOf m₂ nId = _ at hSl
          simp [slotsOf_eq_map_entryOf, hEntry₂] at hSl
        · intro n info hFindN hn _
          have hE := congrFun hEntry₂ n
          rw [update_of_ne hn] at hE
          obtain ⟨i', hi', -⟩ := find?_of_entryOf hE hFindN
          simp [hi']
        · intro info hFindN hRef'
          obtain rfl := Option.some.inj (hFind.symm.trans hFindN)
          exact absurd hZero hRef'
        · show (m₂.find? nId).isSome = true ↔ _
          rw [hGone]
          simp [hZero, hStays]
      · exact hSame hZero (by rw [hAdd, if_neg hZero])

/-- The consistency of the state after `addToNew`, from the counts and the
bounds of the other entries before it. -/
theorem AddedToNew.wf {s s' : CAddrMan N} {nId : Nat} {nNow : Int64}
    (hA : AddedToNew h s s' nId nNow) (hB : ∀ n, n ≠ nId → BoundedAt (slotsOf s.mapInfo) n)
    (hT : s.nTried = s.mapInfo.sumBy fun i => triedOne i.slots)
    (hN : s.nNew = s.mapInfo.sumBy fun i => newOne i.slots) : Wf h s' where
  toCore := hA.core
  bounded n := by
    by_cases hn : n = nId
    · exact hn ▸ hA.boundedSelf
    · exact hA.bounded n hn (hB n hn)
  nTried := by rw [hA.nTried, hT, hA.countTried]
  nNew := by
    have := hA.countNew
    omega

/-- The state `s₁` after the creation step of `Add_` for an address that no
entry of `s` has: the fresh id `s.nIdCount` holds `pinfo`, a new entry with no
reference, listed last in `vRandom` and counted in `nNew`; the other entries and
the tables are as they were. -/
structure Created (h : BucketHash N) (s s₁ : CAddrMan N) (pinfo : CAddrInfo N) : Prop where
  core : Core h s₁
  fresh : s.mapInfo.find? s.nIdCount = none
  findSelf : s₁.mapInfo.find? s.nIdCount = some pinfo
  findOther : ∀ n, n ≠ s.nIdCount → s₁.mapInfo.find? n = s.mapInfo.find? n
  sum : ∀ f : Slots N → Nat,
    s₁.mapInfo.sumBy (fun i => f i.slots) = s.mapInfo.sumBy (fun i => f i.slots) + f pinfo.slots
  nTried : s₁.nTried = s.nTried
  nNew : s₁.nNew = s.nNew + 1
  vvNew : s₁.vvNew = s.vvNew

theorem create_spec {s : CAddrMan N} (hw : Wf h s) {addr : CAddress N} (source : N)
    (hNone : s.Find addr.ip = none) (t : UInt32) :
    Created h s { (s.Create addr source).1 with
      mapInfo := (s.Create addr source).1.mapInfo.insert s.nIdCount
        { CAddrInfo.init addr source s.vRandom.length with nTime := t }
      nNew := s.nNew + 1 } { CAddrInfo.init addr source s.vRandom.length with nTime := t } := by
  have hFresh : s.mapInfo.find? s.nIdCount = none := by
    cases hF : s.mapInfo.find? s.nIdCount with
    | none => rfl
    | some i =>
      have := hw.tables.fresh s.nIdCount i.slots (by simp [slotsOf, hF])
      omega
  have hAddr : s.mapAddr.find? addr.ip = none := by
    cases hA : s.mapAddr.find? addr.ip with
    | none => rfl
    | some n =>
      obtain ⟨e, he, -⟩ := (hw.tables.addr addr.ip n).mp hA
      obtain ⟨i, hi, -⟩ := find?_of_slotsOf he
      simp [Find, hA, hi] at hNone
  have hF₀ : (s.mapInfo.insert s.nIdCount (CAddrInfo.init addr source s.vRandom.length)).find?
      s.nIdCount = some (CAddrInfo.init addr source s.vRandom.length) := by simp
  refine ⟨⟨?_, ?_⟩, hFresh, by simp, ?_, ?_, rfl, rfl, rfl⟩
  · -- `Create` pushes the fresh id; the second write keeps its position
    show Dense (s.vRandom ++ [s.nIdCount]) (randomPos ((s.mapInfo.insert _ _).insert _ _))
    rw [randomPos_insert, randomPos_insert, update_idem]
    exact hw.dense.push (by simp [randomPos, hFresh])
  · show Tables h (slotsOf ((s.mapInfo.insert _ _).insert _ _)) (s.mapAddr.insert addr.ip _).find?
      (s.nIdCount + 1) s.vvTried s.vvNew
    rw [slotsOf_insert, slotsOf_insert, update_idem, mapAddr_find?_insert]
    exact hw.tables.create (a := addr.toCService) hAddr
  · intro n hn
    show ((s.mapInfo.insert _ _).insert _ _).find? n = _
    rw [SortedMap.find?_insert_of_ne _ _ hn, SortedMap.find?_insert_of_ne _ _ hn]
  · -- the fresh entry adds its share; the second write replaces the first one's
    intro f
    show ((s.mapInfo.insert _ _).insert _ _).sumBy _ = _
    have h₁ := sumBy_insert_slots _ s.nIdCount _ f
      { CAddrInfo.init addr source s.vRandom.length with nTime := t } hF₀
    have h₂ := sumBy_insert_fresh_slots s.mapInfo s.nIdCount
      (CAddrInfo.init addr source s.vRandom.length) f hFresh
    rw [h₂] at h₁
    have h₃ : f (CAddrInfo.init addr source s.vRandom.length).slots =
        f ({ CAddrInfo.init addr source s.vRandom.length with nTime := t } : CAddrInfo N).slots := rfl
    omega

/-- After the creation step, `addToNew` of the fresh entry ends consistent. -/
theorem Created.wf {s s₁ s' : CAddrMan N} {pinfo : CAddrInfo N} {nNow : Int64}
    (hC : Created h s s₁ pinfo) (hw : Wf h s) (hNew : pinfo.fInTried = false)
    (hA : AddedToNew h s₁ s' s.nIdCount nNow) : Wf h s' := by
  have vT : triedOne pinfo.slots = 0 := by simp [triedOne, CAddrInfo.slots, hNew]
  have vN : newOne pinfo.slots = 1 := by simp [newOne, CAddrInfo.slots, hNew]
  refine hA.wf (fun n hn => ?_) ?_ ?_
  · simpa only [BoundedAt, slotsOf, hC.findOther n hn] using hw.bounded n
  · rw [hC.nTried, hC.sum, vT, add_zero, hw.nTried]
  · rw [hC.nNew, hC.sum, vN, hw.nNew]
    push_cast
    rfl

/-- `Add_` for an address that has an entry: the entry is refreshed (its
`nTime` and `nServices`, nothing the tables read), and either that is all, or
the entry is new, below its maximal count, and goes on to `addToNew`. -/
theorem add_of_find {s : CAddrMan N} (IsRoutable : N → Bool) (addr : CAddress N)
    (source : N) (nTimePenalty nNow : Int64) (nRand : Nat) {nId : Nat} {pinfo : CAddrInfo N}
    (hR : IsRoutable addr.ip = true) (hFind : s.Find addr.ip = some (nId, pinfo)) :
    ∃ pinfo' : CAddrInfo N, pinfo'.slots = pinfo.slots ∧ pinfo'.nRandomPos = pinfo.nRandomPos ∧
      (s.Add_ h IsRoutable addr source nTimePenalty nNow nRand =
          some ({ s with mapInfo := s.mapInfo.insert nId pinfo' }, false) ∨
        pinfo'.fInTried = false ∧ pinfo'.nRefCount ≠ ADDRMAN_NEW_BUCKETS_PER_ADDRESS ∧
        s.Add_ h IsRoutable addr source nTimePenalty nNow nRand =
          ({ s with mapInfo := s.mapInfo.insert nId pinfo' }.addToNew h pinfo' nId source nNow).map
            fun s => (s, false)) := by
  unfold Add_
  rw [if_neg (by simp [hR]), hFind]
  dsimp -zeta only
  extract_lets fCurrentlyOnline nUpdateInterval pinfo₁ pinfo₂ s₁
  refine ⟨pinfo₂, ?_, ?_, ?_⟩
  · simp only [CAddrInfo.slots, pinfo₂, pinfo₁]
    split <;> rfl
  · simp only [pinfo₂, pinfo₁]
    split <;> rfl
  · -- the four early returns, then the stochastic test passed
    split_ifs with hOld hTried hFull hRand
    · exact Or.inl rfl
    · exact Or.inl rfl
    · exact Or.inl rfl
    · exact Or.inl rfl
    · exact Or.inr ⟨by simpa using hTried, hFull, rfl⟩

/-- `Add_` for a routable address that has no entry: `Create`, then `addToNew`. -/
theorem add_of_find_none {s : CAddrMan N} (IsRoutable : N → Bool) (addr : CAddress N)
    (source : N) (nTimePenalty nNow : Int64) (nRand : Nat)
    (hR : IsRoutable addr.ip = true) (hFind : s.Find addr.ip = none) :
    s.Add_ h IsRoutable addr source nTimePenalty nNow nRand =
      ({ (s.Create addr source).1 with
          mapInfo := (s.Create addr source).1.mapInfo.insert s.nIdCount
            { CAddrInfo.init addr source s.vRandom.length with
              nTime := toUInt32 (max 0 (toInt64 addr.nTime - nTimePenalty)) }
          nNew := s.nNew + 1 }.addToNew h
        { CAddrInfo.init addr source s.vRandom.length with
          nTime := toUInt32 (max 0 (toInt64 addr.nTime - nTimePenalty)) }
        s.nIdCount source nNow).map fun s => (s, true) := by
  unfold Add_
  rw [if_neg (by simp [hR]), hFind]
  rfl

/-- `Add_` from a consistent state: it fails no assert and keeps the state
consistent, it reports a new entry exactly for a routable address that had
none, and it removes no entry that is not terrible at `nNow`. -/
theorem add_spec {s : CAddrMan N} (hw : Wf h s) (IsRoutable : N → Bool) (addr : CAddress N)
    (source : N) (nTimePenalty nNow : Int64) (nRand : Nat) :
    ∃ r, s.Add_ h IsRoutable addr source nTimePenalty nNow nRand = some r ∧ Wf h r.1 ∧
      r.2 = (IsRoutable addr.ip && (s.Find addr.ip).isNone) ∧
      ∀ n info, s.mapInfo.find? n = some info → info.IsTerrible nNow = false →
        (r.1.mapInfo.find? n).isSome := by
  cases hR : IsRoutable addr.ip with
  | false => exact ⟨(s, false), by simp [Add_, hR], hw, rfl, fun n info hF _ => by simp [hF]⟩
  | true =>
  cases hFind : s.Find addr.ip with
  | some p =>
    obtain ⟨nId, pinfo⟩ := p
    obtain ⟨-, hF⟩ := find_eq_some_iff.mp hFind
    obtain ⟨pinfo', hSl, hPos, hAdd⟩ :=
      add_of_find (h := h) IsRoutable addr source nTimePenalty nNow nRand hR hFind
    have hw₁ := wf_insert_stats hw hF hSl hPos
    have hOther : ∀ n, n ≠ nId → (s.mapInfo.insert nId pinfo').find? n = s.mapInfo.find? n :=
      fun n hn => SortedMap.find?_insert_of_ne _ _ hn
    rcases hAdd with hAdd | ⟨hNew, hFull, hAdd⟩
    · refine ⟨_, hAdd, hw₁, rfl, fun n info hFn _ => ?_⟩
      by_cases hn : n = nId
      · simp [hn]
      · simp [hOther n hn, hFn]
    · have hF₁ : (s.mapInfo.insert nId pinfo').find? nId = some pinfo' := by simp
      have hSlots₁ : slotsOf (s.mapInfo.insert nId pinfo') nId =
          some (pinfo'.toCService, false, pinfo'.nRefCount) := by
        simp [slotsOf, CAddrInfo.slots, hNew]
      have hB := hw₁.bounded nId _ _ hSlots₁
      obtain ⟨s', hS', hA, -⟩ := addToNew_spec hw₁.toCore hF₁ hNew (lt_of_le_of_ne hB.2 hFull)
        source nNow
      refine ⟨(s', false), by rw [hAdd, hS']; rfl, hA.wf (fun n _ => hw₁.bounded n) hw₁.nTried
        hw₁.nNew, rfl, ?_⟩
      intro n info hFn hTerr
      by_cases hn : n = nId
      · subst hn
        exact hA.keptSelf pinfo' hF₁ (by omega)
      · exact hA.kept n info (by rw [hOther n hn]; exact hFn) hn hTerr
  | none =>
    have hC := create_spec hw source hFind (toUInt32 (max 0 (toInt64 addr.nTime - nTimePenalty)))
    obtain ⟨s', hS', hA, -⟩ := addToNew_spec hC.core hC.findSelf rfl
      (show (0 : Int) < ADDRMAN_NEW_BUCKETS_PER_ADDRESS by decide) source nNow
    have hAdd := add_of_find_none (h := h) IsRoutable addr source nTimePenalty nNow nRand hR hFind
    refine ⟨(s', true), by rw [hAdd, hS']; rfl, hC.wf hw rfl hA, rfl, ?_⟩
    intro n info hFn hTerr
    have hn : n ≠ s.nIdCount := by
      rintro rfl
      rw [hC.fresh] at hFn
      cases hFn
    exact hA.kept n info (by rw [hC.findOther n hn]; exact hFn) hn hTerr

/-- In a state whose tables agree, an address is found exactly when an entry
has it. -/
theorem find_isSome_iff {s : CAddrMan N} (hc : Core h s) (x : N) :
    (s.Find x).isSome = true ↔ ∃ n e, slotsOf s.mapInfo n = some e ∧ e.1.ip = x := by
  constructor
  · intro hS
    obtain ⟨⟨n, info⟩, hF⟩ := Option.isSome_iff_exists.mp hS
    exact ⟨n, (hc.tables.addr x n).mp (find_eq_some_iff.mp hF).1⟩
  · rintro ⟨n, e, hn, hip⟩
    have hA := (hc.tables.addr x n).mpr ⟨e, hn, hip⟩
    obtain ⟨info, hF, -⟩ := find?_of_slotsOf hn
    simp [Find, hA, hF]

/-- The cell of the fresh entry yields in the created state exactly when it
did before: the fresh id is in no cell. -/
theorem Created.cellYields_iff {s s₁ : CAddrMan N} {pinfo : CAddrInfo N} (hC : Created h s s₁ pinfo)
    (hc : Core h s) (source : N) (nNow : Int64) :
    CellYields h s₁ pinfo source nNow ↔ CellYields h s pinfo source nNow := by
  unfold CellYields
  rw [hC.vvNew]
  refine forall_congr' fun x => forall_congr' fun info => imp_congr_right fun hx => ?_
  have hx' : x ≠ s.nIdCount := by
    rintro rfl
    obtain ⟨a, r, hSl, -⟩ := hc.tables.newCells _ _ hx
    simp [slotsOf, hC.fresh] at hSl
  rw [hC.findOther x hx']

/-- After the creation step and `addToNew`, the address is found exactly when
the fresh entry survived. -/
theorem Created.found_iff {s s₁ s' : CAddrMan N} {pinfo : CAddrInfo N} {nNow : Int64}
    (hC : Created h s s₁ pinfo) (hA : AddedToNew h s₁ s' s.nIdCount nNow) :
    (s'.Find pinfo.ip).isSome = true ↔ (s'.mapInfo.find? s.nIdCount).isSome = true := by
  have hSelf : slotsOf s₁.mapInfo s.nIdCount = some pinfo.slots := by simp [slotsOf, hC.findSelf]
  rw [find_isSome_iff hA.core]
  constructor
  · -- an entry of `s'` at that address was one of `s₁`, so it is the fresh one
    rintro ⟨n, e, hn, hip⟩
    obtain ⟨e₀, hn₀, he₀⟩ := hA.addrs n e hn
    have hId := hC.core.tables.id_eq_of_ip hn₀ hSelf (by rw [he₀, hip]; rfl)
    obtain ⟨i, hi, -⟩ := find?_of_slotsOf hn
    rw [← hId, hi]
    rfl
  · intro hS
    obtain ⟨i, hi⟩ := Option.isSome_iff_exists.mp hS
    obtain ⟨e₀, hn₀, he₀⟩ := hA.addrs s.nIdCount i.slots (by simp [slotsOf, hi])
    rw [hSelf, Option.some.injEq] at hn₀
    refine ⟨s.nIdCount, i.slots, by simp [slotsOf, hi], ?_⟩
    rw [← he₀, ← hn₀]
    rfl

/-- `Add_` of a routable address that has no entry reports a new entry, but
keeps the address only when the new cell it hashes to is empty, or holds an
entry that is terrible or held by more than one cell; otherwise the entry just
created is deleted again. -/
theorem add_fresh_kept_iff {s : CAddrMan N} (hw : Wf h s) (IsRoutable : N → Bool)
    (addr : CAddress N) (source : N) (nTimePenalty nNow : Int64) (nRand : Nat)
    (hR : IsRoutable addr.ip = true) (hNone : s.Find addr.ip = none) :
    ∃ s', s.Add_ h IsRoutable addr source nTimePenalty nNow nRand = some (s', true) ∧
      ((s'.Find addr.ip).isSome = true ↔
        ∀ x info, s.vvNew (h.GetNewBucket addr.ip source,
            h.GetBucketPosition addr.toCService true (h.GetNewBucket addr.ip source)) = some x →
          s.mapInfo.find? x = some info → info.IsTerrible nNow = false → 1 < info.nRefCount) := by
  have hC := create_spec hw source hNone (toUInt32 (max 0 (toInt64 addr.nTime - nTimePenalty)))
  obtain ⟨s', hS', hA, hKept⟩ := addToNew_spec hC.core hC.findSelf rfl
    (show (0 : Int) < ADDRMAN_NEW_BUCKETS_PER_ADDRESS by decide) source nNow
  have hAdd := add_of_find_none (h := h) IsRoutable addr source nTimePenalty nNow nRand hR hNone
  refine ⟨s', by rw [hAdd, hS']; rfl, ?_⟩
  calc (s'.Find addr.ip).isSome = true ↔ (s'.mapInfo.find? s.nIdCount).isSome = true :=
        hC.found_iff hA
    _ ↔ CellYields h _ _ source nNow := hKept.trans (or_iff_right (not_not.mpr rfl))
    _ ↔ CellYields h s _ source nNow := hC.cellYields_iff hw.toCore source nNow

/-- `Attempt_` writes only the counters of one entry, nothing the tables read. -/
theorem attempt_wf {s : CAddrMan N} (hw : Wf h s) (addr : CService N) (nTime : Int64) :
    Wf h (s.Attempt_ addr nTime) := by
  unfold Attempt_
  rcases hF : s.Find addr.ip with _ | ⟨nId, info⟩
  · exact hw
  · obtain ⟨-, hFind⟩ := find_eq_some_iff.mp hF
    dsimp only
    split
    · exact hw
    · exact wf_insert_stats hw hFind rfl rfl

/-- `Connected_` writes only the time of one entry, nothing the tables read. -/
theorem connected_wf {s : CAddrMan N} (hw : Wf h s) (addr : CService N) (nTime : Int64) :
    Wf h (s.Connected_ addr nTime) := by
  unfold Connected_
  rcases hF : s.Find addr.ip with _ | ⟨nId, info⟩
  · exact hw
  · obtain ⟨-, hFind⟩ := find_eq_some_iff.mp hF
    dsimp only
    split_ifs
    · exact hw
    · exact wf_insert_stats hw hFind rfl rfl
    · exact hw

/-- `SwapRandom` within `vRandom` keeps a consistent state consistent, and the
entries as they were but for their positions. -/
theorem swapRandom_wf {s : CAddrMan N} (hw : Wf h s) {i j : Nat} (hi : i < s.vRandom.length)
    (hj : j < s.vRandom.length) :
    ∃ mapInfo, s.SwapRandom i j = some { s with mapInfo, vRandom := swapped s.vRandom i j } ∧
      Wf h { s with mapInfo, vRandom := swapped s.vRandom i j } ∧
      entryOf mapInfo = entryOf s.mapInfo := by
  obtain ⟨m, hSwap, hDense, hEntry, hSum⟩ := swapRandom_spec hw.dense hi hj
  have hSlots := slotsOf_eq_of_entryOf _ hEntry
  refine ⟨m, hSwap, ⟨⟨hDense, ?_⟩, ?_, ?_, ?_⟩, hEntry⟩
  · simpa only [hSlots] using hw.tables
  · simpa only [hSlots] using hw.bounded
  · simpa only [hSum] using hw.nTried
  · simpa only [hSum] using hw.nNew

end CAddrMan

end FairCoin.Ports.AddrMan
