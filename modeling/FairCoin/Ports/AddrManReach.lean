import Mathlib
import FairCoin.Ports.AddrManQuery

/-!
# The address manager over whole runs

The states that `Add_`, `Good_`, `Attempt_`, `Connected_` and `GetAddr_`
reach from `Clear()`, under every outcome of their random draws, every time and
every bucket hash, are `Reach`. Every such state is consistent (`Reach.wf`), by
induction on the run from the specification of each operation; what holds of
the operations over any history is read off that invariant.

## Main results

* `Reach.wf` — every reachable state is consistent.
* `Reach.noAbort` — from a reachable state no operation fails an assert.
* `Reach.size_le` — a reachable state holds at most
  `(ADDRMAN_TRIED_BUCKET_COUNT + ADDRMAN_NEW_BUCKET_COUNT) * ADDRMAN_BUCKET_SIZE`
  entries, whatever has been added.
-/

namespace FairCoin.Ports.AddrMan

open FairCoin.Verified FairCoin.Verified.DenseIndex FairCoin.Verified.CellCount Function

variable {N : Type} [LinearOrder N] {h : BucketHash N}

/-- A consistent state holds at most as many entries as its two tables have
cells: a tried entry sits in its tried cell, a new one in at least one new
cell, and a cell holds one id. -/
theorem size_le_of_wf {s : CAddrMan N} (hw : Wf h s) :
    s.size ≤ (ADDRMAN_TRIED_BUCKET_COUNT + ADDRMAN_NEW_BUCKET_COUNT) * ADDRMAN_BUCKET_SIZE := by
  have hHeld : ∀ k ∈ s.vRandom.toFinset, ∃ c, Sum.elim s.vvTried s.vvNew c = some k := by
    intro k hk
    have hPos := (hw.dense.mem_iff k).mp (List.mem_toFinset.mp hk)
    obtain ⟨info, hF⟩ : ∃ info, s.mapInfo.find? k = some info := by
      simpa [randomPos, Option.isSome_iff_exists] using hPos
    cases hT : info.fInTried with
    | false =>
      have hSl : slotsOf s.mapInfo k = some (info.toCService, false, info.nRefCount) :=
        slotsOf_of_new hF hT
      have hOne := (hw.bounded k _ _ hSl).1
      have hCount := hw.tables.refNew k _ _ hSl
      obtain ⟨c, hc⟩ := exists_of_cellCount_pos (show 0 < cellCount s.vvNew k by omega)
      exact ⟨Sum.inr c, hc⟩
    | true =>
      have hSl : slotsOf s.mapInfo k = some (info.toCService, true, info.nRefCount) := by
        simp [slotsOf, hF, CAddrInfo.slots, hT]
      exact ⟨Sum.inl _, (hw.tables.tried k _ _ hSl).2⟩
  calc s.size = s.vRandom.toFinset.card := (List.toFinset_card_of_nodup hw.dense.nodup).symm
    _ ≤ Fintype.card (TriedCell ⊕ NewCell) := card_le_of_held _ _ hHeld
    _ = (ADDRMAN_TRIED_BUCKET_COUNT + ADDRMAN_NEW_BUCKET_COUNT) * ADDRMAN_BUCKET_SIZE := by
      simp only [Fintype.card_sum, Fintype.card_prod, Fintype.card_fin]
      ring

/-! ## Runs from `Clear()` -/

/-- The states the operations of `CAddrMan` reach from `Clear()`, under every
outcome of their random draws and every time. `Select_` leaves the state as it
is. -/
inductive Reach (h : BucketHash N) (IsRoutable : N → Bool) : CAddrMan N → Prop
  | clear : Reach h IsRoutable CAddrMan.Clear
  | add {s : CAddrMan N} {r : CAddrMan N × Bool} (addr : CAddress N) (source : N)
      (nTimePenalty nNow : Int64) (nRand : Nat) :
      Reach h IsRoutable s → s.Add_ h IsRoutable addr source nTimePenalty nNow nRand = some r →
      Reach h IsRoutable r.1
  | good {s s' : CAddrMan N} (addr : CService N) (nTime : Int64)
      (nRnd : Fin ADDRMAN_NEW_BUCKET_COUNT) :
      Reach h IsRoutable s → s.Good_ h addr nTime nRnd = some s' → Reach h IsRoutable s'
  | attempt {s : CAddrMan N} (addr : CService N) (nTime : Int64) :
      Reach h IsRoutable s → Reach h IsRoutable (s.Attempt_ addr nTime)
  | connected {s : CAddrMan N} (addr : CService N) (nTime : Int64) :
      Reach h IsRoutable s → Reach h IsRoutable (s.Connected_ addr nTime)
  | getAddr {s : CAddrMan N} {r : CAddrMan N × List (CAddress N)} (nNow : Int64) (rnd : Nat → Nat) :
      Reach h IsRoutable s → s.GetAddr_ nNow rnd = some r → Reach h IsRoutable r.1

theorem wf_clear : Wf h (CAddrMan.Clear : CAddrMan N) where
  dense := by
    have hPos : randomPos (SortedMap.empty : SortedMap Nat (CAddrInfo N)) = fun _ => none := by
      funext n
      simp [randomPos]
    rw [show (CAddrMan.Clear : CAddrMan N).mapInfo = SortedMap.empty from rfl, hPos]
    exact dense_nil
  tables := by
    have hSlots : slotsOf (SortedMap.empty : SortedMap Nat (CAddrInfo N)) = fun _ => none := by
      funext n
      simp [slotsOf]
    have hAddr : (SortedMap.empty : SortedMap N Nat).find? = fun _ => none := by
      funext x
      simp
    rw [show (CAddrMan.Clear : CAddrMan N).mapInfo = SortedMap.empty from rfl, hSlots,
      show (CAddrMan.Clear : CAddrMan N).mapAddr = SortedMap.empty from rfl, hAddr]
    exact tables_empty h
  bounded n a r hn := by simp [slotsOf, CAddrMan.Clear] at hn
  nTried := rfl
  nNew := rfl

variable {IsRoutable : N → Bool}

/-- Every reachable state is consistent: the invariant holds over whole runs. -/
theorem Reach.wf {s : CAddrMan N} (hr : Reach h IsRoutable s) : Wf h s := by
  induction hr with
  | clear => exact wf_clear
  | add addr source nTimePenalty nNow nRand _ hAdd ih =>
    obtain ⟨r, hr, hw, -⟩ := CAddrMan.add_spec ih IsRoutable addr source nTimePenalty nNow nRand
    rw [hAdd, Option.some.injEq] at hr
    exact hr ▸ hw
  | good addr nTime nRnd _ hGood ih =>
    obtain ⟨s', hs', hw, -⟩ := CAddrMan.good_spec ih addr nTime nRnd
    rw [hGood, Option.some.injEq] at hs'
    exact hs' ▸ hw
  | attempt addr nTime _ ih => exact CAddrMan.attempt_wf ih addr nTime
  | connected addr nTime _ ih => exact CAddrMan.connected_wf ih addr nTime
  | getAddr nNow rnd _ hGet ih =>
    obtain ⟨s', vAddr, hs', hw, -⟩ := CAddrMan.getAddr_spec ih nNow rnd
    rw [hGet, Option.some.injEq] at hs'
    exact hs' ▸ hw

/-- No operation from `s` fails an assert, whatever its arguments, random draws
and time (`Attempt_` and `Connected_` have no assert). -/
def NoAbort (h : BucketHash N) (IsRoutable : N → Bool) (s : CAddrMan N) : Prop :=
  (∀ addr source nTimePenalty nNow nRand,
    (s.Add_ h IsRoutable addr source nTimePenalty nNow nRand).isSome) ∧
  (∀ addr nTime nRnd, (s.Good_ h addr nTime nRnd).isSome) ∧
  (∀ nNow rnd, (s.GetAddr_ nNow rnd).isSome) ∧
  (∀ newOnly nNow rnd fuel, (s.Select_ newOnly nNow rnd fuel).isSome)

theorem noAbort_of_wf {s : CAddrMan N} (hw : Wf h s) : NoAbort h IsRoutable s := by
  refine ⟨fun addr source nTimePenalty nNow nRand => ?_, fun addr nTime nRnd => ?_,
    fun nNow rnd => ?_, fun newOnly nNow rnd fuel => ?_⟩
  · obtain ⟨r, hr, -⟩ := CAddrMan.add_spec hw IsRoutable addr source nTimePenalty nNow nRand
    simp [hr]
  · obtain ⟨s', hs', -⟩ := CAddrMan.good_spec hw addr nTime nRnd
    simp [hs']
  · obtain ⟨s', vAddr, hs', -⟩ := CAddrMan.getAddr_spec hw nNow rnd
    simp [hs']
  · obtain ⟨r, hr, -⟩ := select_spec hw newOnly nNow rnd fuel
    simp [hr]

/-! ## A run to evaluate on -/

/-- A hash that sends an address to the new bucket and the tried bucket of its
number, at position 0. -/
def BucketHash.byAddress : BucketHash Nat :=
  ⟨fun a => Fin.ofNat _ a.ip, fun ip _ => Fin.ofNat _ ip, fun _ _ _ => 0⟩

/-- `Clear()`, then the address 1, seen at time 1000, sent by the peer 9. -/
def sentOne : CAddrMan Nat :=
  ((CAddrMan.Clear.Add_ BucketHash.byAddress (fun _ => true) ⟨⟨1, 8333⟩, 1, 1000⟩ 9 0 1000 0).map
    Prod.fst).getD .Clear

/-- Then the address 2 from the same peer. -/
def sentTwo : CAddrMan Nat :=
  ((sentOne.Add_ BucketHash.byAddress (fun _ => true) ⟨⟨2, 8333⟩, 1, 1000⟩ 9 0 1000 0).map
    Prod.fst).getD sentOne

/-- Then a connection to the address 1 at time 1100. -/
def sentTwoGoodOne : CAddrMan Nat :=
  (sentTwo.Good_ BucketHash.byAddress ⟨1, 8333⟩ 1100 0).getD sentTwo

example : sentTwo.size = 2 := by decide

/-- `Add_` on a reachable state returns a state, and that state is reachable. -/
theorem Reach.add_getD {s : CAddrMan N} (hr : Reach h IsRoutable s) (addr : CAddress N)
    (source : N) (nTimePenalty nNow : Int64) (nRand : Nat) (d : CAddrMan N) :
    Reach h IsRoutable
      (((s.Add_ h IsRoutable addr source nTimePenalty nNow nRand).map Prod.fst).getD d) := by
  obtain ⟨r, hAdd, -⟩ := CAddrMan.add_spec hr.wf IsRoutable addr source nTimePenalty nNow nRand
  rw [hAdd]
  exact .add addr source nTimePenalty nNow nRand hr hAdd

/-- `Good_` on a reachable state returns a state, and that state is reachable. -/
theorem Reach.good_getD {s : CAddrMan N} (hr : Reach h IsRoutable s) (addr : CService N)
    (nTime : Int64) (nRnd : Fin ADDRMAN_NEW_BUCKET_COUNT) (d : CAddrMan N) :
    Reach h IsRoutable ((s.Good_ h addr nTime nRnd).getD d) := by
  obtain ⟨s', hGood, -⟩ := CAddrMan.good_spec hr.wf addr nTime nRnd
  rw [hGood]
  exact .good addr nTime nRnd hr hGood

theorem reach_sentTwo : Reach BucketHash.byAddress (fun _ => true) sentTwo :=
  (Reach.clear.add_getD ⟨⟨1, 8333⟩, 1, 1000⟩ 9 0 1000 0 .Clear).add_getD
    ⟨⟨2, 8333⟩, 1, 1000⟩ 9 0 1000 0 sentOne

theorem reach_sentTwoGoodOne : Reach BucketHash.byAddress (fun _ => true) sentTwoGoodOne :=
  reach_sentTwo.good_getD ⟨1, 8333⟩ 1100 0 sentTwo

/-- Along every run from `Clear()`, under every outcome of the random draws and
every time, no operation fails an assert. -/
theorem Reach.noAbort {s : CAddrMan N} (hr : Reach h IsRoutable s) : NoAbort h IsRoutable s :=
  noAbort_of_wf hr.wf

theorem sentTwoGoodOne_noAbort :
    Reach BucketHash.byAddress (fun _ => true) sentTwoGoodOne ∧
      NoAbort BucketHash.byAddress (fun _ => true) sentTwoGoodOne :=
  ⟨reach_sentTwoGoodOne, Reach.noAbort reach_sentTwoGoodOne⟩

/-- Along every run from `Clear()`, the address manager holds at most
`(ADDRMAN_TRIED_BUCKET_COUNT + ADDRMAN_NEW_BUCKET_COUNT) * ADDRMAN_BUCKET_SIZE`
entries, whatever is added. -/
theorem Reach.size_le {s : CAddrMan N} (hr : Reach h IsRoutable s) :
    s.size ≤ (ADDRMAN_TRIED_BUCKET_COUNT + ADDRMAN_NEW_BUCKET_COUNT) * ADDRMAN_BUCKET_SIZE :=
  size_le_of_wf hr.wf

theorem sentTwoGoodOne_size_le :
    Reach BucketHash.byAddress (fun _ => true) sentTwoGoodOne ∧
      sentTwoGoodOne.size ≤
        (ADDRMAN_TRIED_BUCKET_COUNT + ADDRMAN_NEW_BUCKET_COUNT) * ADDRMAN_BUCKET_SIZE :=
  ⟨reach_sentTwoGoodOne, Reach.size_le reach_sentTwoGoodOne⟩

/-- Over any history, `Add_` reports a new entry exactly for a routable
address that had none, and removes no entry that is not terrible at `nNow`. -/
theorem Reach.add_returns {s : CAddrMan N} (hr : Reach h IsRoutable s) (addr : CAddress N)
    (source : N) (nTimePenalty nNow : Int64) (nRand : Nat) :
    ∃ r, s.Add_ h IsRoutable addr source nTimePenalty nNow nRand = some r ∧
      r.2 = (IsRoutable addr.ip && (s.Find addr.ip).isNone) ∧
      ∀ n info, s.mapInfo.find? n = some info → info.IsTerrible nNow = false →
        (r.1.mapInfo.find? n).isSome := by
  obtain ⟨r, hAdd, -, hNew, hKept⟩ :=
    CAddrMan.add_spec hr.wf IsRoutable addr source nTimePenalty nNow nRand
  exact ⟨r, hAdd, hNew, hKept⟩

theorem sentTwoGoodOne_add_returns :
    Reach BucketHash.byAddress (fun _ => true) sentTwoGoodOne ∧
      ∃ r, sentTwoGoodOne.Add_ BucketHash.byAddress (fun _ => true)
          ⟨⟨2, 8333⟩, 1, 1000⟩ 9 0 2000 0 = some r ∧
        r.2 = ((fun _ => true : Nat → Bool) 2 && (sentTwoGoodOne.Find 2).isNone) ∧
        ∀ n info, sentTwoGoodOne.mapInfo.find? n = some info →
          info.IsTerrible 2000 = false → (r.1.mapInfo.find? n).isSome :=
  ⟨reach_sentTwoGoodOne, Reach.add_returns reach_sentTwoGoodOne ⟨⟨2, 8333⟩, 1, 1000⟩ 9 0 2000 0⟩

/-- Over any history, `Add_` of a routable address that has no entry reports a
new entry, but the address is kept only when the new cell it hashes to is free,
or holds an entry that is terrible or held by more than one cell. -/
theorem Reach.fresh_add_kept_iff {s : CAddrMan N} (hr : Reach h IsRoutable s) (addr : CAddress N)
    (source : N) (nTimePenalty nNow : Int64) (nRand : Nat) (hR : IsRoutable addr.ip = true)
    (hNone : s.Find addr.ip = none) :
    ∃ s', s.Add_ h IsRoutable addr source nTimePenalty nNow nRand = some (s', true) ∧
      ((s'.Find addr.ip).isSome = true ↔
        ∀ x info, s.vvNew (h.GetNewBucket addr.ip source,
            h.GetBucketPosition addr.toCService true (h.GetNewBucket addr.ip source)) = some x →
          s.mapInfo.find? x = some info → info.IsTerrible nNow = false → 1 < info.nRefCount) :=
  CAddrMan.add_fresh_kept_iff hr.wf IsRoutable addr source nTimePenalty nNow nRand hR hNone

theorem sentTwo_fresh_add_kept_iff :
    Reach BucketHash.byAddress (fun _ => true) sentTwo ∧
      (fun _ => true : Nat → Bool) 3 = true ∧ sentTwo.Find 3 = none ∧
      ∃ s', sentTwo.Add_ BucketHash.byAddress (fun _ => true)
          ⟨⟨3, 8333⟩, 1, 1000⟩ 9 0 1000 0 = some (s', true) ∧
        ((s'.Find 3).isSome = true ↔
          ∀ x info, sentTwo.vvNew
              (BucketHash.byAddress.GetNewBucket 3 9,
                BucketHash.byAddress.GetBucketPosition ⟨3, 8333⟩ true
                  (BucketHash.byAddress.GetNewBucket 3 9)) = some x →
            sentTwo.mapInfo.find? x = some info →
            info.IsTerrible 1000 = false → 1 < info.nRefCount) :=
  have hNone : sentTwo.Find 3 = none := Option.isNone_iff_eq_none.mp (by decide)
  ⟨reach_sentTwo, rfl, hNone,
    Reach.fresh_add_kept_iff reach_sentTwo ⟨⟨3, 8333⟩, 1, 1000⟩ 9 0 1000 0 rfl hNone⟩

/-- Over any history, `Good_` of the address of an entry moves the entry, its
attempts reset and its last try and success at `nTime`, into its tried cell
with no reference left in the new table; an entry it evicts from that cell goes
back to the new table with one reference. -/
theorem Reach.good_promotes {s : CAddrMan N} (hr : Reach h IsRoutable s) (addr : CService N)
    (nTime : Int64) (nRnd : Fin ADDRMAN_NEW_BUCKET_COUNT) :
    ∃ s', s.Good_ h addr nTime nRnd = some s' ∧
      ∀ nId info, s.Find addr.ip = some (nId, info) → info.toCService = addr →
        entryOf s'.mapInfo nId = some ({ info with
          nLastSuccess := nTime
          nLastTry := nTime
          nAttempts := 0
          nRefCount := 0
          fInTried := true } : CAddrInfo N).unplaced ∧
        s'.vvTried (triedCell h addr) = some nId ∧
        ∀ e, e ≠ nId → s.vvTried (triedCell h addr) = some e →
          ∃ a, slotsOf s'.mapInfo e = some (a, false, 1) := by
  obtain ⟨s', hGood, -, hMoved⟩ := CAddrMan.good_spec hr.wf addr nTime nRnd
  exact ⟨s', hGood, hMoved⟩

theorem sentTwo_good_promotes :
    Reach BucketHash.byAddress (fun _ => true) sentTwo ∧
      ∃ s', sentTwo.Good_ BucketHash.byAddress ⟨1, 8333⟩ 1100 0 = some s' ∧
        ∀ nId info, sentTwo.Find 1 = some (nId, info) →
          info.toCService = ⟨1, 8333⟩ →
          entryOf s'.mapInfo nId = some ({ info with
            nLastSuccess := 1100
            nLastTry := 1100
            nAttempts := 0
            nRefCount := 0
            fInTried := true } : CAddrInfo Nat).unplaced ∧
          s'.vvTried (triedCell BucketHash.byAddress ⟨1, 8333⟩) = some nId ∧
          ∀ e, e ≠ nId → sentTwo.vvTried (triedCell BucketHash.byAddress ⟨1, 8333⟩) = some e →
            ∃ a, slotsOf s'.mapInfo e = some (a, false, 1) :=
  ⟨reach_sentTwo, Reach.good_promotes reach_sentTwo ⟨1, 8333⟩ 1100 0⟩

end FairCoin.Ports.AddrMan
