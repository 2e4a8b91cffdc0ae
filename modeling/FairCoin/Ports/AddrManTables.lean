import Mathlib
import FairCoin.Ports.AddrMan

/-!
# The consistency of the address tables

`Check_` (addrman.cpp) tests that the two bucket tables, `mapAddr` and the
reference counts agree with the entries. All of it reads only three things of
an entry: its address with port, whether it is tried, and its `nRefCount`;
these are its `Slots`. This module states the agreement, `Tables`, over the
slots of every id, and shows that each edit the operations make to the tables
keeps it: emptying or filling a new cell with the matching change of the
count, deleting an entry that no cell holds, creating one, moving an entry out
of or into its tried cell, and clearing every new cell of an entry.

The operations of `CAddrMan` are sequences of these edits; their proofs in
`FairCoin.Ports.AddrManRun` go through the lemmas here and never reopen the
quantifiers of `Tables`.

## Main results

* `Tables.clearCell`, `Tables.fillCell` — a new cell emptied or filled, with the
  count of its entry lowered or raised by one.
* `Tables.delete`, `Tables.create` — an entry that no cell holds removed; a
  fresh id added under an address that has none.
* `Tables.untry`, `Tables.promote` — an entry moved out of its tried cell, or
  into it once no new cell holds it.
* `Tables.purge` — every new cell of an entry cleared and its count set to 0.
-/

namespace FairCoin.Ports.AddrMan

open FairCoin.Verified FairCoin.Verified.CellCount Function

variable {N : Type} (h : BucketHash N)

/-- What the tables record of an entry: its address with port, whether it is
in the tried table, and its reference count. -/
abbrev Slots (N : Type) := CService N × Bool × Int

/-- The slots of an entry. -/
def CAddrInfo.slots (info : CAddrInfo N) : Slots N := (info.toCService, info.fInTried, info.nRefCount)

/-- The tried cell of an address: its `GetTriedBucket`, at its
`GetBucketPosition` there. -/
def triedCell (a : CService N) : TriedCell :=
  (h.GetTriedBucket a, h.GetBucketPosition a false (h.GetTriedBucket a))

/-- The position of an address in new bucket `b`. -/
def newPos (a : CService N) (b : Fin ADDRMAN_NEW_BUCKET_COUNT) : Fin ADDRMAN_BUCKET_SIZE :=
  h.GetBucketPosition a true b

/-- The agreement of the tables with the entries, as `Check_` tests it, for the
slots `slots n` of each id `n`: `mapAddr` inverts the addresses, ids are below
`nIdCount`, a tried entry has no reference and sits in its tried cell, a new
entry's count is the number of new cells holding it, and every occupied cell
holds an entry of its table at the entry's position. -/
structure Tables (slots : Nat → Option (Slots N)) (mapAddr : N → Option Nat) (nIdCount : Nat)
    (vvTried : TriedCell → Option Nat) (vvNew : NewCell → Option Nat) : Prop where
  addr : ∀ x n, mapAddr x = some n ↔ ∃ e, slots n = some e ∧ e.1.ip = x
  fresh : ∀ n e, slots n = some e → n < nIdCount
  tried : ∀ n a r, slots n = some (a, true, r) → r = 0 ∧ vvTried (triedCell h a) = some n
  triedCells : ∀ c n, vvTried c = some n → ∃ a r, slots n = some (a, true, r) ∧ c = triedCell h a
  refNew : ∀ n a r, slots n = some (a, false, r) → r = cellCount vvNew n
  newCells : ∀ c n, vvNew c = some n →
    ∃ a r, slots n = some (a, false, r) ∧ c.2 = newPos h a c.1

/-- The bounds `Check_` puts on the count of entry `n` if it is new. -/
def BoundedAt (slots : Nat → Option (Slots N)) (n : Nat) : Prop :=
  ∀ a r, slots n = some (a, false, r) → 1 ≤ r ∧ r ≤ ADDRMAN_NEW_BUCKETS_PER_ADDRESS

theorem tables_empty : Tables h (fun _ => none) (fun _ => none) 0 (fun _ => none) (fun _ => none) where
  addr := by simp
  fresh := by simp
  tried := by simp
  triedCells := by simp
  refNew := by simp
  newCells := by simp

variable {h} {slots : Nat → Option (Slots N)} {mapAddr : N → Option Nat} {nIdCount : Nat}
  {vvTried : TriedCell → Option Nat} {vvNew : NewCell → Option Nat}

namespace Tables

variable (ht : Tables h slots mapAddr nIdCount vvTried vvNew)
include ht

/-- A new entry with count 0 is in no new cell. -/
theorem not_mem_new {m : Nat} {a : CService N} (hm : slots m = some (a, false, 0)) (c : NewCell) :
    vvNew c ≠ some m := by
  have hZero := ht.refNew m a 0 hm
  exact (cellCount_eq_zero_iff vvNew m).mp (by omega) c

theorem cellCount_tried {m : Nat} {a : CService N} {r : Int} (hm : slots m = some (a, true, r)) :
    cellCount vvNew m = 0 := by
  rw [cellCount_eq_zero_iff]
  intro c hc
  obtain ⟨a', r', hm', -⟩ := ht.newCells c m hc
  rw [hm] at hm'
  cases hm'

theorem id_eq_of_ip {n n' : Nat} {e e' : Slots N} (hn : slots n = some e) (hn' : slots n' = some e')
    (hip : e.1.ip = e'.1.ip) : n = n' := by
  have h₁ := (ht.addr e.1.ip n).mpr ⟨e, hn, rfl⟩
  have h₂ := (ht.addr e.1.ip n').mpr ⟨e', hn', hip.symm⟩
  exact Option.some.inj (h₁.symm.trans h₂)

/-- A new cell emptied: the entry it held loses one reference. -/
theorem clearCell {c : NewCell} {m : Nat} {a : CService N} {r : Int} (hc : vvNew c = some m)
    (hm : slots m = some (a, false, r)) :
    Tables h (update slots m (some (a, false, r - 1))) mapAddr nIdCount vvTried
      (update vvNew c none) where
  addr x n := by
    rw [ht.addr x n]
    by_cases hn : n = m <;> simp_all
  fresh n e hn := by
    by_cases hnm : n = m
    · exact hnm ▸ ht.fresh m _ hm
    · exact ht.fresh n e (by simpa [hnm] using hn)
  tried n a' r' hn := by
    by_cases hnm : n = m
    · simp [hnm] at hn
    · exact ht.tried n a' r' (by simpa [hnm] using hn)
  triedCells c' n hn := by
    obtain ⟨a', r', hn', hc'⟩ := ht.triedCells c' n hn
    have hnm : n ≠ m := by
      rintro rfl
      rw [hm] at hn'
      cases hn'
    exact ⟨a', r', by simpa [hnm] using hn', hc'⟩
  refNew n a' r' hn := by
    have hCount := cellCount_update vvNew c none n
    by_cases hnm : n = m
    · subst hnm
      simp only [update_self, Option.some.injEq, Prod.mk.injEq] at hn
      obtain ⟨rfl, -, rfl⟩ := hn
      have := ht.refNew n a r hm
      simp only [hc, if_true, reduceCtorEq, if_false] at hCount
      omega
    · have hOld : vvNew c ≠ some n := by
        rw [hc]
        exact fun h' => hnm (Option.some.inj h').symm
      rw [cellCount_update_of_ne hOld (by simp)]
      exact ht.refNew n a' r' (by simpa [hnm] using hn)
  newCells c' n hn := by
    have hc' : c' ≠ c := by
      rintro rfl
      simp at hn
    rw [update_of_ne hc'] at hn
    obtain ⟨a', r', hn', hPos⟩ := ht.newCells c' n hn
    by_cases hnm : n = m
    · subst hnm
      rw [hm] at hn'
      simp only [Option.some.injEq, Prod.mk.injEq] at hn'
      obtain ⟨rfl, -, rfl⟩ := hn'
      exact ⟨a, r - 1, by simp, hPos⟩
    · exact ⟨a', r', by simpa [hnm] using hn', hPos⟩

/-- An empty new cell at an entry's position filled with it: one more
reference. -/
theorem fillCell {c : NewCell} {m : Nat} {a : CService N} {r : Int} (hc : vvNew c = none)
    (hm : slots m = some (a, false, r)) (hPos : c.2 = newPos h a c.1) :
    Tables h (update slots m (some (a, false, r + 1))) mapAddr nIdCount vvTried
      (update vvNew c (some m)) where
  addr x n := by
    rw [ht.addr x n]
    by_cases hn : n = m <;> simp_all
  fresh n e hn := by
    by_cases hnm : n = m
    · exact hnm ▸ ht.fresh m _ hm
    · exact ht.fresh n e (by simpa [hnm] using hn)
  tried n a' r' hn := by
    by_cases hnm : n = m
    · simp [hnm] at hn
    · exact ht.tried n a' r' (by simpa [hnm] using hn)
  triedCells c' n hn := by
    obtain ⟨a', r', hn', hc'⟩ := ht.triedCells c' n hn
    have hnm : n ≠ m := by
      rintro rfl
      rw [hm] at hn'
      cases hn'
    exact ⟨a', r', by simpa [hnm] using hn', hc'⟩
  refNew n a' r' hn := by
    have hCount := cellCount_update vvNew c (some m) n
    simp only [hc, reduceCtorEq, if_false, Option.some.injEq] at hCount
    by_cases hnm : n = m
    · subst hnm
      simp only [update_self, Option.some.injEq, Prod.mk.injEq] at hn
      obtain ⟨rfl, -, rfl⟩ := hn
      have := ht.refNew n a r hm
      simp only [if_true] at hCount
      omega
    · simp only [Ne.symm hnm, if_false] at hCount
      have := ht.refNew n a' r' (by simpa [hnm] using hn)
      omega
  newCells c' n hn := by
    by_cases hcc : c' = c
    · subst hcc
      simp only [update_self, Option.some.injEq] at hn
      subst hn
      exact ⟨a, r + 1, by simp, hPos⟩
    rw [update_of_ne hcc] at hn
    obtain ⟨a', r', hn', hPos'⟩ := ht.newCells c' n hn
    by_cases hnm : n = m
    · subst hnm
      rw [hm] at hn'
      simp only [Option.some.injEq, Prod.mk.injEq] at hn'
      obtain ⟨rfl, -, rfl⟩ := hn'
      exact ⟨a, r + 1, by simp, hPos'⟩
    · exact ⟨a', r', by simpa [hnm] using hn', hPos'⟩

section MapAddr

variable [DecidableEq N]

/-- A new entry with no reference removed from the entries and from
`mapAddr`. -/
theorem delete {m : Nat} {a : CService N} (hm : slots m = some (a, false, 0)) :
    Tables h (update slots m none) (update mapAddr a.ip none) nIdCount vvTried vvNew where
  addr x n := by
    by_cases hx : x = a.ip
    · subst hx
      simp only [update_self, reduceCtorEq, false_iff, not_exists, not_and]
      intro e hn hip
      by_cases hnm : n = m
      · simp [hnm] at hn
      · rw [update_of_ne hnm] at hn
        exact hnm (ht.id_eq_of_ip hn hm hip)
    · rw [update_of_ne hx, ht.addr x n]
      by_cases hnm : n = m
      · subst hnm
        simp only [update_self, reduceCtorEq, false_and, exists_false, iff_false, not_exists,
          not_and, hm, Option.some.injEq]
        rintro e rfl
        exact Ne.symm hx
      · simp [hnm]
  fresh n e hn := by
    by_cases hnm : n = m
    · simp [hnm] at hn
    · exact ht.fresh n e (by simpa [hnm] using hn)
  tried n a' r' hn := by
    by_cases hnm : n = m
    · simp [hnm] at hn
    · exact ht.tried n a' r' (by simpa [hnm] using hn)
  triedCells c n hn := by
    obtain ⟨a', r', hn', hc⟩ := ht.triedCells c n hn
    have hnm : n ≠ m := by
      rintro rfl
      rw [hm] at hn'
      cases hn'
    exact ⟨a', r', by simpa [hnm] using hn', hc⟩
  refNew n a' r' hn := by
    by_cases hnm : n = m
    · simp [hnm] at hn
    · exact ht.refNew n a' r' (by simpa [hnm] using hn)
  newCells c n hn := by
    have hnm : n ≠ m := by
      rintro rfl
      exact ht.not_mem_new hm c hn
    obtain ⟨a', r', hn', hPos⟩ := ht.newCells c n hn
    exact ⟨a', r', by simpa [hnm] using hn', hPos⟩

/-- A fresh id `nIdCount` for an address `mapAddr` does not know, as a new
entry in no cell. -/
theorem create {a : CService N} (ha : mapAddr a.ip = none) :
    Tables h (update slots nIdCount (some (a, false, 0))) (update mapAddr a.ip (some nIdCount))
      (nIdCount + 1) vvTried vvNew where
  addr x n := by
    by_cases hx : x = a.ip
    · subst hx
      simp only [update_self, Option.some.injEq]
      constructor
      · rintro rfl
        exact ⟨_, update_self .., rfl⟩
      · rintro ⟨e, hn, hip⟩
        by_contra hnm
        rw [update_of_ne (Ne.symm hnm)] at hn
        have := (ht.addr e.1.ip n).mpr ⟨e, hn, rfl⟩
        rw [hip, ha] at this
        cases this
    · rw [update_of_ne hx, ht.addr x n]
      by_cases hnm : n = nIdCount
      · subst hnm
        simp only [update_self, Option.some.injEq, exists_eq_left']
        constructor
        · rintro ⟨e, hn, -⟩
          exact absurd (ht.fresh _ e hn) (lt_irrefl _)
        · intro hip
          exact absurd hip.symm hx
      · simp [hnm]
  fresh n e hn := by
    by_cases hnm : n = nIdCount
    · omega
    · exact Nat.lt_succ_of_lt (ht.fresh n e (by simpa [hnm] using hn))
  tried n a' r' hn := by
    by_cases hnm : n = nIdCount
    · simp [hnm] at hn
    · exact ht.tried n a' r' (by simpa [hnm] using hn)
  triedCells c n hn := by
    obtain ⟨a', r', hn', hc⟩ := ht.triedCells c n hn
    have hnm : n ≠ nIdCount := fun h' => lt_irrefl _ (h' ▸ ht.fresh n _ hn')
    exact ⟨a', r', by simpa [hnm] using hn', hc⟩
  refNew n a' r' hn := by
    by_cases hnm : n = nIdCount
    · subst hnm
      simp only [update_self, Option.some.injEq, Prod.mk.injEq] at hn
      obtain ⟨-, -, rfl⟩ := hn
      have hZero : cellCount vvNew n = 0 := by
        rw [cellCount_eq_zero_iff]
        intro c hc
        obtain ⟨a'', r'', hn', -⟩ := ht.newCells c _ hc
        exact lt_irrefl _ (ht.fresh _ _ hn')
      simp [hZero]
    · exact ht.refNew n a' r' (by simpa [hnm] using hn)
  newCells c n hn := by
    obtain ⟨a', r', hn', hPos⟩ := ht.newCells c n hn
    have hnm : n ≠ nIdCount := fun h' => lt_irrefl _ (h' ▸ ht.fresh n _ hn')
    exact ⟨a', r', by simpa [hnm] using hn', hPos⟩

end MapAddr

/-- A tried entry taken out of its tried cell, as a new entry in no cell. -/
theorem untry {m : Nat} {a : CService N} {r : Int} (hm : slots m = some (a, true, r)) :
    Tables h (update slots m (some (a, false, 0))) mapAddr nIdCount
      (update vvTried (triedCell h a) none) vvNew where
  addr x n := by
    rw [ht.addr x n]
    by_cases hn : n = m <;> simp_all
  fresh n e hn := by
    by_cases hnm : n = m
    · exact hnm ▸ ht.fresh m _ hm
    · exact ht.fresh n e (by simpa [hnm] using hn)
  tried n a' r' hn := by
    by_cases hnm : n = m
    · simp [hnm] at hn
    rw [update_of_ne hnm] at hn
    obtain ⟨hr, hCell⟩ := ht.tried n a' r' hn
    have hCell' : triedCell h a' ≠ triedCell h a := by
      intro hEq
      rw [hEq, (ht.tried m a r hm).2] at hCell
      exact hnm (Option.some.inj hCell).symm
    exact ⟨hr, by rw [update_of_ne hCell', hCell]⟩
  triedCells c n hn := by
    have hc : c ≠ triedCell h a := by
      rintro rfl
      simp at hn
    rw [update_of_ne hc] at hn
    obtain ⟨a', r', hn', hc'⟩ := ht.triedCells c n hn
    have hnm : n ≠ m := by
      rintro rfl
      rw [hm] at hn'
      simp only [Option.some.injEq, Prod.mk.injEq] at hn'
      exact hc (hn'.1 ▸ hc')
    exact ⟨a', r', by simpa [hnm] using hn', hc'⟩
  refNew n a' r' hn := by
    by_cases hnm : n = m
    · subst hnm
      simp only [update_self, Option.some.injEq, Prod.mk.injEq] at hn
      obtain ⟨-, -, rfl⟩ := hn
      simp [ht.cellCount_tried hm]
    · exact ht.refNew n a' r' (by simpa [hnm] using hn)
  newCells c n hn := by
    obtain ⟨a', r', hn', hPos⟩ := ht.newCells c n hn
    have hnm : n ≠ m := by
      rintro rfl
      rw [hm] at hn'
      cases hn'
    exact ⟨a', r', by simpa [hnm] using hn', hPos⟩

/-- A new entry that no cell holds put into its empty tried cell. -/
theorem promote {m : Nat} {a : CService N} (hm : slots m = some (a, false, 0))
    (hCell : vvTried (triedCell h a) = none) :
    Tables h (update slots m (some (a, true, 0))) mapAddr nIdCount
      (update vvTried (triedCell h a) (some m)) vvNew where
  addr x n := by
    rw [ht.addr x n]
    by_cases hn : n = m <;> simp_all
  fresh n e hn := by
    by_cases hnm : n = m
    · exact hnm ▸ ht.fresh m _ hm
    · exact ht.fresh n e (by simpa [hnm] using hn)
  tried n a' r' hn := by
    by_cases hnm : n = m
    · subst hnm
      simp only [update_self, Option.some.injEq, Prod.mk.injEq] at hn
      obtain ⟨rfl, -, rfl⟩ := hn
      simp
    rw [update_of_ne hnm] at hn
    obtain ⟨hr, hCell'⟩ := ht.tried n a' r' hn
    have hNe : triedCell h a' ≠ triedCell h a := by
      intro hEq
      rw [hEq, hCell] at hCell'
      cases hCell'
    exact ⟨hr, by rw [update_of_ne hNe, hCell']⟩
  triedCells c n hn := by
    by_cases hc : c = triedCell h a
    · subst hc
      simp only [update_self, Option.some.injEq] at hn
      subst hn
      exact ⟨a, 0, by simp, rfl⟩
    rw [update_of_ne hc] at hn
    obtain ⟨a', r', hn', hc'⟩ := ht.triedCells c n hn
    have hnm : n ≠ m := by
      rintro rfl
      rw [hm] at hn'
      cases hn'
    exact ⟨a', r', by simpa [hnm] using hn', hc'⟩
  refNew n a' r' hn := by
    by_cases hnm : n = m
    · simp [hnm] at hn
    · exact ht.refNew n a' r' (by simpa [hnm] using hn)
  newCells c n hn := by
    have hnm : n ≠ m := by
      rintro rfl
      exact ht.not_mem_new hm c hn
    obtain ⟨a', r', hn', hPos⟩ := ht.newCells c n hn
    exact ⟨a', r', by simpa [hnm] using hn', hPos⟩

/-- Every new cell of a new entry cleared; it keeps no reference. -/
theorem purge {m : Nat} {a : CService N} {r : Int} (hm : slots m = some (a, false, r)) :
    Tables h (update slots m (some (a, false, 0))) mapAddr nIdCount vvTried
      (CellCount.purge vvNew m) where
  addr x n := by
    rw [ht.addr x n]
    by_cases hn : n = m <;> simp_all
  fresh n e hn := by
    by_cases hnm : n = m
    · exact hnm ▸ ht.fresh m _ hm
    · exact ht.fresh n e (by simpa [hnm] using hn)
  tried n a' r' hn := by
    by_cases hnm : n = m
    · simp [hnm] at hn
    · exact ht.tried n a' r' (by simpa [hnm] using hn)
  triedCells c n hn := by
    obtain ⟨a', r', hn', hc⟩ := ht.triedCells c n hn
    have hnm : n ≠ m := by
      rintro rfl
      rw [hm] at hn'
      cases hn'
    exact ⟨a', r', by simpa [hnm] using hn', hc⟩
  refNew n a' r' hn := by
    by_cases hnm : n = m
    · subst hnm
      simp only [update_self, Option.some.injEq, Prod.mk.injEq] at hn
      obtain ⟨-, -, rfl⟩ := hn
      simp
    · rw [cellCount_purge_of_ne vvNew hnm]
      exact ht.refNew n a' r' (by simpa [hnm] using hn)
  newCells c n hn := by
    unfold CellCount.purge at hn
    split_ifs at hn with hcm
    obtain ⟨a', r', hn', hPos⟩ := ht.newCells c n hn
    have hnm : n ≠ m := fun h' => hcm (h' ▸ hn)
    exact ⟨a', r', by simpa [hnm] using hn', hPos⟩

end Tables

end FairCoin.Ports.AddrMan
