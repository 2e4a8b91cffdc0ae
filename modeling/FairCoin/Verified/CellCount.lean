import Mathlib

/-!
# Counting the cells of a table that hold a key

A table of fixed shape whose cells each hold at most one key, with a
reference count kept beside each key, is consistent when the count of `k` is
the number of cells that hold `k`. This module counts those cells and shows
how one write changes the count, so that a count kept beside the table can be
checked write by write.

Where the cells are pairs `(b, p)` of a bucket and a position, and a key may
sit in bucket `b` only at the position `pos b` it hashes to, a loop over the
buckets that looks at one cell per bucket finds every cell of the key. That is
the second half of the module.

## Main results

* `cellCount_update` — a write changes the count of the key it overwrites and
  the count of the key it writes by one each, and no other count.
* `cellCount_eq_zero_iff`, `exists_of_cellCount_pos` — a count is zero
  exactly when no cell holds the key.
* `card_le_of_held` — keys that each sit in some cell are at most as many as
  the cells.
* `foldl_clearStep` — clearing, bucket by bucket, the cell at `pos b` where it
  holds `k` removes every cell of `k` and takes their number off the counter.
-/

namespace FairCoin.Verified.CellCount

open Function

variable {C κ : Type} [Fintype C] [DecidableEq κ]

/-- The number of cells of `t` that hold `k`. -/
def cellCount (t : C → Option κ) (k : κ) : Nat :=
  (Finset.univ.filter fun c => t c = some k).card

theorem cellCount_eq_sum (t : C → Option κ) (k : κ) :
    cellCount t k = ∑ c, if t c = some k then 1 else 0 := by
  rw [cellCount, Finset.card_filter]

@[simp] theorem cellCount_const_none (k : κ) : cellCount (fun _ : C => none) k = 0 := by
  simp [cellCount]

theorem cellCount_eq_zero_iff (t : C → Option κ) (k : κ) :
    cellCount t k = 0 ↔ ∀ c, t c ≠ some k := by
  simp [cellCount, Finset.filter_eq_empty_iff]

theorem exists_of_cellCount_pos {t : C → Option κ} {k : κ} (h : 0 < cellCount t k) :
    ∃ c, t c = some k := by
  by_contra hNone
  have hZero := (cellCount_eq_zero_iff t k).mpr fun c hc => hNone ⟨c, hc⟩
  omega

/-- Keys that each sit in some cell are at most as many as the cells. -/
theorem card_le_of_held (t : C → Option κ) (S : Finset κ) (hS : ∀ k ∈ S, ∃ c, t c = some k) :
    S.card ≤ Fintype.card C := by
  have hSub : S.image some ⊆ Finset.univ.image t := by
    intro o ho
    obtain ⟨k, hk, rfl⟩ := Finset.mem_image.mp ho
    obtain ⟨c, hc⟩ := hS k hk
    exact Finset.mem_image.mpr ⟨c, Finset.mem_univ c, hc⟩
  calc S.card = (S.image some).card := (Finset.card_image_of_injective S (Option.some_injective κ)).symm
    _ ≤ (Finset.univ.image t).card := Finset.card_le_card hSub
    _ ≤ Finset.univ.card := Finset.card_image_le
    _ = Fintype.card C := Finset.card_univ

section Writes

variable [DecidableEq C]

/-- One write: the overwritten key loses the cell, the written key gains it. -/
theorem cellCount_update (t : C → Option κ) (c : C) (x : Option κ) (k : κ) :
    cellCount (update t c x) k + (if t c = some k then 1 else 0) =
      cellCount t k + (if x = some k then 1 else 0) := by
  have hNew := Finset.add_sum_erase Finset.univ
    (fun c' => if update t c x c' = some k then 1 else 0) (Finset.mem_univ c)
  have hOld := Finset.add_sum_erase Finset.univ
    (fun c' => if t c' = some k then 1 else 0) (Finset.mem_univ c)
  have hRest : ∑ c' ∈ Finset.univ.erase c, (if update t c x c' = some k then 1 else 0) =
      ∑ c' ∈ Finset.univ.erase c, (if t c' = some k then 1 else 0) := by
    apply Finset.sum_congr rfl
    intro c' hc'
    rw [update_of_ne (Finset.ne_of_mem_erase hc')]
  simp only [update_self] at hNew
  rw [cellCount_eq_sum, cellCount_eq_sum, ← hNew, ← hOld, hRest]
  omega

/-- Writing a cell that held neither `k` nor is set to `k` keeps the count of `k`. -/
theorem cellCount_update_of_ne {t : C → Option κ} {c : C} {x : Option κ} {k : κ}
    (hOld : t c ≠ some k) (hNew : x ≠ some k) : cellCount (update t c x) k = cellCount t k := by
  have h := cellCount_update t c x k
  simp only [hOld, hNew, if_false] at h
  omega

end Writes

/-! ## Clearing a key bucket by bucket -/

section Buckets

variable {B P : Type} [Fintype B] [Fintype P]

/-- The table with every cell that holds `k` cleared. -/
def purge (t : B × P → Option κ) (k : κ) : B × P → Option κ :=
  fun c => if t c = some k then none else t c

@[simp] theorem cellCount_purge_self (t : B × P → Option κ) (k : κ) : cellCount (purge t k) k = 0 := by
  rw [cellCount_eq_zero_iff]
  intro c
  unfold purge
  split_ifs with h
  · simp
  · exact h

theorem cellCount_purge_of_ne (t : B × P → Option κ) {k k' : κ} (hk : k' ≠ k) :
    cellCount (purge t k) k' = cellCount t k' := by
  unfold cellCount purge
  congr 1
  apply Finset.filter_congr
  intro c _
  split_ifs with h
  · simp only [false_iff]
    rw [h]
    exact fun h' => hk (Option.some.inj h').symm
  · rfl

/-- The cells of `k` are the cells `(b, pos b)` that hold it. -/
theorem cellCount_eq_card_buckets (pos : B → P) (k : κ) (t : B × P → Option κ)
    (hPos : ∀ c, t c = some k → c.2 = pos c.1) :
    cellCount t k = (Finset.univ.filter fun b => t (b, pos b) = some k).card := by
  unfold cellCount
  apply Finset.card_bij' (fun c _ => c.1) (fun b _ => (b, pos b))
  · intro c hc
    simpa [← hPos c (Finset.mem_filter.mp hc).2] using (Finset.mem_filter.mp hc).2
  · intro b hb
    simpa using (Finset.mem_filter.mp hb).2
  · intro c hc
    exact Prod.ext rfl (hPos c (Finset.mem_filter.mp hc).2).symm
  · intro b _
    rfl

variable [DecidableEq B] [DecidableEq P]

/-- One pass of a loop over the buckets: clear the cell at `pos b` if it holds
`k`, and take one off the counter. -/
def clearStep (pos : B → P) (k : κ) (acc : (B × P → Option κ) × Int) (b : B) :
    (B × P → Option κ) × Int :=
  if acc.1 (b, pos b) = some k then (update acc.1 (b, pos b) none, acc.2 - 1) else acc

omit [Fintype B] [Fintype P] in
/-- The loop over the buckets of `bs`, when `k` sits in each bucket only at
`pos b`: the cells of `k` in those buckets are cleared and counted. -/
theorem foldl_clearStep_list (pos : B → P) (k : κ) :
    ∀ (bs : List B) (t : B × P → Option κ) (n : Int), bs.Nodup →
      (∀ c, t c = some k → c.2 = pos c.1) →
      bs.foldl (clearStep pos k) (t, n) =
        (fun c => if c.1 ∈ bs ∧ t c = some k then none else t c,
          n - ((bs.filter fun b => t (b, pos b) = some k).length : Int))
  | [], t, n, _, _ => by simp
  | b :: bs, t, n, hNodup, hPos => by
    obtain ⟨hb, hbs⟩ := List.nodup_cons.mp hNodup
    set t₁ : B × P → Option κ := if t (b, pos b) = some k then update t (b, pos b) none else t
      with ht₁
    have hFrame : ∀ c, c.1 ≠ b → t₁ c = t c := by
      intro c hc
      rw [ht₁]
      split_ifs
      · exact update_of_ne (fun h => hc (congrArg Prod.fst h)) _ _
      · rfl
    have hPos₁ : ∀ c, t₁ c = some k → c.2 = pos c.1 := by
      intro c hc
      rw [ht₁] at hc
      split_ifs at hc with h
      · by_cases hcb : c = (b, pos b)
        · rw [hcb, update_self] at hc
          cases hc
        · rw [update_of_ne hcb] at hc
          exact hPos c hc
      · exact hPos c hc
    have hStep : clearStep pos k (t, n) b =
        (t₁, n - (if t (b, pos b) = some k then 1 else 0)) := by
      by_cases h : t (b, pos b) = some k <;> simp [clearStep, ht₁, h]
    have hFilter : (bs.filter fun b' => t₁ (b', pos b') = some k) =
        bs.filter fun b' => t (b', pos b') = some k := by
      apply List.filter_congr
      intro b' hb'
      rw [hFrame (b', pos b') (fun h => hb (h ▸ hb'))]
    rw [List.foldl_cons, hStep, foldl_clearStep_list pos k bs t₁ _ hbs hPos₁, hFilter]
    simp only [Prod.mk.injEq]
    constructor
    · funext c
      have hc := hPos c
      by_cases hcb : c.1 = b
      · simp only [ht₁, List.mem_cons, hcb, true_or, true_and]
        grind
      · simp only [List.mem_cons, hcb, false_or, hFrame c hcb]
    · by_cases h : t (b, pos b) = some k
      · simp [h]
        omega
      · simp [h]

/-- The loop over all the buckets, each once: every cell of `k` is cleared
and the counter loses their number. -/
theorem foldl_clearStep (pos : B → P) (k : κ) (bs : List B) (hNodup : bs.Nodup)
    (hAll : ∀ b, b ∈ bs) (t : B × P → Option κ) (hPos : ∀ c, t c = some k → c.2 = pos c.1)
    (n : Int) : bs.foldl (clearStep pos k) (t, n) = (purge t k, n - cellCount t k) := by
  rw [foldl_clearStep_list pos k bs t n hNodup hPos, cellCount_eq_card_buckets pos k t hPos]
  have hLen : (bs.filter fun b => t (b, pos b) = some k).length =
      (Finset.univ.filter fun b => t (b, pos b) = some k).card := by
    rw [← List.toFinset_card_of_nodup (hNodup.filter _), List.toFinset_filter]
    congr 1
    ext b
    simp [hAll b]
  simp only [hAll, true_and, hLen]
  rfl

end Buckets

end FairCoin.Verified.CellCount
