import Mathlib.Data.List.DropRight

/-!
# Slot lists: vectors whose null slots are trimmed at the end

A slot list is a vector in which a slot is either a value or a designated
null `d` (recognised by `p`), kept with no null slot at its end. Clearing a
slot writes `d` into it and trims the trailing nulls; restoring a slot grows
the vector with nulls up to the slot and writes the value back.

The main fact is that restoring undoes clearing exactly: the trim only
removes nulls that the growth puts back. This holds when every null slot is
`d` itself, which is why `Slots` records that as well.

## Main results

* `slots_clearSlot`, `slots_restoreSlot` — both operations keep a slot list
  well formed.
* `restoreSlot_clearSlot` — restoring a cleared slot with its old value gives
  the list back.
* `getElem?_clearSlot`, `getElem?_restoreSlot` — what the slot holds after
  each operation.
-/

namespace FairCoin.Verified.SlotList

open List

variable {α : Type} (p : α → Bool) (d : α)

/-- `l` padded with `d` up to length `n`; a list at least that long is left as
it is. -/
def growTo (n : Nat) (l : List α) : List α := l ++ replicate (n - l.length) d

/-- Slot `n` cleared to `d`, then the trailing null slots dropped. -/
def clearSlot (n : Nat) (l : List α) : List α := (l.set n d).rdropWhile p

/-- The list grown to hold slot `n`, and `x` written into it. -/
def restoreSlot (n : Nat) (x : α) (l : List α) : List α := (growTo d (n + 1) l).set n x

/-- A well-formed slot list: nothing to trim at the end, and every null slot
is `d`. -/
structure Slots (l : List α) : Prop where
  trimmed : l.rdropWhile p = l
  canonical : ∀ y ∈ l, p y = true → y = d

variable {p d}

theorem growTo_of_le {n : Nat} {l : List α} (h : n ≤ l.length) : growTo d n l = l := by
  simp [growTo, Nat.sub_eq_zero_of_le h]

theorem length_growTo (n : Nat) (l : List α) : (growTo d n l).length = max n l.length := by
  simp only [growTo, length_append, length_replicate]
  omega

theorem slots_nil : Slots p d [] := ⟨rdropWhile_nil p, by simp⟩

/-- Trimming a list whose nulls are all `d` gives a slot list. -/
theorem slots_rdropWhile {l : List α} (h : ∀ y ∈ l, p y = true → y = d) :
    Slots p d (l.rdropWhile p) := by
  have hPre := rdropWhile_prefix p l
  exact ⟨rdropWhile_idempotent p l, fun y hy => h y (hPre.subset hy)⟩

/-- A slot list is empty exactly when all its slots are null. -/
theorem eq_nil_of_slots {l : List α} (hl : Slots p d l) (hNull : ∀ y ∈ l, p y = true) :
    l = [] := by
  rw [← hl.trimmed]
  exact rdropWhile_eq_nil_iff.mpr hNull

/-- The trailing nulls of a slot list's prefix are copies of `d`. -/
theorem rtakeWhile_eq_replicate {l : List α} (h : ∀ y ∈ l, p y = true → y = d) :
    l.rtakeWhile p = replicate (l.rtakeWhile p).length d := by
  apply eq_replicate_iff.mpr
  refine ⟨rfl, fun y hy => h y ((rtakeWhile_suffix p l).subset hy) ?_⟩
  exact mem_rtakeWhile_imp hy

theorem slots_clearSlot (hd : p d = true) {l : List α} (hl : Slots p d l) (n : Nat) :
    Slots p d (clearSlot p d n l) := by
  apply slots_rdropWhile
  intro y hy hNull
  rcases mem_or_eq_of_mem_set hy with hMem | rfl
  · exact hl.canonical y hMem hNull
  · rfl

/-- Writing into the slot just past a prefix `a`. -/
theorem set_length_append (a b : List α) (x y : α) : (a ++ x :: b).set a.length y = a ++ y :: b := by
  rw [set_append_right _ _ (le_refl _), Nat.sub_self, set_cons_zero]

/-- Restoring into slot `n`, as a list: within the list the slot is
overwritten, past its end the list grows by nulls and then `x`. -/
theorem restoreSlot_eq (n : Nat) (x : α) (l : List α) :
    restoreSlot d n x l =
      if n < l.length then l.set n x else l ++ replicate (n - l.length) d ++ [x] := by
  unfold restoreSlot
  split
  · next hLt => rw [growTo_of_le (by omega)]
  · next hGe =>
    have hGrow : growTo d (n + 1) l = (l ++ replicate (n - l.length) d) ++ [d] := by
      rw [growTo, show n + 1 - l.length = (n - l.length) + 1 by omega, replicate_succ',
        append_assoc]
    have hLen : (l ++ replicate (n - l.length) d).length = n := by
      simp only [length_append, length_replicate]
      omega
    rw [hGrow, set_append_right _ _ (by omega), hLen, Nat.sub_self]
    rfl

theorem slots_restoreSlot (hd : p d = true) {l : List α} (hl : Slots p d l) (n : Nat) {x : α}
    (hx : p x = false) : Slots p d (restoreSlot d n x l) := by
  rw [restoreSlot_eq]
  split
  · next hLt =>
    obtain ⟨a, z, rfl⟩ : ∃ a z, l = a ++ [z] := ⟨l.dropLast, l.getLast (ne_nil_of_length_pos
      (by omega)), (dropLast_append_getLast _).symm⟩
    have hz : p z = false := by
      have := rdropWhile_eq_self_iff.mp hl.trimmed (by simp)
      simpa using this
    have hSet : (a ++ [z]).set n x = if n < a.length then a.set n x ++ [z] else a ++ [x] := by
      split
      · next hA => rw [set_append_left _ _ hA]
      · next hA =>
        have hn : n = a.length := by simp at hLt; omega
        subst hn
        exact set_length_append a [] z x
    constructor
    · rw [hSet]
      split <;> exact rdropWhile_concat_neg _ _ _ (by simp [hz, hx])
    · intro y hy hNull
      rcases mem_or_eq_of_mem_set hy with hMem | rfl
      · exact hl.canonical y hMem hNull
      · rw [hx] at hNull
        cases hNull
  · next hGe =>
    constructor
    · exact rdropWhile_concat_neg _ _ _ (by simp [hx])
    · intro y hy hNull
      simp only [mem_append, mem_replicate, mem_singleton] at hy
      rcases hy with (hMem | ⟨-, rfl⟩) | rfl
      · exact hl.canonical y hMem hNull
      · rfl
      · rw [hx] at hNull
        cases hNull

/-- Restoring a cleared slot with its old value gives the slot list back.
When the slot is not the last, nothing was trimmed; when it is, the trimmed
nulls are copies of `d` and the growth puts them back. -/
theorem restoreSlot_clearSlot (hd : p d = true) {l : List α} (hl : Slots p d l) {n : Nat}
    (hn : n < l.length) :
    restoreSlot d n l[n] (clearSlot p d n l) = l := by
  obtain ⟨a, b, hab, ha⟩ : ∃ a b, l = a ++ l[n] :: b ∧ a.length = n :=
    ⟨l.take n, l.drop (n + 1), by simp, by simp; omega⟩
  generalize l[n] = x at hab ⊢
  subst hab ha
  unfold clearSlot restoreSlot
  rw [set_length_append]
  cases b using reverseRecOn with
  | nil =>
    -- the cleared slot was the last: the trim also removes `a`'s trailing nulls
    have hTrim : (a ++ [d]).rdropWhile p = a.rdropWhile p := rdropWhile_concat_pos _ _ _ hd
    have hCanon : ∀ y ∈ a, p y = true → y = d := fun y hy => hl.canonical y (by simp [hy])
    have hSplit : a.rdropWhile p ++ a.rtakeWhile p = a := rdropWhile_append_rtakeWhile
    rw [rtakeWhile_eq_replicate hCanon] at hSplit
    have hLen : (a.rdropWhile p).length + (a.rtakeWhile p).length = a.length := by
      rw [← length_append, rdropWhile_append_rtakeWhile]
    have hGrow : growTo d (a.length + 1) (a.rdropWhile p) = a ++ [d] := by
      rw [growTo, show a.length + 1 - (a.rdropWhile p).length = (a.rtakeWhile p).length + 1 by
        omega, replicate_succ', ← append_assoc, hSplit]
    rw [hTrim, hGrow, set_length_append]
  | append_singleton b z _ =>
    -- a later value slot remains, so nothing is trimmed and nothing grows
    have hz : p z = false := by
      have hLast := rdropWhile_eq_self_iff.mp hl.trimmed (by simp)
      simp only [← cons_append, ← append_assoc, getLast_append_singleton] at hLast
      simpa using hLast
    have hKeep : (a ++ d :: (b ++ [z])).rdropWhile p = a ++ d :: (b ++ [z]) := by
      rw [← cons_append, ← append_assoc]
      exact rdropWhile_concat_neg _ _ _ (by simp [hz])
    rw [hKeep, growTo_of_le (by simp), set_length_append]

/-- A cleared slot holds a null, or lies past the end of the list. -/
theorem getElem?_clearSlot (hd : p d = true) (n : Nat) (l : List α) {y : α}
    (hy : (clearSlot p d n l)[n]? = some y) : p y = true := by
  unfold clearSlot at hy
  obtain ⟨t, ht⟩ := rdropWhile_prefix p (l.set n d)
  obtain ⟨hLt, -⟩ := List.getElem?_eq_some_iff.mp hy
  have hSet : (l.set n d)[n]? = some y := by
    rw [← ht, getElem?_append_left hLt]
    exact hy
  rw [getElem?_set, if_pos rfl] at hSet
  split_ifs at hSet
  cases hSet
  exact hd

/-- A restored slot holds the value written into it. -/
theorem getElem?_restoreSlot (n : Nat) (x : α) (l : List α) :
    (restoreSlot d n x l)[n]? = some x := by
  apply getElem?_set_self
  rw [length_growTo]
  omega

end FairCoin.Verified.SlotList
