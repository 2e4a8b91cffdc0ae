import Mathlib

/-!
# Dense indices: a vector of keys with back-pointers

A table that must pick a random entry in constant time keeps its keys in a
vector and stores, in each entry, the entry's position there. Adding a key
appends it; removing one swaps it with the last slot and pops the vector.

The invariant that ties the two together is stated as one equivalence,
`pos k = some i ↔ v[i]? = some k`, so that an edit has to be checked only at
the slots and keys it writes. Distinctness of the listed keys follows from it.

## Main results

* `Dense.nodup`, `Dense.mem_iff` — a dense vector lists each pointed key once,
  and lists exactly the keys that have a pointer.
* `Dense.push`, `Dense.swap`, `Dense.pop` — appending, exchanging two slots
  and dropping the last slot keep the invariant.
* `take_set_set` — a swap of two slots at or past `n` leaves the first `n`
  slots alone, which is what a partial Fisher–Yates shuffle rests on.
-/

namespace FairCoin.Verified.DenseIndex

open Function

variable {κ : Type}

/-- `v` holds `k` in slot `i` exactly when `pos k` points to `i`. -/
def Dense (v : List κ) (pos : κ → Option Nat) : Prop :=
  ∀ k i, pos k = some i ↔ v[i]? = some k

variable {v : List κ} {pos : κ → Option Nat}

theorem dense_nil : Dense ([] : List κ) fun _ => none := by
  intro k i
  simp

theorem Dense.getElem?_eq {k : κ} {i : Nat} (hd : Dense v pos) (h : pos k = some i) :
    v[i]? = some k :=
  (hd k i).mp h

theorem Dense.pos_eq {k : κ} {i : Nat} (hd : Dense v pos) (h : v[i]? = some k) :
    pos k = some i :=
  (hd k i).mpr h

/-- Two slots holding one key are the same slot. -/
theorem Dense.slot_inj {k : κ} {i j : Nat} (hd : Dense v pos) (hi : v[i]? = some k)
    (hj : v[j]? = some k) : i = j := by
  have h := (hd.pos_eq hi).symm.trans (hd.pos_eq hj)
  exact Option.some.inj h

theorem Dense.nodup (hd : Dense v pos) : v.Nodup := by
  rw [List.nodup_iff_injective_get]
  intro i j hij
  apply Fin.ext
  apply hd.slot_inj (k := v.get i)
  · simp
  · simp only [hij, List.get_eq_getElem, List.getElem?_eq_getElem j.isLt]

theorem Dense.mem_iff (hd : Dense v pos) (k : κ) : k ∈ v ↔ (pos k).isSome := by
  constructor
  · intro hk
    obtain ⟨i, hi, hik⟩ := List.getElem_of_mem hk
    rw [hd.pos_eq (List.getElem?_eq_some_iff.mpr ⟨hi, hik⟩)]
    rfl
  · intro hk
    obtain ⟨i, hi⟩ := Option.isSome_iff_exists.mp hk
    exact List.mem_of_getElem? (hd.getElem?_eq hi)

theorem Dense.pos_lt {k : κ} {i : Nat} (hd : Dense v pos) (h : pos k = some i) :
    i < v.length :=
  (List.getElem?_eq_some_iff.mp (hd.getElem?_eq h)).1

/-- Writing two slots at or past `n` leaves the first `n` slots as they were. -/
theorem take_set_set {n i j : Nat} (hi : n ≤ i) (hj : n ≤ j) (x y : κ) (l : List κ) :
    ((l.set i x).set j y).take n = l.take n := by
  rw [List.take_set_of_le hj, List.take_set_of_le hi]

variable [DecidableEq κ]

/-- Appending a key that has no pointer yet, pointed to the new last slot. -/
theorem Dense.push {a : κ} (hd : Dense v pos) (ha : pos a = none) :
    Dense (v ++ [a]) (update pos a (some v.length)) := by
  intro k m
  have hk := hd k m
  simp only [update_apply, List.getElem?_append]
  grind

/-- Exchanging the keys of slots `i` and `j` and their pointers. -/
theorem Dense.swap {i j : Nat} {a b : κ} (hd : Dense v pos) (ha : v[i]? = some a)
    (hb : v[j]? = some b) :
    Dense ((v.set i b).set j a) (update (update pos a (some j)) b (some i)) := by
  have hi : i < v.length := (List.getElem?_eq_some_iff.mp ha).1
  have hj : j < v.length := (List.getElem?_eq_some_iff.mp hb).1
  have hpa := hd.pos_eq ha
  have hpb := hd.pos_eq hb
  intro k m
  have hk := hd k m
  simp only [List.getElem?_set, List.length_set, update_apply]
  grind

/-- Dropping the last slot, whose key loses its pointer. -/
theorem Dense.pop {a : κ} (hd : Dense v pos) (ha : v.getLast? = some a) :
    Dense v.dropLast (update pos a none) := by
  obtain ⟨w, rfl⟩ := List.getLast?_eq_some_iff.mp ha
  have hLast : pos a = some w.length := hd.pos_eq (by simp)
  intro k m
  have hk := hd k m
  simp only [List.dropLast_concat, update_apply, List.getElem?_append] at hk ⊢
  grind

end FairCoin.Verified.DenseIndex
