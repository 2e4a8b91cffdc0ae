import Mathlib

/-!
# Bit arrays stored in bytes

A bit array kept in a byte vector holds bit `n` as bit `7 & n` of byte
`n >> 3`: it is set with `v[n >> 3] |= 1 << (7 & n)` and tested with
`v[n >> 3] & (1 << (7 & n))`. Setting a bit never clears another, a set bit
makes its byte non-zero, and an array of zero bytes has no bit set.

## Main results

* `bitAt_setBitAt_self`, `bitAt_setBitAt_of_bitAt` — a bit just set is set,
  and a set bit stays set.
* `exists_ne_zero_of_bitAt` — an array with a set bit has a non-zero byte.
* `bitAt_foldl_of_mem` — setting a list of bits in turn leaves each set.
-/

namespace FairCoin.Verified.ByteBits

/-- The mask `1 << (7 & n)` of bit `n` within its byte. -/
def mask (n : Nat) : UInt8 := 1 <<< UInt8.ofNat (7 &&& n)

/-- `v[n >> 3] & (1 << (7 & n))` is not zero; a byte past the end reads as
zero. -/
def bitAt (v : List UInt8) (n : Nat) : Bool := v.getD (n >>> 3) 0 &&& mask n != 0

/-- `v[n >> 3] |= 1 << (7 & n)`. -/
def setBitAt (v : List UInt8) (n : Nat) : List UInt8 := v.modify (n >>> 3) (· ||| mask n)

/-! ## Bytes -/

theorem mask_ne_zero (n : Nat) : mask n ≠ 0 := by
  have h : 7 &&& n < 8 := Nat.lt_succ_of_le Nat.and_le_left
  unfold mask
  generalize 7 &&& n = k at h
  interval_cases k <;> decide

theorem and_or_distrib (b c m : UInt8) : (b ||| c) &&& m = (b &&& m) ||| (c &&& m) := by
  apply UInt8.toBitVec_inj.mp
  simp [BitVec.and_or_distrib_right]

theorem or_eq_zero_iff (x y : UInt8) : x ||| y = 0 ↔ x = 0 ∧ y = 0 := by
  rw [← UInt8.toBitVec_inj, ← UInt8.toBitVec_inj (b := 0), ← UInt8.toBitVec_inj (b := 0)]
  simp [UInt8.toBitVec_or]

/-! ## Arrays -/

@[simp] theorem length_setBitAt (v : List UInt8) (n : Nat) :
    (setBitAt v n).length = v.length := by
  simp [setBitAt]

theorem getD_setBitAt (v : List UInt8) (n j : Nat) :
    (setBitAt v n).getD j 0 =
      if n >>> 3 = j ∧ j < v.length then v.getD j 0 ||| mask n else v.getD j 0 := by
  simp only [setBitAt, List.getD_eq_getElem?_getD, List.getElem?_modify]
  by_cases hj : j < v.length
  · rw [List.getElem?_eq_getElem hj]
    by_cases hn : n >>> 3 = j <;> simp [hn, hj]
  · rw [List.getElem?_eq_none (by omega)]
    simp [hj]

/-- The byte of a bit below `8 * v.length` is in the array. -/
theorem shiftRight_lt_length {v : List UInt8} {n : Nat} (h : n < v.length * 8) :
    n >>> 3 < v.length := by
  rw [Nat.shiftRight_eq_div_pow]
  omega

theorem bitAt_setBitAt_self {v : List UInt8} {n : Nat} (h : n < v.length * 8) :
    bitAt (setBitAt v n) n = true := by
  have hByte : (v.getD (n >>> 3) 0 ||| mask n) &&& mask n ≠ 0 := by
    rw [and_or_distrib, UInt8.and_self, Ne, or_eq_zero_iff]
    exact fun hZero => mask_ne_zero n hZero.2
  rw [bitAt, getD_setBitAt, if_pos ⟨rfl, shiftRight_lt_length h⟩]
  simpa using hByte

theorem bitAt_setBitAt_of_bitAt {v : List UInt8} {m : Nat} (hm : bitAt v m = true) (n : Nat) :
    bitAt (setBitAt v n) m = true := by
  simp only [bitAt, bne_iff_ne, ne_eq] at hm ⊢
  rw [getD_setBitAt]
  split
  · rw [and_or_distrib, or_eq_zero_iff]
    exact fun hZero => hm hZero.1
  · exact hm

/-- A set bit sits in a non-zero byte of the array. -/
theorem exists_ne_zero_of_bitAt {v : List UInt8} {n : Nat} (h : bitAt v n = true) :
    ∃ b ∈ v, b ≠ 0 := by
  simp only [bitAt, bne_iff_ne, ne_eq, List.getD_eq_getElem?_getD] at h
  cases hGet : v[n >>> 3]? with
  | none => simp [hGet] at h
  | some b =>
    refine ⟨b, List.mem_of_getElem? hGet, fun hb => h ?_⟩
    simp [hGet, hb]

/-! ## Setting several bits -/

@[simp] theorem length_foldl_setBitAt (g : Nat → Nat) (is : List Nat) (v : List UInt8) :
    (is.foldl (fun v i => setBitAt v (g i)) v).length = v.length := by
  induction is generalizing v with
  | nil => rfl
  | cons i is ih => rw [List.foldl_cons, ih, length_setBitAt]

theorem bitAt_foldl_of_bitAt (g : Nat → Nat) (is : List Nat) {v : List UInt8} {m : Nat}
    (hm : bitAt v m = true) : bitAt (is.foldl (fun v i => setBitAt v (g i)) v) m = true := by
  induction is generalizing v with
  | nil => exact hm
  | cons i is ih => exact ih (bitAt_setBitAt_of_bitAt hm _)

/-- Each bit a fold sets is set at its end. -/
theorem bitAt_foldl_of_mem (g : Nat → Nat) {is : List Nat} {v : List UInt8} {i : Nat}
    (hi : i ∈ is) (hg : g i < v.length * 8) :
    bitAt (is.foldl (fun v i => setBitAt v (g i)) v) (g i) = true := by
  induction is generalizing v with
  | nil => simp at hi
  | cons j is ih =>
    rw [List.foldl_cons]
    rcases List.mem_cons.1 hi with rfl | hMem
    · exact bitAt_foldl_of_bitAt g is (bitAt_setBitAt_self hg)
    · exact ih hMem (by rw [length_setBitAt]; exact hg)

end FairCoin.Verified.ByteBits
