import Mathlib

/-!
# Flag words

A version or payload word announces optional parts by single bits: the
writer sets a bit with `|=`, the reader tests it with `&`. These are the facts
about that pattern for signed 32-bit words: a test after a set splits into a
test of the old word and a test of the bit that was set, which for constant
bits is decided by evaluation.

## Main results

* `testBit_or` — testing `d` in `v ||| c` tests `d` in `v` and in `c`.
-/

namespace FairCoin.Verified.FlagWord

theorem and_or_distrib (v c d : Int32) : (v ||| c) &&& d = (v &&& d) ||| (c &&& d) := by
  apply Int32.toBitVec_inj.mp
  simp [Int32.toBitVec_and, Int32.toBitVec_or, BitVec.and_or_distrib_right]

theorem or_eq_zero_iff (x y : Int32) : x ||| y = 0 ↔ x = 0 ∧ y = 0 := by
  rw [← Int32.toBitVec_inj, ← Int32.toBitVec_inj (b := 0), ← Int32.toBitVec_inj (b := 0)]
  simp [Int32.toBitVec_or]

theorem testBit_or (v c d : Int32) :
    ((v ||| c) &&& d != 0) = ((v &&& d != 0) || (c &&& d != 0)) := by
  rw [and_or_distrib, Bool.eq_iff_iff]
  simp only [bne_iff_ne, ne_eq, Bool.or_eq_true, or_eq_zero_iff]
  tauto

end FairCoin.Verified.FlagWord
