import FairCoin.Ports.Script

/-!
# Script numbers: encodings and values in bijection

`CScriptNum::serialize` writes the magnitude of a number little-endian with
no zero byte at the end, and the sign in the top bit of the last byte; a
byte is added when that bit is taken by the magnitude. `set_vch` reads such a
string back. The constructor with `fRequireMinimal` rejects a string whose
last byte carries only the sign, unless the byte before it needs its top bit
for the magnitude.

The strings it accepts are exactly the images of `serialize`: every image is
minimal (`isMinimal_serialize`), `set_vch` inverts `serialize`
(`set_vch_serialize`), and `serialize` inverts `set_vch` on minimal strings
(`serialize_set_vch`). The argument reads a string as its bytes before the
last and its last byte, and a magnitude through its shortest little-endian
bytes, which are unique (`magnitudeBytes_leValue`).

## Main results

* `scriptNum_bijection` — every `int64_t` other than the least reads back
  from its encoding under the eight-byte limit; an accepted string is the
  encoding of its value; and within the size limit the constructor throws
  exactly on the strings that are not.
-/

namespace FairCoin.Ports.ScriptNum

open FairCoin.Verified.ByteCodec FairCoin.Ports.Script

/-! ## Shortest little-endian magnitudes -/

theorem le_leValue_of_getLast {bs : List UInt8} {last : UInt8} (h : bs.getLast? = some last)
    (hLast : last ≠ 0) : 256 ^ (bs.length - 1) ≤ leValue bs := by
  obtain ⟨init, rfl⟩ : ∃ init, bs = init ++ [last] := by
    rcases List.eq_nil_or_concat bs with rfl | ⟨init, b, rfl⟩
    · cases h
    · rw [List.concat_eq_append, List.getLast?_concat, Option.some.injEq] at h
      exact ⟨init, by rw [List.concat_eq_append, h]⟩
  have hByte : 1 ≤ last.toNat := by
    rw [Nat.one_le_iff_ne_zero]
    intro h0
    exact hLast (UInt8.toNat_inj.1 h0)
  rw [leValue_append, List.length_append, List.length_singleton, Nat.add_sub_cancel]
  have hSingle : leValue [last] = last.toNat := by simp [leValue]
  rw [hSingle]
  calc 256 ^ init.length = 256 ^ init.length * 1 := (Nat.mul_one _).symm
    _ ≤ 256 ^ init.length * last.toNat := Nat.mul_le_mul_left _ hByte
    _ ≤ leValue init + 256 ^ init.length * last.toNat := Nat.le_add_left _ _

/-- A string without a zero at its end is the shortest little-endian
encoding of its value. -/
theorem magnitudeBytes_leValue {bs : List UInt8} (hLast : bs.getLast? ≠ some 0) {fuel : Nat}
    (hFuel : bs.length ≤ fuel) : magnitudeBytes fuel (leValue bs) = bs := by
  induction bs generalizing fuel with
  | nil => cases fuel <;> rfl
  | cons b rest ih =>
    obtain ⟨fuel, rfl⟩ : ∃ k, fuel = k + 1 := ⟨fuel - 1, by simp at hFuel; omega⟩
    have hRest : rest.getLast? ≠ some 0 := by
      cases rest with
      | nil => simp
      | cons c rest' => rwa [List.getLast?_cons_cons] at hLast
    have hValue : leValue (b :: rest) ≠ 0 := by
      cases hr : rest.getLast? with
      | none =>
        rw [List.getLast?_eq_none_iff] at hr
        subst hr
        have hb : b ≠ 0 := fun h => hLast (by rw [h]; rfl)
        have hbNat : b.toNat ≠ 0 := fun h => hb (UInt8.toNat_inj.1 h)
        simp [leValue, hbNat]
      | some c =>
        have hc : c ≠ 0 := fun h => hRest (h ▸ hr)
        have hPos := le_leValue_of_getLast hr hc
        have hPow : 1 ≤ 256 ^ (rest.length - 1) := Nat.one_le_pow _ _ (by decide)
        rw [leValue]
        omega
    have hb := b.toNat_lt
    have hLow : (leValue (b :: rest) % 256).toUInt8 = b := by
      rw [leValue]
      apply UInt8.toNat_inj.1
      rw [Nat.toUInt8_eq, UInt8.toNat_ofNat']
      omega
    have hHigh : leValue (b :: rest) / 256 = leValue rest := by
      rw [leValue]
      omega
    rw [magnitudeBytes, if_neg hValue, hLow, hHigh, ih hRest (by simp at hFuel; omega)]

/-- `magnitudeBytes m m` is the shortest little-endian encoding of `m`. -/
theorem leValue_magnitudeBytes (fuel m : Nat) (hFuel : m ≤ fuel) :
    leValue (magnitudeBytes fuel m) = m ∧ (magnitudeBytes fuel m).getLast? ≠ some 0 := by
  induction fuel generalizing m with
  | zero =>
    obtain rfl : m = 0 := by omega
    simp [magnitudeBytes, leValue]
  | succ fuel ih =>
    by_cases hZero : m = 0
    · subst hZero
      simp [magnitudeBytes, leValue]
    · have hRest := ih (m / 256) (by omega)
      have hLow : (m % 256).toUInt8.toNat = m % 256 := by
        rw [Nat.toUInt8_eq, UInt8.toNat_ofNat']
        omega
      rw [magnitudeBytes, if_neg hZero]
      refine ⟨?_, ?_⟩
      · rw [leValue, hRest.1, hLow]
        omega
      · cases hr : magnitudeBytes fuel (m / 256) with
        | nil =>
          have hSmall : m / 256 = 0 := by
            have h := hRest.1
            rw [hr] at h
            exact h.symm
          intro h
          simp only [List.getLast?_singleton, Option.some.injEq] at h
          have h' := congrArg UInt8.toNat h
          rw [hLow] at h'
          exact hZero (by simp at h'; omega)
        | cons c cs =>
          rw [List.getLast?_cons_cons, ← hr]
          exact hRest.2

/-! ## Reading a string at its last byte -/

theorem bne_zero_eq_decide (x : UInt8) : (x != 0) = decide (x.toNat ≠ 0) := by
  by_cases hx : x = 0
  · subst hx
    rfl
  · have hNat : x.toNat ≠ 0 := fun h => hx (UInt8.toNat_inj.1 h)
    simp [hx, hNat]

theorem set_vch_concat (init : List UInt8) (last : UInt8) :
    set_vch (init ++ [last]) = if 128 ≤ last.toNat
      then -((leValue init + 256 ^ init.length * (last.toNat % 128) : Nat) : Int)
      else ((leValue init + 256 ^ init.length * last.toNat : Nat) : Int) := by
  have hValue : leValue (init ++ [last]) = leValue init + 256 ^ init.length * last.toNat := by
    rw [leValue_append]
    simp [leValue]
  unfold set_vch
  rw [List.getLast?_concat]
  dsimp only
  rw [topBit_ne_zero, hValue, List.length_append, List.length_singleton, Nat.add_sub_cancel]
  by_cases hTop : 128 ≤ last.toNat
  · rw [if_pos (decide_eq_true hTop), if_pos hTop]
    have hSplit : last.toNat = 128 + last.toNat % 128 := by
      have hb := last.toNat_lt
      omega
    congr 1
    conv_lhs => rw [hSplit]
    push_cast
    ring
  · rw [if_neg (by simpa using hTop), if_neg hTop]

theorem isMinimal_concat (init : List UInt8) (last : UInt8) :
    isMinimal (init ++ [last]) =
      (decide (last.toNat % 128 ≠ 0) || init.getLast?.any fun p => decide (128 ≤ p.toNat)) := by
  have hLow : (last &&& 0x7f != 0) = decide (last.toNat % 128 ≠ 0) := by
    rw [← lowBits_toNat, bne_zero_eq_decide]
  simp only [isMinimal, List.reverse_concat']
  rw [hLow]
  congr 1
  cases hInit : init.getLast? with
  | none =>
    rw [List.getLast?_eq_none_iff] at hInit
    subst hInit
    rfl
  | some p =>
    rw [List.getLast?_eq_head?_reverse] at hInit
    cases hRev : init.reverse with
    | nil => rw [hRev] at hInit; cases hInit
    | cons q qs =>
      rw [hRev, List.head?_cons, Option.some.injEq] at hInit
      subst hInit
      simp [topBit_ne_zero]

/-! ## `serialize` at the last byte of the magnitude -/

theorem length_le_leValue {bs : List UInt8} {last : UInt8} (h : bs.getLast? = some last)
    (hLast : last ≠ 0) : bs.length ≤ leValue bs := by
  have hPow := le_leValue_of_getLast h hLast
  have hLen : bs.length - 1 < 256 ^ (bs.length - 1) := Nat.lt_pow_self (by decide)
  have hPos : 0 < bs.length := List.length_pos_iff.2 (fun hNil => by simp [hNil] at h)
  omega

/-- A string with a last byte other than zero is `magnitudeBytes` of its
value. -/
theorem magnitudeBytes_self {bs : List UInt8} {last : UInt8} (h : bs.getLast? = some last)
    (hLast : last ≠ 0) : magnitudeBytes (leValue bs) (leValue bs) = bs :=
  magnitudeBytes_leValue (fun h0 => hLast (Option.some.inj (h.symm.trans h0))) (length_le_leValue h hLast)

theorem serialize_concat {value : Int} {init : List UInt8} {last : UInt8}
    (h : magnitudeBytes value.natAbs value.natAbs = init ++ [last]) :
    serialize value = if 128 ≤ last.toNat then init ++ [last] ++ [if value < 0 then 0x80 else 0]
      else if value < 0 then init ++ [last ||| 0x80] else init ++ [last] := by
  simp only [serialize, h, List.getLast?_concat, List.dropLast_concat, topBit_ne_zero,
    decide_eq_true_eq]

theorem magnitudeBytes_natAbs_eq_nil {value : Int} (h : magnitudeBytes value.natAbs value.natAbs = []) :
    value = 0 := by
  have hVal := (leValue_magnitudeBytes value.natAbs value.natAbs le_rfl).1
  rw [h] at hVal
  exact Int.natAbs_eq_zero.1 hVal.symm

/-- The magnitude split at its last byte, which is not zero. -/
theorem magnitudeBytes_natAbs_concat {value : Int} {init : List UInt8} {last : UInt8}
    (h : magnitudeBytes value.natAbs value.natAbs = init ++ [last]) :
    leValue init + 256 ^ init.length * last.toNat = value.natAbs ∧ last ≠ 0 := by
  have hSpec := leValue_magnitudeBytes value.natAbs value.natAbs le_rfl
  rw [h, leValue_append] at hSpec
  refine ⟨by simpa [leValue] using hSpec.1, fun h0 => hSpec.2 ?_⟩
  rw [List.getLast?_concat, h0]

/-- `set_vch` inverts `serialize`. -/
theorem set_vch_serialize (value : Int) : set_vch (serialize value) = value := by
  rcases List.eq_nil_or_concat (magnitudeBytes value.natAbs value.natAbs) with h | ⟨init, last, h⟩
  · rw [magnitudeBytes_natAbs_eq_nil h]
    rfl
  rw [List.concat_eq_append] at h
  have hSplit := magnitudeBytes_natAbs_concat h
  have hb := last.toNat_lt
  rw [serialize_concat h]
  by_cases hTop : 128 ≤ last.toNat
  · have hValue : leValue (init ++ [last]) = value.natAbs := by
      rw [leValue_append]
      simpa [leValue] using hSplit.1
    rw [if_pos hTop]
    by_cases hNeg : value < 0
    · rw [if_pos hNeg, set_vch_concat, if_pos (by decide), hValue]
      show -((value.natAbs + 256 ^ (init ++ [last]).length * 0 : Nat) : Int) = value
      omega
    · rw [if_neg hNeg, set_vch_concat, if_neg (by decide), hValue]
      show ((value.natAbs + 256 ^ (init ++ [last]).length * 0 : Nat) : Int) = value
      omega
  · rw [if_neg hTop]
    by_cases hNeg : value < 0
    · have hOr := setTopBit_toNat last (by omega)
      rw [if_pos hNeg, set_vch_concat, hOr, if_pos (by omega)]
      have hLow : (last.toNat + 128) % 128 = last.toNat := by omega
      rw [hLow, hSplit.1]
      omega
    · rw [if_neg hNeg, set_vch_concat, if_neg hTop, hSplit.1]
      omega

/-- What `serialize` writes passes the shortest-encoding test. -/
theorem isMinimal_serialize (value : Int) : isMinimal (serialize value) = true := by
  rcases List.eq_nil_or_concat (magnitudeBytes value.natAbs value.natAbs) with h | ⟨init, last, h⟩
  · rw [magnitudeBytes_natAbs_eq_nil h]
    rfl
  rw [List.concat_eq_append] at h
  have hSplit := magnitudeBytes_natAbs_concat h
  have hNonzero : last.toNat ≠ 0 := fun h0 => hSplit.2 (UInt8.toNat_inj.1 h0)
  rw [serialize_concat h]
  by_cases hTop : 128 ≤ last.toNat
  · rw [if_pos hTop, isMinimal_concat, List.getLast?_concat]
    simp [hTop]
  · rw [if_neg hTop]
    by_cases hNeg : value < 0
    · rw [if_pos hNeg, isMinimal_concat, setTopBit_toNat last (by omega)]
      simp only [Bool.or_eq_true, decide_eq_true_eq]
      left
      omega
    · rw [if_neg hNeg, isMinimal_concat]
      simp only [Bool.or_eq_true, decide_eq_true_eq]
      left
      omega

/-- `serialize` inverts `set_vch` on the strings that pass the shortest-encoding
test. -/
theorem serialize_set_vch {vch : valtype} (hMinimal : isMinimal vch = true) :
    serialize (set_vch vch) = vch := by
  rcases List.eq_nil_or_concat vch with rfl | ⟨init, last, rfl⟩
  · rfl
  rw [List.concat_eq_append] at hMinimal ⊢
  rw [isMinimal_concat, Bool.or_eq_true, decide_eq_true_eq] at hMinimal
  have hb := last.toNat_lt
  rw [set_vch_concat]
  by_cases hTop : 128 ≤ last.toNat
  · rw [if_pos hTop]
    by_cases hLow : last.toNat % 128 = 0
    · -- the last byte is the sign alone: the byte before it carries a top bit
      obtain ⟨p, hp, hpTop⟩ : ∃ p, init.getLast? = some p ∧ 128 ≤ p.toNat := by
        rcases hMinimal with h | h
        · exact absurd hLow h
        · cases hInit : init.getLast? with
          | none => rw [hInit] at h; cases h
          | some p => rw [hInit] at h; exact ⟨p, rfl, by simpa using h⟩
      have hp0 : p ≠ 0 := fun h0 => by rw [h0] at hpTop; simp at hpTop
      have hBytes := magnitudeBytes_self hp hp0
      have hPos : 0 < leValue init :=
        Nat.lt_of_lt_of_le (Nat.pow_pos (by decide)) (le_leValue_of_getLast hp hp0)
      have hLast : last = 0x80 := UInt8.toNat_inj.1 (by simp; omega)
      rw [hLow, Nat.mul_zero, Nat.add_zero]
      obtain ⟨init', rfl⟩ : ∃ init', init = init' ++ [p] := by
        rcases List.eq_nil_or_concat init with rfl | ⟨init', q, rfl⟩
        · cases hp
        · rw [List.concat_eq_append, List.getLast?_concat, Option.some.injEq] at hp
          exact ⟨init', by rw [List.concat_eq_append, hp]⟩
      rw [serialize_concat (by rw [Int.natAbs_neg, Int.natAbs_natCast, hBytes]), if_pos hpTop,
        if_pos (by omega), hLast]
    · have hLast' : (UInt8.ofNat (last.toNat % 128)).toNat = last.toNat % 128 := by
        rw [UInt8.toNat_ofNat']
        omega
      have hl0 : UInt8.ofNat (last.toNat % 128) ≠ 0 := fun h0 => hLow (by
        rw [← hLast', h0]
        rfl)
      have hGet : (init ++ [UInt8.ofNat (last.toNat % 128)]).getLast? =
          some (UInt8.ofNat (last.toNat % 128)) := List.getLast?_concat
      have hBytes := magnitudeBytes_self hGet hl0
      have hValue : leValue (init ++ [UInt8.ofNat (last.toNat % 128)]) =
          leValue init + 256 ^ init.length * (last.toNat % 128) := by
        rw [leValue_append]
        simp [leValue, hLast']
      rw [hValue] at hBytes
      have hPos : 0 < leValue init + 256 ^ init.length * (last.toNat % 128) := by
        have hPow : 1 ≤ 256 ^ init.length := Nat.one_le_pow _ _ (by decide)
        have hMul : 1 ≤ 256 ^ init.length * (last.toNat % 128) :=
          Nat.one_le_iff_ne_zero.2 (Nat.mul_ne_zero (by omega) hLow)
        omega
      rw [serialize_concat (by rw [Int.natAbs_neg, Int.natAbs_natCast, hBytes]),
        if_neg (by omega), if_pos (by omega)]
      congr 2
      apply UInt8.toNat_inj.1
      rw [setTopBit_toNat _ (by omega), hLast']
      omega
  · rw [if_neg hTop]
    by_cases hZero : last = 0
    · obtain ⟨p, hp, hpTop⟩ : ∃ p, init.getLast? = some p ∧ 128 ≤ p.toNat := by
        rcases hMinimal with h | h
        · exact absurd (by rw [hZero]; rfl) h
        · cases hInit : init.getLast? with
          | none => rw [hInit] at h; cases h
          | some p => rw [hInit] at h; exact ⟨p, rfl, by simpa using h⟩
      have hp0 : p ≠ 0 := fun h0 => by rw [h0] at hpTop; simp at hpTop
      have hBytes := magnitudeBytes_self hp hp0
      obtain ⟨init', rfl⟩ : ∃ init', init = init' ++ [p] := by
        rcases List.eq_nil_or_concat init with rfl | ⟨init', q, rfl⟩
        · cases hp
        · rw [List.concat_eq_append, List.getLast?_concat, Option.some.injEq] at hp
          exact ⟨init', by rw [List.concat_eq_append, hp]⟩
      rw [hZero]
      show serialize ((leValue (init' ++ [p]) + 256 ^ (init' ++ [p]).length * 0 : Nat) : Int) = _
      rw [Nat.mul_zero, Nat.add_zero, serialize_concat (by rw [Int.natAbs_natCast, hBytes]),
        if_pos hpTop, if_neg (by omega)]
    · have hGet : (init ++ [last]).getLast? = some last := List.getLast?_concat
      have hBytes := magnitudeBytes_self hGet hZero
      have hValue : leValue (init ++ [last]) = leValue init + 256 ^ init.length * last.toNat := by
        rw [leValue_append]
        simp [leValue]
      rw [hValue] at hBytes
      rw [serialize_concat (by rw [Int.natAbs_natCast, hBytes]), if_neg hTop, if_neg (by omega)]

/-- The shortest-encoding test holds exactly on the images of `serialize`. -/
theorem isMinimal_iff_serialize (vch : valtype) :
    isMinimal vch = true ↔ serialize (set_vch vch) = vch := by
  constructor
  · exact serialize_set_vch
  · intro h
    rw [← h]
    exact isMinimal_serialize _

/-- A number below `2 ^ 63` in magnitude is written in at most eight bytes. -/
theorem length_serialize_le {value : Int} (hValue : value.natAbs < 2 ^ 63) :
    (serialize value).length ≤ 8 := by
  rcases List.eq_nil_or_concat (magnitudeBytes value.natAbs value.natAbs) with h | ⟨init, last, h⟩
  · rw [magnitudeBytes_natAbs_eq_nil h]
    decide
  rw [List.concat_eq_append] at h
  have hSplit := magnitudeBytes_natAbs_concat h
  have hLe : 256 ^ init.length * last.toNat ≤ value.natAbs := by
    rw [← hSplit.1]
    exact Nat.le_add_left _ _
  rw [serialize_concat h]
  by_cases hTop : 128 ≤ last.toNat
  · have hPow : 256 ^ init.length * 128 ≤ value.natAbs :=
      le_trans (Nat.mul_le_mul_left _ hTop) hLe
    have hLen : init.length ≤ 6 := by
      by_contra hLong
      have hMono : 256 ^ 7 * 128 ≤ 256 ^ init.length * 128 :=
        Nat.mul_le_mul_right _ (Nat.pow_le_pow_right (by decide) (by omega))
      have hTwo : (256 : Nat) ^ 7 * 128 = 2 ^ 63 := by norm_num
      omega
    rw [if_pos hTop]
    simp only [List.length_append, List.length_singleton]
    omega
  · have hOne : 1 ≤ last.toNat := Nat.one_le_iff_ne_zero.2 fun h0 => hSplit.2 (UInt8.toNat_inj.1 h0)
    have hPow : 256 ^ init.length ≤ value.natAbs :=
      le_trans (Nat.le_mul_of_pos_right _ hOne) hLe
    have hLen : init.length ≤ 7 := by
      by_contra hLong
      have hMono : 256 ^ 8 ≤ 256 ^ init.length := Nat.pow_le_pow_right (by decide) (by omega)
      have hTwo : (256 : Nat) ^ 8 = 2 ^ 64 := by norm_num
      omega
    rw [if_neg hTop]
    split_ifs <;> simp only [List.length_append, List.length_singleton] <;> omega

/-- **Script numbers.** Every `int64_t` other than the least is read back by
the constructor with `fRequireMinimal` from its `serialize` under the
eight-byte limit; a string the constructor accepts is the `serialize` of the
value it reads; and within the size limit the constructor throws exactly on
the strings that are not the `serialize` of their value. -/
theorem scriptNum_bijection :
    (∀ value : Int, value.natAbs < 2 ^ 63 → CScriptNum (serialize value) true 8 = some value) ∧
    (∀ (vch : valtype) (nMaxNumSize : Nat) (value : Int),
      CScriptNum vch true nMaxNumSize = some value → serialize value = vch) ∧
    (∀ (vch : valtype) (nMaxNumSize : Nat), vch.length ≤ nMaxNumSize →
      (CScriptNum vch true nMaxNumSize = none ↔ serialize (set_vch vch) ≠ vch)) := by
  refine ⟨fun value hValue => ?_, fun vch nMaxNumSize value h => ?_, fun vch nMaxNumSize hLen => ?_⟩
  · unfold CScriptNum
    rw [if_neg (by have := length_serialize_le hValue; omega), isMinimal_serialize,
      set_vch_serialize]
    rfl
  · unfold CScriptNum at h
    split_ifs at h with hSize hMinimal
    rw [← Option.some.inj h]
    exact serialize_set_vch (by simpa using hMinimal)
  · unfold CScriptNum
    rw [if_neg (by omega), Ne, ← isMinimal_iff_serialize]
    cases isMinimal vch <;> simp

end FairCoin.Ports.ScriptNum
