import FairCoin.Ports.Serialize

/-!
# Reading CompactSize and VARINT

`ReadCompactSize` reads the size prefix of every serialized container: one
byte below 253, else a marker byte and a little-endian word of two, four or
eight bytes. It rejects an encoding that a shorter class could hold and a
size above `MAX_SIZE`, so it accepts exactly the prefixes `WriteCompactSize`
writes for the sizes up to `MAX_SIZE`.

`WriteVarInt` writes a number most significant digit first, seven bits a
byte, with the top bit on every byte but the last, and one subtracted from
every digit but the last so that each number has one encoding. `ReadVarInt`
accumulates the digits in the integer type it reads into, without an
overflow check; the type is modelled by its width `w`, the accumulator being
taken modulo `2 ^ w`.

## Main results

* `ReadCompactSize_eq_some_iff` — the reader accepts a prefix exactly when it
  is the writer's encoding of a size up to `MAX_SIZE`.
* `ReadVarInt_WriteVarInt` — a number that fits the type reads back from its
  encoding, which is `GetSizeOfVarInt` bytes long.
-/

namespace FairCoin.Ports.CompactSize

open FairCoin.Verified.ByteCodec FairCoin.Ports.Serialize

/-! ## CompactSize -/

/-- `MAX_SIZE`, the largest size `ReadCompactSize` accepts. -/
def MAX_SIZE : Nat := 0x02000000

/-- `GetSizeOfCompactSize`. -/
def GetSizeOfCompactSize (nSize : UInt64) : Nat :=
  if nSize < 253 then 1
  else if nSize ≤ 0xffff then 3
  else if nSize ≤ 0xffffffff then 5
  else 9

/-- A word of `w` bytes after a marker byte, rejected below `nMin`, the
least value the marker is used for. -/
def readCanonical (w nMin : Nat) (bs : List UInt8) : Option (Nat × List UInt8) := do
  let (nSizeRet, rest) ← (leWord w).read bs
  if nSizeRet < nMin then none else pure (nSizeRet, rest)

/-- `ReadCompactSize`; `none` where it throws: at the end of the stream, on
a non-canonical encoding, or above `MAX_SIZE`. -/
def ReadCompactSize : List UInt8 → Option (Nat × List UInt8)
  | [] => none
  | chSize :: bs => do
    let (nSizeRet, rest) ←
      (if chSize < 253 then pure (chSize.toNat, bs)
      else if chSize = 253 then readCanonical 2 253 bs
      else if chSize = 254 then readCanonical 4 0x10000 bs
      else readCanonical 8 0x100000000 bs)
    if nSizeRet > MAX_SIZE then none else pure (nSizeRet, rest)

theorem length_WriteCompactSize (nSize : UInt64) :
    (WriteCompactSize nSize).length = GetSizeOfCompactSize nSize := by
  unfold WriteCompactSize GetSizeOfCompactSize
  split_ifs <;> simp

theorem readCanonical_eq_some {w nMin v : Nat} {bs rest : List UInt8}
    (h : readCanonical w nMin bs = some (v, rest)) :
    bs = leBytes w v ++ rest ∧ nMin ≤ v ∧ v < 256 ^ w := by
  simp only [readCanonical, Option.bind_eq_bind, Option.bind_eq_some_iff] at h
  obtain ⟨⟨v', rest'⟩, hRead, hCheck⟩ := h
  split_ifs at hCheck with hMin
  simp only [Option.pure_def, Option.some.injEq, Prod.mk.injEq] at hCheck
  obtain ⟨rfl, rfl⟩ := hCheck
  obtain ⟨hBytes, hLt⟩ := leWord_read_eq_some hRead
  exact ⟨hBytes, by omega, hLt⟩

theorem readCanonical_leBytes {w nMin v : Nat} (rest : List UInt8) (hMin : nMin ≤ v)
    (hLt : v < 256 ^ w) : readCanonical w nMin (leBytes w v ++ rest) = some (v, rest) := by
  simp only [readCanonical, leWord_read w v rest hLt, Option.bind_eq_bind, Option.bind_some]
  rw [if_neg (by omega)]
  rfl

/-- The three classes of `WriteCompactSize` beyond one byte, each a marker
and a word. -/
theorem WriteCompactSize_of_ge {n : Nat} (hn : n < 2 ^ 64) :
    WriteCompactSize (UInt64.ofNat n) =
      if n < 253 then [UInt8.ofNat n]
      else if n ≤ 0xffff then 253 :: leBytes 2 n
      else if n ≤ 0xffffffff then 254 :: leBytes 4 n
      else 255 :: leBytes 8 n := by
  have hu : (UInt64.ofNat n).toNat = n := by
    rw [UInt64.toNat_ofNat']
    exact Nat.mod_eq_of_lt hn
  unfold WriteCompactSize
  simp only [UInt64.lt_iff_toNat_lt, UInt64.le_iff_toNat_le, hu, UInt64.reduceToNat]
  split_ifs
  · congr 1
    apply UInt8.toNat_inj.1
    rw [UInt64.toNat_toUInt8, hu, UInt8.toNat_ofNat']
  all_goals rfl

/-- **CompactSize.** `ReadCompactSize` accepts a prefix of a stream exactly
when the prefix is what `WriteCompactSize` writes for a size up to
`MAX_SIZE`; it throws on every other stream. -/
theorem ReadCompactSize_eq_some_iff (bs rest : List UInt8) (n : Nat) :
    ReadCompactSize bs = some (n, rest) ↔
      n ≤ MAX_SIZE ∧ bs = WriteCompactSize (UInt64.ofNat n) ++ rest := by
  constructor
  · intro h
    cases bs with
    | nil => cases h
    | cons chSize bs =>
      simp only [ReadCompactSize, Option.bind_eq_bind, Option.bind_eq_some_iff] at h
      obtain ⟨⟨v, rest'⟩, hRead, hMax⟩ := h
      split_ifs at hMax with hBig
      simp only [Option.pure_def, Option.some.injEq, Prod.mk.injEq] at hMax
      obtain ⟨rfl, rfl⟩ := hMax
      refine ⟨by omega, ?_⟩
      have hMaxSize : MAX_SIZE < 2 ^ 64 := by decide
      rw [WriteCompactSize_of_ge (by omega)]
      -- one case per marker: the value read decides the class it is written in
      split_ifs at hRead with h253 h253' h254
      · simp only [Option.pure_def, Option.some.injEq, Prod.mk.injEq] at hRead
        obtain ⟨rfl, rfl⟩ := hRead
        have hLt : chSize.toNat < 253 := h253
        rw [if_pos hLt, UInt8.ofNat_toNat]
        rfl
      · obtain ⟨rfl, hMin, hLt⟩ := readCanonical_eq_some hRead
        rw [if_neg (by omega), if_pos (by omega), h253']
        rfl
      · obtain ⟨rfl, hMin, hLt⟩ := readCanonical_eq_some hRead
        rw [if_neg (by omega), if_neg (by omega), if_pos (by omega), h254]
        rfl
      · obtain ⟨rfl, hMin, hLt⟩ := readCanonical_eq_some hRead
        exact absurd hMin (by unfold MAX_SIZE at hBig; omega)
  · rintro ⟨hMax, rfl⟩
    have hMaxSize : MAX_SIZE < 2 ^ 32 := by decide
    rw [WriteCompactSize_of_ge (by omega)]
    split_ifs with h253 hShort
    · have hByte : (UInt8.ofNat n).toNat = n := by
        rw [UInt8.toNat_ofNat']
        omega
      have hLt : UInt8.ofNat n < 253 := by
        rw [UInt8.lt_iff_toNat_lt, hByte]
        exact h253
      simp only [List.cons_append, ReadCompactSize, if_pos hLt, hByte, Option.bind_eq_bind,
        Option.pure_def, Option.bind_some]
      rw [if_neg (by omega)]
      rfl
    · have hMarker : ¬ ((253 : UInt8) < 253) := by decide
      simp only [List.cons_append, ReadCompactSize, Option.bind_eq_bind, hMarker, if_false,
        if_true, readCanonical_leBytes rest (show 253 ≤ n by omega) (show n < 256 ^ 2 by omega),
        Option.bind_some]
      rw [if_neg (by omega)]
      rfl
    · have hMarker : ¬ ((254 : UInt8) < 253) := by decide
      have hNe : ¬ ((254 : UInt8) = 253) := by decide
      simp only [List.cons_append, ReadCompactSize, Option.bind_eq_bind, hMarker, hNe, if_false,
        if_true, readCanonical_leBytes rest (show 0x10000 ≤ n by omega)
          (show n < 256 ^ 4 by omega), Option.bind_some]
      rw [if_neg (by omega)]
      rfl
    · unfold MAX_SIZE at hMax
      omega

/-! ## VARINT -/

/-- The digits `WriteVarInt` stores in `tmp` from position `len` on, least
significant first: the low seven bits, with the top bit set except at
position `0`; the next digit is the rest less one. Each digit shortens the
number, so its value is fuel enough. -/
def varIntTmp : Nat → Nat → Nat → List UInt8
  | 0, _, _ => []
  | fuel + 1, len, n =>
    let b := UInt8.ofNat ((n &&& 0x7F) ||| (if len ≠ 0 then 0x80 else 0x00))
    if n ≤ 0x7F then [b] else b :: varIntTmp fuel (len + 1) ((n >>> 7) - 1)

/-- `WriteVarInt` of a non-negative number: `tmp` written from its last
digit down. -/
def WriteVarInt (n : Nat) : List UInt8 := (varIntTmp (n + 1) 0 n).reverse

/-- The loop of `GetSizeOfVarInt`. -/
def sizeOfVarIntLoop : Nat → Nat → Nat
  | 0, _ => 0
  | fuel + 1, n => if n ≤ 0x7F then 1 else sizeOfVarIntLoop fuel ((n >>> 7) - 1) + 1

/-- `GetSizeOfVarInt`. -/
def GetSizeOfVarInt (n : Nat) : Nat := sizeOfVarIntLoop (n + 1) n

/-- The loop of `ReadVarInt` into a type of `w` bits, from the accumulator
`n`: shift in seven bits, and on a byte with the top bit set add one and go
on. -/
def readVarIntFrom (w n : Nat) : List UInt8 → Option (Nat × List UInt8)
  | [] => none
  | chData :: rest =>
    let n := ((n <<< 7) ||| (chData &&& 0x7F).toNat) % 2 ^ w
    if chData &&& 0x80 != 0 then readVarIntFrom w ((n + 1) % 2 ^ w) rest
    else some (n, rest)

/-- `ReadVarInt`; `none` where the stream ends. -/
def ReadVarInt (w : Nat) (bs : List UInt8) : Option (Nat × List UInt8) :=
  readVarIntFrom w 0 bs

theorem varIntTmp_succ (fuel len n : Nat) :
    varIntTmp (fuel + 1) len n = if n ≤ 0x7F then [UInt8.ofNat (n % 128 + if len ≠ 0 then 128 else 0)]
      else UInt8.ofNat (n % 128 + if len ≠ 0 then 128 else 0) :: varIntTmp fuel (len + 1) (n / 128 - 1) := by
  have hLow : n &&& 0x7F = n % 128 := Nat.and_two_pow_sub_one_eq_mod n 7
  have hByte : (n &&& 0x7F) ||| (if len ≠ 0 then 0x80 else 0x00) =
      n % 128 + if len ≠ 0 then 128 else 0 := by
    rw [hLow]
    split_ifs
    · have hOr : 128 ||| n % 128 = 128 + n % 128 := by
        have h := Nat.two_pow_add_eq_or_of_lt (show n % 128 < 2 ^ 7 by omega) 1
        simpa using h.symm
      rw [Nat.or_comm, hOr]
      omega
    · rw [Nat.or_zero, Nat.add_zero]
  rw [varIntTmp, hByte, Nat.shiftRight_eq_div_pow]

theorem length_varIntTmp (fuel fuel' len n : Nat) (hFuel : n < fuel) (hFuel' : n < fuel') :
    (varIntTmp fuel len n).length = sizeOfVarIntLoop fuel' n := by
  induction fuel generalizing fuel' len n with
  | zero => omega
  | succ fuel ih =>
    obtain ⟨fuel', rfl⟩ : ∃ k, fuel' = k + 1 := ⟨fuel' - 1, by omega⟩
    have hShift : n >>> 7 = n / 128 := Nat.shiftRight_eq_div_pow n 7
    rw [varIntTmp_succ, sizeOfVarIntLoop, hShift]
    by_cases hSmall : n ≤ 0x7F
    · simp only [if_pos hSmall, List.length_singleton]
    · simp only [if_neg hSmall, List.length_cons]
      rw [ih fuel' (len + 1) (n / 128 - 1) (by omega) (by omega)]

/-- A digit byte with another byte after it, as the reader sees it. -/
theorem digit_more (d : Nat) (hd : d < 128) :
    ((UInt8.ofNat (d + 128)) &&& 0x7F).toNat = d ∧ ((UInt8.ofNat (d + 128)) &&& 0x80 != 0) = true := by
  have hAll : ∀ e : Fin 128, ((UInt8.ofNat (e.val + 128)) &&& 0x7F).toNat = e.val ∧
      ((UInt8.ofNat (e.val + 128)) &&& 0x80 != 0) = true := by
    decide +kernel
  exact hAll ⟨d, hd⟩

/-- The last digit byte, as the reader sees it. -/
theorem digit_last (d : Nat) (hd : d < 128) :
    ((UInt8.ofNat d) &&& 0x7F).toNat = d ∧ ((UInt8.ofNat d) &&& 0x80 != 0) = false := by
  have hAll : ∀ e : Fin 128, ((UInt8.ofNat e.val) &&& 0x7F).toNat = e.val ∧
      ((UInt8.ofNat e.val) &&& 0x80 != 0) = false := by
    decide +kernel
  exact hAll ⟨d, hd⟩

/-- Shifting a digit into an accumulator that stays in range. -/
theorem shift_digit {w acc d : Nat} (hd : d < 128) (hFit : acc * 128 + d < 2 ^ w) :
    ((acc <<< 7) ||| d) % 2 ^ w = acc * 128 + d := by
  rw [← Nat.shiftLeft_add_eq_or_of_lt (show d < 2 ^ 7 by omega), Nat.shiftLeft_eq]
  exact Nat.mod_eq_of_lt hFit

/-- The digits above the last: read from an empty accumulator they leave the
number they encode plus one, the carry of the last digit. -/
theorem readVarIntFrom_tmp {w : Nat} (fuel m len : Nat) (hFuel : m < fuel) (hLen : len ≠ 0)
    (hm : m + 1 < 2 ^ w) (bs : List UInt8) :
    readVarIntFrom w 0 ((varIntTmp fuel len m).reverse ++ bs) = readVarIntFrom w (m + 1) bs := by
  induction fuel generalizing m len bs with
  | zero => omega
  | succ fuel ih =>
    obtain ⟨hLow, hMore⟩ := digit_more (m % 128) (Nat.mod_lt m (by decide))
    rw [varIntTmp_succ, if_pos hLen]
    by_cases hSmall : m ≤ 0x7F
    · -- the top digit, read into the empty accumulator
      have hShift : ((0 <<< 7) ||| (m % 128)) % 2 ^ w = m := by
        rw [shift_digit (Nat.mod_lt m (by decide)) (by omega)]
        omega
      simp only [if_pos hSmall, List.reverse_singleton, List.singleton_append, readVarIntFrom,
        hLow, hMore, if_true, hShift, Nat.mod_eq_of_lt hm]
    · have hRest := ih (m / 128 - 1) (len + 1) (by omega) (by omega) (by omega)
        ((UInt8.ofNat (m % 128 + 128)) :: bs)
      have hShift : (((m / 128 - 1 + 1) <<< 7) ||| (m % 128)) % 2 ^ w = m := by
        rw [shift_digit (Nat.mod_lt m (by decide)) (by omega)]
        omega
      simp only [if_neg hSmall]
      rw [List.reverse_cons, List.append_assoc, List.singleton_append, hRest]
      simp only [readVarIntFrom, hLow, hMore, if_true, hShift, Nat.mod_eq_of_lt hm]

/-- **VARINT.** A number that fits the `w` bits of the type reads back from
its encoding, which is `GetSizeOfVarInt` bytes long. -/
theorem ReadVarInt_WriteVarInt {w n : Nat} (hn : n < 2 ^ w) (rest : List UInt8) :
    ReadVarInt w (WriteVarInt n ++ rest) = some (n, rest) ∧
      (WriteVarInt n).length = GetSizeOfVarInt n := by
  refine ⟨?_, by rw [WriteVarInt, List.length_reverse, GetSizeOfVarInt,
    length_varIntTmp (n + 1) (n + 1) 0 n (by omega) (by omega)]⟩
  obtain ⟨hLow, hMore⟩ := digit_last (n % 128) (Nat.mod_lt n (by decide))
  have hFirst : ¬ ((0 : Nat) ≠ 0) := fun h => h rfl
  rw [ReadVarInt, WriteVarInt, varIntTmp_succ, if_neg hFirst, Nat.add_zero]
  by_cases hSmall : n ≤ 0x7F
  · have hShift : ((0 <<< 7) ||| (n % 128)) % 2 ^ w = n := by
      rw [shift_digit (Nat.mod_lt n (by decide)) (by omega)]
      omega
    simp only [if_pos hSmall, List.reverse_singleton, List.singleton_append, readVarIntFrom,
      hLow, hMore, hShift]
    rfl
  · have hShift : (((n / 128 - 1 + 1) <<< 7) ||| (n % 128)) % 2 ^ w = n := by
      rw [shift_digit (Nat.mod_lt n (by decide)) (by omega)]
      omega
    simp only [if_neg hSmall]
    rw [List.reverse_cons, List.append_assoc, List.singleton_append,
      readVarIntFrom_tmp n _ 1 (by omega) one_ne_zero (by omega)]
    simp only [readVarIntFrom, hLow, hMore, hShift]
    rfl

/-- Entries of the table in the source's comment. Its entries for `16511`
and `65535` read `80 FF 7F` and `82 FD 7F`, which its own formula decodes
to other numbers; the code writes `FF 7F` and `82 FE 7F`. -/
example : WriteVarInt 128 = [0x80, 0x00] ∧ WriteVarInt 16384 = [0xFF, 0x00] ∧
    WriteVarInt 16511 = [0xFF, 0x7F] ∧ WriteVarInt 65535 = [0x82, 0xFE, 0x7F] ∧
    WriteVarInt (2 ^ 32) = [0x8E, 0xFE, 0xFE, 0xFF, 0x00] := by
  decide

/-- **Integers in streams.** `ReadCompactSize` accepts exactly the encodings
`WriteCompactSize` writes of the sizes up to `MAX_SIZE`, each
`GetSizeOfCompactSize` bytes long; and every number that fits a type of `w`
bits reads back from `WriteVarInt`, consuming `GetSizeOfVarInt` bytes. -/
theorem compactSize_varInt_exact :
    (∀ (bs rest : List UInt8) (n : Nat), ReadCompactSize bs = some (n, rest) ↔
      n ≤ MAX_SIZE ∧ bs = WriteCompactSize (UInt64.ofNat n) ++ rest) ∧
    (∀ nSize : UInt64, (WriteCompactSize nSize).length = GetSizeOfCompactSize nSize) ∧
    (∀ (w n : Nat) (rest : List UInt8), n < 2 ^ w →
      ReadVarInt w (WriteVarInt n ++ rest) = some (n, rest) ∧
        (WriteVarInt n).length = GetSizeOfVarInt n) :=
  ⟨ReadCompactSize_eq_some_iff, length_WriteCompactSize,
    fun _ _ rest hn => ReadVarInt_WriteVarInt hn rest⟩

end FairCoin.Ports.CompactSize
